import AgentBoilerplate.Effects.Interleaving

namespace AgentBoilerplate.Effects

-- Two interfaces side by side.
@[reducible] def Interface.sum (I J : Interface) : Interface where
  Call := I.Call ⊕ J.Call
  Answer
    | .inl request => I.Answer request
    | .inr request => J.Answer request

variable {I J : Interface} {σ τ α β : Type}

-- The side of the sum that an event is of.
def Event.left : Event (I.sum J) → Option (Event I)
  | ⟨.inl request, answer⟩ => some ⟨request, answer⟩
  | ⟨.inr _, _⟩ => none

def Event.right : Event (I.sum J) → Option (Event J)
  | ⟨.inl _, _⟩ => none
  | ⟨.inr request, answer⟩ => some ⟨request, answer⟩

def lefts (past : List (Event (I.sum J))) : List (Event I) := past.filterMap Event.left

def rights (past : List (Event (I.sum J))) : List (Event J) := past.filterMap Event.right

@[simp] theorem lefts_nil : lefts ([] : List (Event (I.sum J))) = [] := rfl

@[simp] theorem lefts_append_left (past : List (Event (I.sum J))) (request : I.Call)
    (answer : I.Answer request) :
    lefts (past ++ [⟨.inl request, answer⟩]) = lefts past ++ [⟨request, answer⟩] :=
  List.filterMap_append

@[simp] theorem lefts_append_right (past : List (Event (I.sum J))) (request : J.Call)
    (answer : J.Answer request) : lefts (past ++ [⟨.inr request, answer⟩]) = lefts past :=
  List.filterMap_append.trans (List.append_nil _)

@[simp] theorem rights_append_left (past : List (Event (I.sum J))) (request : I.Call)
    (answer : I.Answer request) : rights (past ++ [⟨.inl request, answer⟩]) = rights past :=
  List.filterMap_append.trans (List.append_nil _)

@[simp] theorem rights_append_right (past : List (Event (I.sum J))) (request : J.Call)
    (answer : J.Answer request) :
    rights (past ++ [⟨.inr request, answer⟩]) = rights past ++ [⟨request, answer⟩] :=
  List.filterMap_append

theorem mem_lefts {past : List (Event (I.sum J))} {request : I.Call} {answer : I.Answer request} :
    (⟨request, answer⟩ : Event I) ∈ lefts past ↔
      (⟨.inl request, answer⟩ : Event (I.sum J)) ∈ past := by
  constructor
  · intro h
    obtain ⟨⟨call, reply⟩, hevent, hleft⟩ := List.mem_filterMap.mp h
    cases call with
    | inl call =>
        cases hleft
        exact hevent
    | inr call => cases hleft
  · exact fun h => List.mem_filterMap.mpr ⟨_, h, rfl⟩

theorem mem_rights {past : List (Event (I.sum J))} {request : J.Call} {answer : J.Answer request} :
    (⟨request, answer⟩ : Event J) ∈ rights past ↔
      (⟨.inr request, answer⟩ : Event (I.sum J)) ∈ past := by
  constructor
  · intro h
    obtain ⟨⟨call, reply⟩, hevent, hright⟩ := List.mem_filterMap.mp h
    cases call with
    | inl call => cases hright
    | inr call =>
        cases hright
        exact hevent
  · exact fun h => List.mem_filterMap.mpr ⟨_, h, rfl⟩

-- What is allowed of the calls of one side, when there are none of the other.
def OnLeft (allowed : List (Event I) → I.Call → Prop) (past : List (Event (I.sum J))) :
    (I.sum J).Call → Prop
  | .inl request => allowed (lefts past) request
  | .inr _ => False

def OnRight (allowed : List (Event J) → J.Call → Prop) (past : List (Event (I.sum J))) :
    (I.sum J).Call → Prop
  | .inl _ => False
  | .inr request => allowed (rights past) request

namespace Program

-- A program of one side, beside the other.
def inl : Program I α → Program (I.sum J) α
  | .done value => .done value
  | .call request next => .call (.inl request) fun answer => (next answer).inl

def inr : Program J α → Program (I.sum J) α
  | .done value => .done value
  | .call request next => .call (.inr request) fun answer => (next answer).inr

theorem inl_calls {allowed : List (Event I) → I.Call → Prop} {p : Program I α}
    {past : List (Event (I.sum J))} (h : p.Calls allowed (lefts past)) :
    p.inl.Calls (OnLeft allowed) past := by
  induction p generalizing past with
  | done value => trivial
  | call request next ih =>
      refine ⟨h.1, fun answer => ih answer ?_⟩
      rw [lefts_append_left]
      exact h.2 answer

theorem inr_calls {allowed : List (Event J) → J.Call → Prop} {p : Program J α}
    {past : List (Event (I.sum J))} (h : p.Calls allowed (rights past)) :
    p.inr.Calls (OnRight allowed) past := by
  induction p generalizing past with
  | done value => trivial
  | call request next ih =>
      refine ⟨h.1, fun answer => ih answer ?_⟩
      rw [rights_append_right]
      exact h.2 answer

theorem inr_ends {post : List (Event J) → α → Prop} {p : Program J α}
    {past : List (Event (I.sum J))} (h : p.Ends post (rights past)) :
    p.inr.Ends (fun later value => post (rights later) value) past := by
  induction p generalizing past with
  | done value => exact h
  | call request next ih =>
      refine fun answer => ih answer ?_
      rw [rights_append_right]
      exact h answer

end Program

-- Two sides that answer from one state.
def Handler.sum (handler : Handler I σ) (handler' : Handler J σ) : Handler (I.sum J) σ
  | .inl request, s => handler request s
  | .inr request, s => handler' request s

-- A handler that answers from a part of the state.
def Handler.on (read : σ → τ) (write : σ → τ → σ) (handler : Handler I τ) : Handler I σ :=
  fun request s => ((handler request (read s)).1, write s (handler request (read s)).2)

end AgentBoilerplate.Effects
