import AgentBoilerplate.Effects.Footprint
import AgentBoilerplate.Effects.Sum

namespace AgentBoilerplate.Effects

-- A boundary between two sides: what each may ask, what each is answered, and
-- which answers the side of the observer takes for the same.
structure Boundary (I : Interface) where
  allowed : Bool → I.Call → Prop
  admits : Bool → (request : I.Call) → I.Answer request → Prop
  alike : (request : I.Call) → I.Answer request → I.Answer request → Prop

def Boundary.sum {I J : Interface} (b : Boundary I) (b' : Boundary J) : Boundary (I.sum J) where
  allowed side
    | .inl request => b.allowed side request
    | .inr request => b'.allowed side request
  admits side
    | .inl request => b.admits side request
    | .inr request => b'.admits side request
  alike
    | .inl request => b.alike request
    | .inr request => b'.alike request

-- The answers that one program gets from its own surroundings, by the number of
-- the call: what the clock reads for it, what it draws, what becomes of what it
-- sends.
abbrev Surroundings (I : Interface) := Nat → (request : I.Call) → I.Answer request

-- What is left to ask once the surroundings have answered.
def Boundary.beyond {I : Interface} (b : Boundary I) (external : I.Call → Bool) : Boundary I :=
  { b with allowed := fun side request => b.allowed side request ∧ external request = false }

variable {I J : Interface} {ε ε' α β σ ι : Type} {b : Boundary I} {b' : Boundary J} {side : Bool}

namespace Program

-- As long as it is answered as its side is, the program asks what its side may
-- ask, and stops with a value that satisfies `post`. On the observer's side,
-- answers that are alike make no difference to it.
inductive Confined (b : Boundary I) (side : Bool) (post : α → Prop) : Program I α → Prop
  | done {value : α} (h : post value) : Confined b side post (.done value)
  | call {request : I.Call} {next : I.Answer request → Program I α}
      (hallowed : b.allowed side request)
      (hblind : side = true →
        ∀ answer answer', b.alike request answer answer' → next answer = next answer')
      (hnext : ∀ answer, b.admits side request answer → Confined b side post (next answer)) :
      Confined b side post (.call request next)

-- The program in surroundings of its own.
def surrounded (external : I.Call → Bool) (given : Surroundings I) :
    Nat → Program I α → Program I α
  | _, .done value => .done value
  | n, .call request next =>
      if external request then
        (next (given n request)).surrounded external given (n + 1)
      else
        .call request fun answer => (next answer).surrounded external given (n + 1)

variable {post post' : α → Prop}

theorem Confined.mono {p : Program I α} (h : p.Confined b side post)
    (himp : ∀ value, post value → post' value) : p.Confined b side post' := by
  induction h with
  | done h => exact .done (himp _ h)
  | call hallowed hblind _ ih => exact .call hallowed hblind ih

theorem Confined.bind {p : Program I β} {f : β → Program I α} {middle : β → Prop}
    (hp : p.Confined b side middle) (hf : ∀ value, middle value → (f value).Confined b side post) :
    (p >>= f).Confined b side post := by
  induction hp with
  | done h => exact hf _ h
  | call hallowed hblind _ ih =>
      refine .call hallowed (fun hside answer answer' halike => ?_) ih
      exact congrArg (Program.bind · f) (hblind hside answer answer' halike)

theorem confined_call {request : I.Call} (hallowed : b.allowed side request)
    (halike : side = true → ∀ answer answer', b.alike request answer answer' → answer = answer') :
    (Program.call request .done).Confined b side (b.admits side request) :=
  .call hallowed (fun hside answer answer' h => congrArg Program.done (halike hside answer answer' h))
    fun _ hadmits => .done hadmits

theorem Confined.inl {p : Program I α} (h : p.Confined b side post) :
    p.inl.Confined (b.sum b') side post := by
  induction h with
  | done h => exact .done h
  | call hallowed hblind _ ih =>
      refine .call hallowed (fun hside answer answer' halike => ?_) ih
      exact congrArg Program.inl (hblind hside answer answer' halike)

theorem Confined.inr {p : Program J α} (h : p.Confined b' side post) :
    p.inr.Confined (b.sum b') side post := by
  induction h with
  | done h => exact .done h
  | call hallowed hblind _ ih =>
      refine .call hallowed (fun hside answer answer' halike => ?_) ih
      exact congrArg Program.inr (hblind hside answer answer' halike)

theorem Confined.surrounded {external : I.Call → Bool} {given : Surroundings I}
    (hgiven : ∀ n request, external request = true → b.admits side request (given n request))
    {p : Program I α} (h : p.Confined b side post) (n : Nat) :
    (p.surrounded external given n).Confined (b.beyond external) side post := by
  induction h generalizing n with
  | done h => exact .done h
  | @call request next hallowed hblind _ ih =>
      simp only [Program.surrounded]
      by_cases hexternal : external request = true
      · rw [if_pos hexternal]
        exact ih _ (hgiven n request hexternal) (n + 1)
      · rw [if_neg hexternal]
        refine .call ⟨hallowed, Bool.eq_false_iff.mpr hexternal⟩
          (fun hside answer answer' halike => ?_) fun answer hadmits => ih answer hadmits (n + 1)
        exact congrArg (Program.surrounded external given (n + 1))
          (hblind hside answer answer' halike)

theorem Confined.of_call {request : I.Call} {next : I.Answer request → Program I α}
    (h : (Program.call request next).Confined b side post) :
    b.allowed side request ∧
      (side = true → ∀ answer answer', b.alike request answer answer' → next answer = next answer') ∧
      ∀ answer, b.admits side request answer → (next answer).Confined b side post := by
  cases h with
  | call hallowed hblind hnext => exact ⟨hallowed, hblind, hnext⟩

end Program

-- The same of a program that may stop with an error.
def Fallible.Confined (b : Boundary I) (side : Bool) (post : α → Prop) (x : Fallible I ε α) : Prop :=
  x.run.Confined b side fun result => ∀ value, result = .ok value → post value

namespace Fallible

variable {post : α → Prop} {middle : β → Prop}

theorem Confined.bind {x : Fallible I ε β} {f : β → Fallible I ε α} (hx : Confined b side middle x)
    (hf : ∀ value, middle value → Confined b side post (f value)) :
    Confined b side post (x >>= f) := by
  unfold Confined
  rw [ExceptT.run_bind]
  refine Program.Confined.bind hx fun result hresult => ?_
  cases result with
  | error e =>
      refine .done fun value heq => ?_
      cases heq
  | ok value => exact hf value (hresult value rfl)

theorem confined_pure {value : α} (h : post value) :
    Confined b side post (pure value : Fallible I ε α) := by
  refine .done fun later heq => ?_
  cases heq
  exact h

theorem confined_throw (e : ε) : Confined b side post (throw e : Fallible I ε α) := by
  refine .done fun later heq => ?_
  cases heq

theorem confined_lift {p : Program I α} (h : p.Confined b side post) :
    Confined b side post (liftM p : Fallible I ε α) := by
  refine Program.Confined.bind h fun value hvalue => .done fun later heq => ?_
  cases heq
  exact hvalue

theorem confined_orFail {wrap : ε' → ε} {p : Program I (Except ε' α)}
    (h : p.Confined b side fun result => ∀ value, result = .ok value → post value) :
    Confined b side post (orFail wrap p) := by
  refine Program.Confined.bind h fun result hresult => ?_
  cases result with
  | error e => exact confined_throw (wrap e)
  | ok value => exact confined_pure (hresult value rfl)

theorem confined_attempt {wrap : ε' → ε} {p : Program I (Except ε' α)} {post : Except ε' α → Prop}
    (h : p.Confined b side post) : Confined b side (fun _ => True) (orFail wrap p) :=
  confined_orFail (h.mono fun _ _ _ _ => trivial)

-- The result as a value, whatever is made of it.
theorem Confined.outcome {x : Fallible I ε α} (h : Confined b side post x) (f : Except ε α → β) :
    (x.run >>= fun result => pure (f result)).Confined b side fun _ => True :=
  Program.Confined.bind h fun _ _ => .done trivial

end Fallible

-- Two systems that an observer cannot tell apart, call by call: one that the
-- observer's side makes in both keeps them so, and so does one that the other
-- side makes in either.
structure Unwinding (b : Boundary I) (guard : σ → Prop) (related : σ → σ → Prop)
    (handler handler' : Handler I σ) : Prop where
  both : ∀ request s s', b.allowed true request → guard s → related s s' →
    b.admits true request (handler request s).1 ∧
      b.alike request (handler request s).1 (handler' request s').1 ∧
        related (handler request s).2 (handler' request s').2
  left : ∀ request s s', b.allowed false request → related s s' →
    b.admits false request (handler request s).1 ∧ related (handler request s).2 s'
  right : ∀ request s s', b.allowed false request → related s s' →
    b.admits false request (handler' request s').1 ∧ related s (handler' request s').2

-- The threads of the observer's side are at the same point in both.
structure Separated (b : Boundary I) (mine : ι → Bool) (related : σ → σ → Prop)
    (c c' : Config I σ ι α) : Prop where
  store : related c.store c'.store
  same : ∀ i, mine i = true → (c.threads i).rest = (c'.threads i).rest
  confined : ∀ i, (c.threads i).rest.Confined b (mine i) fun _ => True
  confined' : ∀ i, (c'.threads i).rest.Confined b (mine i) fun _ => True

namespace Separated

variable [DecidableEq ι] {mine : ι → Bool} {guard : σ → Prop} {related : σ → σ → Prop}
  {handler handler' : Handler I σ} {c c' : Config I σ ι α}

theorem step_both (hu : Unwinding b guard related handler handler') (h : Separated b mine related c c')
    {i : ι} (hi : mine i = true) (hguard : (c.threads i).rest.Asks fun _ => guard c.store) :
    Separated b mine related (c.step handler i) (c'.step handler' i) := by
  have hsame := h.same i hi
  cases hrest : (c.threads i).rest with
  | done value =>
      rw [hrest] at hsame
      rwa [Config.step_done handler c i value hrest, Config.step_done handler' c' i value hsame.symm]
  | call request next =>
      rw [hrest] at hsame hguard
      rw [Config.step_call handler c i request next hrest,
        Config.step_call handler' c' i request next hsame.symm]
      have hconfined := h.confined i
      rw [hrest, hi] at hconfined
      obtain ⟨hallowed, hblind, hlater⟩ := hconfined.of_call
      obtain ⟨hadmits, halike, hstore⟩ := hu.both request _ _ hallowed hguard h.store
      have hnext := hblind rfl _ _ halike
      refine ⟨hstore, fun j hj => ?_, fun j => ?_, fun j => ?_⟩
      · by_cases hji : j = i
        · subst hji
          simpa using hnext
        · rw [Config.advance_of_ne handler c i j hji, Config.advance_of_ne handler' c' i j hji]
          exact h.same j hj
      · by_cases hji : j = i
        · subst hji
          rw [hi]
          simpa using hlater _ hadmits
        · rw [Config.advance_of_ne handler c i j hji]
          exact h.confined j
      · by_cases hji : j = i
        · subst hji
          rw [hi, Config.advance_self, ← hnext]
          exact hlater _ hadmits
        · rw [Config.advance_of_ne handler' c' i j hji]
          exact h.confined' j

theorem step_left (hu : Unwinding b guard related handler handler') (h : Separated b mine related c c')
    {i : ι} (hi : mine i = false) : Separated b mine related (c.step handler i) c' := by
  cases hrest : (c.threads i).rest with
  | done value => rwa [Config.step_done handler c i value hrest]
  | call request next =>
      rw [Config.step_call handler c i request next hrest]
      have hconfined := h.confined i
      rw [hrest, hi] at hconfined
      obtain ⟨hadmits, hstore⟩ := hu.left request _ _ hconfined.of_call.1 h.store
      refine ⟨hstore, fun j hj => ?_, fun j => ?_, h.confined'⟩
      · have hji : j ≠ i := by
          rintro rfl
          rw [hi] at hj
          cases hj
        rw [Config.advance_of_ne handler c i j hji]
        exact h.same j hj
      · by_cases hji : j = i
        · subst hji
          rw [hi]
          simpa using hconfined.of_call.2.2 _ hadmits
        · rw [Config.advance_of_ne handler c i j hji]
          exact h.confined j

theorem step_right (hu : Unwinding b guard related handler handler')
    (h : Separated b mine related c c') {i : ι} (hi : mine i = false) :
    Separated b mine related c (c'.step handler' i) := by
  cases hrest : (c'.threads i).rest with
  | done value => rwa [Config.step_done handler' c' i value hrest]
  | call request next =>
      rw [Config.step_call handler' c' i request next hrest]
      have hconfined := h.confined' i
      rw [hrest, hi] at hconfined
      obtain ⟨hadmits, hstore⟩ := hu.right request _ _ hconfined.of_call.1 h.store
      refine ⟨hstore, fun j hj => ?_, h.confined, fun j => ?_⟩
      · have hji : j ≠ i := by
          rintro rfl
          rw [hi] at hj
          cases hj
        rw [Config.advance_of_ne handler' c' i j hji]
        exact h.same j hj
      · by_cases hji : j = i
        · subst hji
          rw [hi]
          simpa using hconfined.of_call.2.2 _ hadmits
        · rw [Config.advance_of_ne handler' c' i j hji]
          exact h.confined' j

theorem run_right (hu : Unwinding b guard related handler handler')
    (h : Separated b mine related c c') {schedule : List ι}
    (hschedule : ∀ i ∈ schedule, ¬ mine i = true) :
    Separated b mine related c (c'.run handler' schedule) := by
  induction schedule generalizing c' with
  | nil => exact h
  | cons i rest ih =>
      have hi : mine i = false := Bool.eq_false_iff.mpr (hschedule i List.mem_cons_self)
      exact ih (h.step_right hu hi) fun j hj => hschedule j (List.mem_cons_of_mem i hj)

-- Two runs in which the observer's side takes the same turns.
theorem run (hu : Unwinding b guard related handler handler') (h : Separated b mine related c c')
    {schedule schedule' : List ι} (hsame : schedule.filter mine = schedule'.filter mine)
    (hguard : c.Respects handler (fun _ s _ _ => guard s) schedule) :
    Separated b mine related (c.run handler schedule) (c'.run handler' schedule') := by
  induction schedule generalizing c c' schedule' with
  | nil =>
      refine run_right hu h fun i hi hmine => ?_
      exact List.filter_eq_nil_iff.mp hsame.symm i hi hmine
  | cons i rest ih =>
      by_cases hi : mine i = true
      · rw [List.filter_cons_of_pos hi] at hsame
        obtain ⟨others, later, rfl, hothers, -, hlater⟩ := List.filter_eq_cons_iff.mp hsame.symm
        rw [Config.run_append]
        exact ih ((h.run_right hu hothers).step_both hu hi hguard.1) hlater.symm hguard.2
      · rw [List.filter_cons_of_neg hi] at hsame
        exact ih (h.step_left hu (Bool.eq_false_iff.mpr hi)) hsame hguard.2

end Separated

end AgentBoilerplate.Effects
