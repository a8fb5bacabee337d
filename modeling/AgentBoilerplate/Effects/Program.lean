import Mathlib.Logic.Function.Basic
import Mathlib.Data.List.Basic
import Mathlib.Tactic.Common

namespace AgentBoilerplate.Effects

-- What a program may ask of its surroundings, and the type of each answer.
structure Interface where
  Call : Type
  Answer : Call → Type

structure Event (I : Interface) where
  call : I.Call
  answer : I.Answer call

-- A program is the tree of the calls it makes. Each call is one atomic step;
-- everything between two calls is pure.
inductive Program (I : Interface) (α : Type) where
  | done (value : α)
  | call (request : I.Call) (next : I.Answer request → Program I α)

variable {I : Interface} {α β γ σ : Type}

namespace Program

def bind : Program I α → (α → Program I β) → Program I β
  | .done value, f => f value
  | .call request next, f => .call request fun answer => (next answer).bind f

instance : Monad (Program I) where
  pure := .done
  bind := bind

@[simp] theorem pure_eq (value : α) : (pure value : Program I α) = .done value := rfl

@[simp] theorem done_bind (value : α) (f : α → Program I β) :
    (Program.done value >>= f) = f value := rfl

@[simp] theorem call_bind (request : I.Call) (next : I.Answer request → Program I α)
    (f : α → Program I β) :
    (Program.call request next >>= f) = .call request fun answer => next answer >>= f := rfl

theorem bind_done (p : Program I α) : (p >>= Program.done) = p := by
  induction p with
  | done value => rfl
  | call request next ih =>
      rw [call_bind]
      exact congrArg (Program.call request) (funext ih)

theorem bind_assoc (p : Program I α) (f : α → Program I β) (g : β → Program I γ) :
    (p >>= f) >>= g = p >>= fun value => f value >>= g := by
  induction p with
  | done value => rfl
  | call request next ih =>
      simp only [call_bind]
      exact congrArg (Program.call request) (funext ih)

instance : LawfulMonad (Program I) := LawfulMonad.mk' _ bind_done (fun _ _ => rfl) bind_assoc

end Program

-- A program that may stop early with an error.
abbrev Fallible (I : Interface) (ε : Type) := ExceptT ε (Program I)

-- Runs a program that answers a result, and stops with its error, wrapped.
def orFail {ε ε' : Type} (wrap : ε' → ε) (p : Program I (Except ε' α)) : Fallible I ε α :=
  ExceptT.mk (p >>= fun
    | .ok value => .done (.ok value)
    | .error e => .done (.error (wrap e)))

-- A program that may raise, and a pure result, as they are.
def raising {ε : Type} (p : Program I (Except ε α)) : Fallible I ε α := ExceptT.mk p

def orRaise {ε : Type} (x : Except ε α) : Fallible I ε α := ExceptT.mk (.done x)

namespace Fallible

variable {ε ε' : Type}

@[simp] theorem run_raising (p : Program I (Except ε α)) : (raising p).run = p := rfl

@[simp] theorem run_raising_bind (p : Program I (Except ε α)) (f : α → Fallible I ε β) :
    (raising p >>= f).run = p >>= fun
      | .ok value => (f value).run
      | .error e => .done (.error e) := by
  rw [ExceptT.run_bind]
  congr 1
  funext answer
  cases answer <;> rfl

@[simp] theorem run_orRaise (x : Except ε α) : (orRaise x : Fallible I ε α).run = .done x := rfl

@[simp] theorem run_orRaise_bind (x : Except ε α) (f : α → Fallible I ε β) :
    (orRaise x >>= f).run = match x with
      | .ok value => (f value).run
      | .error e => .done (.error e) := by
  cases x <;> rfl

@[simp] theorem orRaise_ok_bind (value : α) (f : α → Fallible I ε β) :
    (orRaise (.ok value) >>= f) = f value := rfl

@[simp] theorem orRaise_error_bind (e : ε) (f : α → Fallible I ε β) :
    (orRaise (.error e) >>= f) = throw e := rfl

@[simp] theorem run_orFail (wrap : ε' → ε) (p : Program I (Except ε' α)) :
    (orFail wrap p).run = p >>= fun
      | .ok value => .done (.ok value)
      | .error e => .done (.error (wrap e)) := rfl

@[simp] theorem run_orFail_bind (wrap : ε' → ε) (p : Program I (Except ε' α))
    (f : α → Fallible I ε β) :
    (orFail wrap p >>= f).run = p >>= fun
      | .ok value => (f value).run
      | .error e => .done (.error (wrap e)) := by
  simp only [orFail, ExceptT.run_bind, ExceptT.run_mk, bind_assoc]
  congr 1
  funext answer
  cases answer <;> rfl

@[simp] theorem run_lift_bind (p : Program I α) (f : α → Fallible I ε β) :
    ((liftM p : Fallible I ε α) >>= f).run = p >>= fun value => (f value).run :=
  ExceptT.run_bind_lift p f

@[simp] theorem run_throw (e : ε) : (throw e : Fallible I ε α).run = .done (.error e) := rfl

@[simp] theorem run_throw_bind (e : ε) (f : α → Fallible I ε β) :
    ((throw e : Fallible I ε α) >>= f).run = .done (.error e) := rfl

@[simp] theorem run_pure (value : α) : (pure value : Fallible I ε α).run = .done (.ok value) := rfl

end Fallible

-- A handler answers each call from a state and says how the state changes.
abbrev Handler (I : Interface) (σ : Type) := (request : I.Call) → σ → I.Answer request × σ

def Program.run (handler : Handler I σ) : Program I α → σ → α × σ
  | .done value, s => (value, s)
  | .call request next, s =>
      (next (handler request s).1).run handler (handler request s).2

namespace Program

@[simp] theorem run_done (handler : Handler I σ) (value : α) (s : σ) :
    (Program.done value).run handler s = (value, s) := rfl

@[simp] theorem run_call (handler : Handler I σ) (request : I.Call)
    (next : I.Answer request → Program I α) (s : σ) :
    (Program.call request next).run handler s =
      (next (handler request s).1).run handler (handler request s).2 := rfl

theorem run_bind (handler : Handler I σ) (p : Program I α) (f : α → Program I β) (s : σ) :
    (p >>= f).run handler s =
      (f (p.run handler s).1).run handler (p.run handler s).2 := by
  induction p generalizing s with
  | done value => rfl
  | call request next ih => exact ih _ _

-- What every answer keeps, a run keeps.
theorem run_keeps {handler : Handler I σ} {inv : σ → Prop}
    (hstep : ∀ request s, inv s → inv (handler request s).2) (p : Program I α) {s : σ}
    (h : inv s) : inv (p.run handler s).2 := by
  induction p generalizing s with
  | done value => exact h
  | call request next ih => exact ih _ (hstep request s h)

end Program

-- `p.Yields handler post s`: run from `s`, the program stops with a value and a
-- state that satisfy `post`.
def Program.Yields (handler : Handler I σ) (post : α → σ → Prop) (p : Program I α) (s : σ) : Prop :=
  post (p.run handler s).1 (p.run handler s).2

namespace Program

variable {handler : Handler I σ}

theorem yields_call (post : α → σ → Prop) (request : I.Call)
    (next : I.Answer request → Program I α) (s : σ) :
    (Program.call request next).Yields handler post s ↔
      (next (handler request s).1).Yields handler post (handler request s).2 := Iff.rfl

theorem yields_bind (post : β → σ → Prop) (p : Program I α) (f : α → Program I β) (s : σ) :
    (p >>= f).Yields handler post s ↔
      p.Yields handler (fun value later => (f value).Yields handler post later) s := by
  unfold Yields
  rw [run_bind]

theorem Yields.mono {post post' : α → σ → Prop} {p : Program I α} {s : σ}
    (h : p.Yields handler post s) (himp : ∀ value later, post value later → post' value later) :
    p.Yields handler post' s :=
  himp _ _ h

end Program

-- An oracle answers from the calls made so far, so it stands for any
-- surroundings whose behaviour depends on nothing else.
abbrev Oracle (I : Interface) := List (Event I) → (request : I.Call) → I.Answer request

def Oracle.handler (oracle : Oracle I) : Handler I (List (Event I)) :=
  fun request past => (oracle past request, past ++ [⟨request, oracle past request⟩])

-- A handler whose answers depend on the calls so far, with the log of them.
def Handler.logged (handler : List (Event I) → Handler I σ) : Handler I (σ × List (Event I)) :=
  fun request s =>
    ((handler s.2 request s.1).1,
      (handler s.2 request s.1).2, s.2 ++ [⟨request, (handler s.2 request s.1).1⟩])

-- The result of a program against an oracle, and the calls it made in order.
def Program.execute (oracle : Oracle I) (p : Program I α) : α × List (Event I) :=
  p.run oracle.handler []

-- `p.Ends past post`: whatever the answers, a run of `p` that follows the
-- events `past` stops with a value and a list of events that satisfy `post`.
def Program.Ends (post : List (Event I) → α → Prop) : List (Event I) → Program I α → Prop
  | past, .done value => post past value
  | past, .call request next => ∀ answer, (next answer).Ends post (past ++ [⟨request, answer⟩])

namespace Program

@[simp] theorem ends_done (post : List (Event I) → α → Prop) (past : List (Event I)) (value : α) :
    (Program.done value).Ends post past ↔ post past value := Iff.rfl

@[simp] theorem ends_call (post : List (Event I) → α → Prop) (past : List (Event I))
    (request : I.Call) (next : I.Answer request → Program I α) :
    (Program.call request next).Ends post past ↔
      ∀ answer, (next answer).Ends post (past ++ [⟨request, answer⟩]) := Iff.rfl

theorem Ends.mono {p : Program I α} {post post' : List (Event I) → α → Prop}
    {past : List (Event I)} (h : p.Ends post past)
    (himp : ∀ events value, post events value → post' events value) : p.Ends post' past := by
  induction p generalizing past with
  | done value => exact himp _ _ h
  | call request next ih => exact fun answer => ih answer (h answer)

theorem Ends.and {p : Program I α} {post post' : List (Event I) → α → Prop}
    {past : List (Event I)} (h : p.Ends post past) (h' : p.Ends post' past) :
    p.Ends (fun events value => post events value ∧ post' events value) past := by
  induction p generalizing past with
  | done value => exact ⟨h, h'⟩
  | call request next ih => exact fun answer => ih answer (h answer) (h' answer)

theorem ends_bind (p : Program I α) (f : α → Program I β)
    (post : List (Event I) → β → Prop) (past : List (Event I)) :
    (p >>= f).Ends post past ↔ p.Ends (fun events value => (f value).Ends post events) past := by
  induction p generalizing past with
  | done value => rfl
  | call request next ih => exact forall_congr' fun answer => ih answer _

-- A run only adds events to those it follows.
theorem ends_extends (p : Program I α) (past : List (Event I)) :
    p.Ends (fun later _ => past <+: later) past := by
  induction p generalizing past with
  | done value => exact List.prefix_refl past
  | call request next ih =>
      exact fun answer => (ih answer _).mono fun later _ h => (List.prefix_append past _).trans h

theorem Ends.run_oracle {p : Program I α} {post : List (Event I) → α → Prop}
    {past : List (Event I)} (h : p.Ends post past) (oracle : Oracle I) :
    post (p.run oracle.handler past).2 (p.run oracle.handler past).1 := by
  induction p generalizing past with
  | done value => exact h
  | call request next ih => exact ih _ (h _)

theorem Ends.logged {p : Program I α} {post : List (Event I) → α → Prop} {past : List (Event I)}
    (h : p.Ends post past) (handler : List (Event I) → Handler I σ) (s : σ) :
    post (p.run (Handler.logged handler) (s, past)).2.2
      (p.run (Handler.logged handler) (s, past)).1 := by
  induction p generalizing s past with
  | done value => exact h
  | call request next ih => exact ih _ (h _) _

-- The events of a run are the oracle's answers.
theorem execute_events {answers : Event I → Prop} {oracle : Oracle I}
    (h : ∀ past request, answers ⟨request, oracle past request⟩) (p : Program I α) :
    ∀ event ∈ (p.execute oracle).2, answers event := by
  have hstep : ∀ (request : I.Call) (past : List (Event I)), (∀ event ∈ past, answers event) →
      ∀ event ∈ (oracle.handler request past).2, answers event := by
    intro request past hpast event hevent
    rcases List.mem_append.mp hevent with hold | hnew
    · exact hpast event hold
    · rw [List.mem_singleton.mp hnew]
      exact h past request
  exact run_keeps hstep p fun event hevent => by cases hevent

theorem Ends.execute {p : Program I α} {post : List (Event I) → α → Prop} (h : p.Ends post [])
    (oracle : Oracle I) : post (p.execute oracle).2 (p.execute oracle).1 :=
  h.run_oracle oracle

end Program

end AgentBoilerplate.Effects
