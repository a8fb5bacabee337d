import AgentBoilerplate.Effects.Program
import Mathlib.Data.List.Forall2

namespace AgentBoilerplate.Effects

-- How a program is to use its surroundings: the calls that it does not make,
-- those whose answers it does not look at, and the answers that end it.
structure Discipline (I : Interface) (ε : Type) where
  barred : I.Call → Prop
  ignored : I.Call → Prop
  raised : Event I → Option ε

variable {I : Interface} {ε α β : Type} {d d' : Discipline I ε}

-- An answer that raises ends the program at once, with a value that says so.
def Program.Keeps (d : Discipline I ε) (failed : ε → α → Prop) : Program I α → Prop
  | .done _ => True
  | .call request next => ¬ d.barred request ∧
      (d.ignored request → ∀ answer answer', next answer = next answer') ∧
      (∀ answer e, d.raised ⟨request, answer⟩ = some e →
        ∃ value, next answer = .done value ∧ failed e value) ∧
      ∀ answer, (next answer).Keeps d failed

-- A discipline that asks for less.
structure Discipline.Allows (d d' : Discipline I ε) : Prop where
  barred : ∀ request, d'.barred request → d.barred request
  ignored : ∀ request, d'.ignored request → d.ignored request
  raised : ∀ event e, d'.raised event = some e → d.raised event = some e

namespace Program

theorem Keeps.mono {failed : ε → α → Prop} (hd : d.Allows d') {p : Program I α}
    (h : p.Keeps d failed) : p.Keeps d' failed := by
  induction p with
  | done value => trivial
  | call request next ih =>
      obtain ⟨hbarred, hignored, hraised, hnext⟩ := h
      refine ⟨fun hnot => hbarred (hd.barred _ hnot), fun hignore => hignored (hd.ignored _ hignore),
        fun answer e hraise => hraised answer e (hd.raised _ _ hraise), fun answer => ?_⟩
      exact ih answer (hnext answer)

-- Where nothing is raised, it does not matter how to fail.
theorem Keeps.unraised (hd : ∀ event, d.raised event = none) {failed failed' : ε → α → Prop}
    {p : Program I α} (h : p.Keeps d failed) : p.Keeps d failed' := by
  induction p with
  | done value => trivial
  | call request next ih =>
      obtain ⟨hbarred, hignored, -, hnext⟩ := h
      refine ⟨hbarred, hignored, fun answer e hraise => ?_, fun answer => ih answer (hnext answer)⟩
      rw [hd] at hraise
      cases hraise

theorem Keeps.bind {failed : ε → α → Prop} {failed' : ε → β → Prop} {p : Program I α}
    {f : α → Program I β} (hp : p.Keeps d failed) (hf : ∀ value, (f value).Keeps d failed')
    (hfailed : ∀ e value, failed e value → ∃ last, f value = .done last ∧ failed' e last) :
    (p >>= f).Keeps d failed' := by
  induction p with
  | done value => exact hf value
  | call request next ih =>
      obtain ⟨hbarred, hignored, hraised, hnext⟩ := hp
      refine ⟨hbarred, fun hignore answer answer' => ?_, fun answer e hraise => ?_, fun answer => ?_⟩
      · exact congrArg (Program.bind · f) (hignored hignore answer answer')
      · obtain ⟨value, hvalue, hfail⟩ := hraised answer e hraise
        obtain ⟨last, hlast, hfail⟩ := hfailed e value hfail
        have hbound := congrArg (Program.bind · f) hvalue
        exact ⟨last, hbound.trans hlast, hfail⟩
      · exact ih answer (hnext answer)

-- A run makes no barred call, and an answer that raised is what it ends with.
theorem Keeps.ends {failed : ε → α → Prop} {p : Program I α} (h : p.Keeps d failed)
    (past : List (Event I)) :
    p.Ends (fun events value => ∃ new, events = past ++ new ∧
      (∀ event ∈ new, ¬ d.barred event.call) ∧
      ∀ event ∈ new, ∀ e, d.raised event = some e → failed e value) past := by
  induction p generalizing past with
  | done value =>
      refine ⟨[], (List.append_nil past).symm, ?_, ?_⟩
      · intro event hevent
        cases hevent
      · intro event hevent
        cases hevent
  | call request next ih =>
      obtain ⟨hbarred, -, hraised, hnext⟩ := h
      intro answer
      have hfirst : ∀ e, d.raised ⟨request, answer⟩ = some e → ∃ value,
          next answer = .done value ∧ failed e value := hraised answer
      have hrest := ih answer (hnext answer) (past ++ [⟨request, answer⟩])
      have hboth : (next answer).Ends (fun _ value => ∀ e, d.raised ⟨request, answer⟩ = some e →
          failed e value) (past ++ [⟨request, answer⟩]) := by
        cases hraise : d.raised ⟨request, answer⟩ with
        | none =>
            refine (ends_extends (next answer) _).mono fun events value _ e he => ?_
            cases he
        | some e =>
            obtain ⟨value, hvalue, hfailed⟩ := hfirst e hraise
            rw [hvalue]
            intro e' he
            cases he
            exact hfailed
      refine (hrest.and hboth).mono fun events value hvalue => ?_
      obtain ⟨⟨new, hevents, hnew, hlater⟩, hfailed⟩ := hvalue
      refine ⟨⟨request, answer⟩ :: new, ?_, ?_, ?_⟩
      · rw [hevents, List.append_assoc]
        rfl
      · exact List.forall_mem_cons.mpr ⟨hbarred, hnew⟩
      · exact List.forall_mem_cons.mpr ⟨hfailed, hlater⟩

end Program

-- Events that are the same but for an answer that is not looked at.
def Event.Alike (ignored : I.Call → Prop) (event event' : Event I) : Prop :=
  event = event' ∨ event.call = event'.call ∧ ignored event.call

-- Surroundings that answer alike, after calls that went alike.
def Oracle.Alike (ignored : I.Call → Prop) (oracle oracle' : Oracle I) : Prop :=
  ∀ past past', List.Forall₂ (Event.Alike ignored) past past' →
    ∀ request, ¬ ignored request → oracle past request = oracle' past' request

-- They make no difference to the program.
theorem Program.Keeps.run_alike {failed : ε → α → Prop} {p : Program I α} (h : p.Keeps d failed)
    {oracle oracle' : Oracle I} (horacle : oracle.Alike d.ignored oracle') {past past' : List (Event I)}
    (hpast : List.Forall₂ (Event.Alike d.ignored) past past') :
    (p.run oracle.handler past).1 = (p.run oracle'.handler past').1 ∧
      List.Forall₂ (Event.Alike d.ignored) (p.run oracle.handler past).2
        (p.run oracle'.handler past').2 := by
  induction p generalizing past past' with
  | done value => exact ⟨rfl, hpast⟩
  | call request next ih =>
      obtain ⟨-, hignored, -, hnext⟩ := h
      have hsame : next (oracle past request) = next (oracle' past' request) := by
        by_cases hignore : d.ignored request
        · exact hignored hignore _ _
        · rw [horacle past past' hpast request hignore]
      have halike : Event.Alike d.ignored ⟨request, oracle past request⟩
          ⟨request, oracle' past' request⟩ := by
        by_cases hignore : d.ignored request
        · exact Or.inr ⟨rfl, hignore⟩
        · rw [horacle past past' hpast request hignore]
          exact Or.inl rfl
      have hlater : List.Forall₂ (Event.Alike d.ignored) (past ++ [⟨request, oracle past request⟩])
          (past' ++ [⟨request, oracle' past' request⟩]) :=
        List.rel_append hpast (.cons halike .nil)
      have hrest := ih (oracle past request) (hnext _) hlater
      have hrun := congrArg (fun p : Program I α =>
        p.run oracle'.handler (past' ++ [⟨request, oracle' past' request⟩])) hsame
      rw [hrun] at hrest
      exact hrest

-- The discipline of code that may raise: what it raises is what was raised.
def Fallible.Keeps (d : Discipline I ε) (x : Fallible I ε α) : Prop :=
  x.run.Keeps d fun e result => result = .error e

namespace Fallible

theorem keeps_pure (d : Discipline I ε) (value : α) : Keeps d (pure value : Fallible I ε α) := trivial

theorem keeps_throw (d : Discipline I ε) (e : ε) : Keeps d (throw e : Fallible I ε α) := trivial

theorem keeps_orRaise (d : Discipline I ε) (x : Except ε α) :
    Keeps d (orRaise x : Fallible I ε α) := trivial

theorem Keeps.bind {x : Fallible I ε α} {f : α → Fallible I ε β} (hx : Keeps d x)
    (hf : ∀ value, Keeps d (f value)) : Keeps d (x >>= f) := by
  unfold Keeps
  rw [ExceptT.run_bind]
  refine Program.Keeps.bind hx (fun result => ?_) fun e result hresult => ?_
  · cases result with
    | error e => trivial
    | ok value => exact hf value
  · rw [hresult]
    exact ⟨.error e, rfl, rfl⟩

theorem keeps_ite {c : Prop} [Decidable c] {x y : Fallible I ε α} (hx : c → Keeps d x)
    (hy : ¬ c → Keeps d y) : Keeps d (if c then x else y) := by
  by_cases hc : c
  · rw [if_pos hc]
    exact hx hc
  · rw [if_neg hc]
    exact hy hc

-- Code that raises nothing keeps it when no answer to it raises.
theorem keeps_lift {p : Program I α} (hp : p.Keeps d fun _ _ => False) :
    Keeps d (liftM p : Fallible I ε α) := by
  refine Program.Keeps.bind hp (fun value => trivial) ?_
  intro e value hfailed
  exact hfailed.elim

theorem keeps_call {request : I.Call} {result : I.Answer request → Except ε α}
    (hbarred : ¬ d.barred request)
    (hignored : d.ignored request → ∀ answer answer', result answer = result answer')
    (hraised : ∀ answer e, d.raised ⟨request, answer⟩ = some e → result answer = .error e) :
    Keeps d (raising (.call request fun answer => .done (result answer))) := by
  refine ⟨hbarred, fun hignore answer answer' => ?_, fun answer e hraise => ?_, fun _ => trivial⟩
  · exact congrArg Program.done (hignored hignore answer answer')
  · exact ⟨result answer, rfl, hraised answer e hraise⟩

theorem Keeps.mono (hd : d.Allows d') {x : Fallible I ε α} (h : Keeps d x) : Keeps d' x :=
  Program.Keeps.mono hd h

end Fallible

end AgentBoilerplate.Effects
