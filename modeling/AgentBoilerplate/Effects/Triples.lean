import AgentBoilerplate.Effects.Program

namespace AgentBoilerplate.Effects

-- What holds of the calls made so far.
abbrev Assertion (I : Interface) := List (Event I) → Prop

variable {I : Interface} {ε α β : Type}

-- How code that may raise leaves: with a value, or with an exception.
def Leaving (Q : α → Assertion I) (E : ε → Assertion I) (events : List (Event I)) :
    Except ε α → Prop
  | .ok value => Q value events
  | .error e => E e events

-- Started where `P` holds, and whatever the answers, the code returns a value
-- with `Q`, or raises with `E`.
def Fallible.Triple (P : Assertion I) (x : Fallible I ε α) (Q : α → Assertion I)
    (E : ε → Assertion I) : Prop :=
  ∀ past, P past → x.run.Ends (Leaving Q E) past

namespace Fallible

variable {P P' : Assertion I} {Q Q' : α → Assertion I} {R : β → Assertion I} {E E' : ε → Assertion I}

theorem Triple.mono {x : Fallible I ε α} (h : Triple P x Q E) (hbefore : ∀ past, P' past → P past)
    (hafter : ∀ value events, Q value events → Q' value events)
    (hraised : ∀ e events, E e events → E' e events) : Triple P' x Q' E' := by
  intro past hpast
  refine (h past (hbefore past hpast)).mono fun events result hresult => ?_
  cases result with
  | error e => exact hraised e events hresult
  | ok value => exact hafter value events hresult

theorem Triple.before {x : Fallible I ε α} (h : Triple P x Q E) (hbefore : ∀ past, P' past → P past) :
    Triple P' x Q E :=
  h.mono hbefore (fun _ _ hvalue => hvalue) fun _ _ hraised => hraised

theorem Triple.after {x : Fallible I ε α} (h : Triple P x Q E)
    (hafter : ∀ value events, Q value events → Q' value events) : Triple P x Q' E :=
  h.mono (fun _ hpast => hpast) hafter fun _ _ hraised => hraised

theorem triple_pure {value : α} (h : ∀ past, P past → Q value past) :
    Triple P (pure value : Fallible I ε α) Q E := h

theorem triple_orRaise {x : Except ε α} (hok : ∀ value, x = .ok value → ∀ past, P past → Q value past)
    (herror : ∀ e, x = .error e → ∀ past, P past → E e past) :
    Triple P (orRaise x : Fallible I ε α) Q E := by
  cases x with
  | error e => exact herror e rfl
  | ok value => exact hok value rfl

theorem triple_call {request : I.Call} {result : I.Answer request → Except ε α}
    (h : ∀ past answer, P past → Leaving Q E (past ++ [⟨request, answer⟩]) (result answer)) :
    Triple P (raising (.call request fun answer => .done (result answer))) Q E :=
  fun past hpast answer => h past answer hpast

theorem triple_lift {p : Program I α} (h : ∀ past, P past → p.Ends (fun events value => Q value events) past) :
    Triple P (liftM p : Fallible I ε α) Q E := by
  intro past hpast
  refine (Program.ends_bind p _ _ past).mpr ?_
  exact (h past hpast).mono fun events value hvalue => hvalue

-- What the first part leaves is where the second part starts.
theorem Triple.bind {x : Fallible I ε β} {f : β → Fallible I ε α} (hx : Triple P x R E)
    (hf : ∀ value, Triple (R value) (f value) Q E) : Triple P (x >>= f) Q E := by
  intro past hpast
  rw [ExceptT.run_bind, Program.ends_bind]
  refine (hx past hpast).mono fun events result hresult => ?_
  cases result with
  | error e => exact hresult
  | ok value => exact hf value events hresult

-- What later calls do not change holds to the end.
theorem Triple.frame {x : Fallible I ε α} (h : Triple P x Q E) {S : Assertion I}
    (hstable : ∀ past later, past <+: later → S past → S later) :
    Triple (fun past => P past ∧ S past) x (fun value events => Q value events ∧ S events) E := by
  intro past hpast
  refine ((h past hpast.1).and (Program.ends_extends _ past)).mono fun events result hresult => ?_
  cases result with
  | error e => exact hresult.1
  | ok value => exact ⟨hresult.1, hstable past events hresult.2 hpast.2⟩

theorem triple_ite {c : Prop} [Decidable c] {x y : Fallible I ε α} (hx : c → Triple P x Q E)
    (hy : ¬ c → Triple P y Q E) : Triple P (if c then x else y) Q E := by
  by_cases hc : c
  · rw [if_pos hc]
    exact hx hc
  · rw [if_neg hc]
    exact hy hc

end Fallible

end AgentBoilerplate.Effects
