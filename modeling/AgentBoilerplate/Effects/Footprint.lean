import AgentBoilerplate.Effects.Interleaving

namespace AgentBoilerplate.Effects

variable {I : Interface} {ε ε' α β σ : Type} {ok : I.Call → Prop}

-- Whatever the answers, every call of the program is one of these.
def Program.Within (ok : I.Call → Prop) : Program I α → Prop
  | .done _ => True
  | .call request next => ok request ∧ ∀ answer, (next answer).Within ok

namespace Program

theorem Within.mono {ok' : I.Call → Prop} (himp : ∀ request, ok request → ok' request)
    {p : Program I α} (h : p.Within ok) : p.Within ok' := by
  induction p with
  | done value => trivial
  | call request next ih => exact ⟨himp request h.1, fun answer => ih answer (h.2 answer)⟩

theorem Within.bind {p : Program I α} {f : α → Program I β} (hp : p.Within ok)
    (hf : ∀ value, (f value).Within ok) : (p >>= f).Within ok := by
  induction p with
  | done value => exact hf value
  | call request next ih => exact ⟨hp.1, fun answer => ih answer (hp.2 answer)⟩

theorem Within.calls {p : Program I α} (h : p.Within ok) (past : List (Event I)) :
    p.Calls (fun _ request => ok request) past := by
  induction p generalizing past with
  | done value => trivial
  | call request next ih => exact ⟨h.1, fun answer => ih answer (h.2 answer) _⟩

theorem Calls.and {allowed allowed' : List (Event I) → I.Call → Prop} {p : Program I α}
    {past : List (Event I)} (h : p.Calls allowed past) (h' : p.Calls allowed' past) :
    p.Calls (fun past request => allowed past request ∧ allowed' past request) past := by
  refine Along.mono (fun past p hboth => ?_) (Along.and h h')
  cases p with
  | done value => trivial
  | call request next => exact hboth

-- What the answers to these calls keep, a run keeps.
theorem Within.run_keeps {handler : Handler I σ} {inv : σ → Prop}
    (hstep : ∀ request s, ok request → inv s → inv (handler request s).2) {p : Program I α}
    (hp : p.Within ok) {s : σ} (h : inv s) : inv (p.run handler s).2 := by
  induction p generalizing s with
  | done value => exact h
  | call request next ih => exact ih _ (hp.2 _) (hstep request s hp.1 h)

theorem within_call {request : I.Call} (h : ok request) :
    (Program.call request .done).Within ok := ⟨h, fun _ => trivial⟩

end Program

-- The same of a program that may stop with an error.
def Fallible.Within (ok : I.Call → Prop) (x : Fallible I ε α) : Prop := x.run.Within ok

namespace Fallible

theorem within_pure (value : α) : Within ok (pure value : Fallible I ε α) := trivial

theorem within_throw (e : ε) : Within ok (throw e : Fallible I ε α) := trivial

theorem Within.bind {x : Fallible I ε α} {f : α → Fallible I ε β} (hx : Within ok x)
    (hf : ∀ value, Within ok (f value)) : Within ok (x >>= f) := by
  unfold Within
  rw [ExceptT.run_bind]
  refine Program.Within.bind hx fun result => ?_
  cases result with
  | error e => trivial
  | ok value => exact hf value

theorem within_lift {p : Program I α} (hp : p.Within ok) :
    Within ok (liftM p : Fallible I ε α) := Program.Within.bind hp fun _ => trivial

theorem within_orFail {wrap : ε' → ε} {p : Program I (Except ε' α)} (hp : p.Within ok) :
    Within ok (orFail wrap p) := by
  refine Program.Within.bind hp fun answer => ?_
  cases answer <;> trivial

end Fallible

end AgentBoilerplate.Effects
