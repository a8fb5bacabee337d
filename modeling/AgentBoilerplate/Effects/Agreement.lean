import AgentBoilerplate.Effects.Program

namespace AgentBoilerplate.Effects

variable {I : Interface} {ε α α' β β' : Type}

-- Two programs that make the same calls, whatever the answers, and end with
-- related values.
inductive Program.Agree (R : α → β → Prop) : Program I α → Program I β → Prop where
  | done {a : α} {b : β} (h : R a b) : Agree R (.done a) (.done b)
  | call {request : I.Call} {next : I.Answer request → Program I α}
      {next' : I.Answer request → Program I β} (h : ∀ answer, Agree R (next answer) (next' answer)) :
      Agree R (.call request next) (.call request next')

namespace Program

variable {R : α → β → Prop} {S : α' → β' → Prop}

theorem agree_refl (p : Program I α) : p.Agree Eq p := by
  induction p with
  | done value => exact .done rfl
  | call request next ih => exact .call ih

theorem Agree.bind {p : Program I α} {q : Program I β} {f : α → Program I α'}
    {g : β → Program I β'} (h : p.Agree R q) (hnext : ∀ a b, R a b → (f a).Agree S (g b)) :
    (p >>= f).Agree S (q >>= g) := by
  induction h with
  | done h => exact hnext _ _ h
  | call h ih => exact .call ih

theorem Agree.bind_same {p : Program I α} {f : α → Program I α'} {g : α → Program I β'}
    (h : ∀ a, (f a).Agree S (g a)) : (p >>= f).Agree S (p >>= g) :=
  p.agree_refl.bind fun a _ heq => heq ▸ h a

theorem Agree.mono {S : α → β → Prop} (himp : ∀ a b, R a b → S a b) {p : Program I α}
    {q : Program I β} (h : p.Agree R q) : p.Agree S q := by
  induction h with
  | done h => exact .done (himp _ _ h)
  | call h ih => exact .call ih

theorem Agree.trans {γ : Type} {S : β → γ → Prop} {p : Program I α} {q : Program I β}
    {r : Program I γ} (h : p.Agree R q) (h' : q.Agree S r) :
    p.Agree (fun a c => ∃ b, R a b ∧ S b c) r := by
  induction h generalizing r with
  | done h =>
      cases h' with
      | done h' => exact .done ⟨_, h, h'⟩
  | call h ih =>
      cases h' with
      | call h' => exact .call fun answer => ih answer (h' answer)

theorem agree_map (p : Program I α) (f : α → β) :
    (p >>= fun a => pure (f a)).Agree (fun b a => b = f a) p := by
  induction p with
  | done value => exact .done rfl
  | call request next ih => exact .call ih

-- Against one handler the calls and the final states coincide.
theorem Agree.run {σ : Type} {p : Program I α} {q : Program I β} (h : p.Agree R q)
    (handler : Handler I σ) (s : σ) :
    R (p.run handler s).1 (q.run handler s).1 ∧ (p.run handler s).2 = (q.run handler s).2 := by
  induction h generalizing s with
  | done h => exact ⟨h, rfl⟩
  | call h ih => exact ih _ _

theorem Agree.execute {p : Program I α} {q : Program I β} (h : p.Agree R q) (oracle : Oracle I) :
    R (p.execute oracle).1 (q.execute oracle).1 ∧
      (p.execute oracle).2 = (q.execute oracle).2 :=
  h.run oracle.handler []

-- What holds at the end of every run of one holds, through the relation, at
-- the end of every run of the other.
theorem Agree.ends {p : Program I α} {q : Program I β} (h : p.Agree R q)
    {post : List (Event I) → α → Prop} {post' : List (Event I) → β → Prop}
    (himp : ∀ events a b, R a b → post events a → post' events b) {past : List (Event I)}
    (hp : p.Ends post past) : q.Ends post' past := by
  induction h generalizing past with
  | done h => exact himp _ _ _ h hp
  | call h ih => exact fun answer => ih answer (hp answer)

end Program

-- Both succeed with related values, or both fail with one error.
def SameOutcome (R : α → β → Prop) : Except ε α → Except ε β → Prop
  | .ok a, .ok b => R a b
  | .error e, .error e' => e = e'
  | _, _ => False

theorem SameOutcome.refl {R : α → α → Prop} (h : ∀ a, R a a) (result : Except ε α) :
    SameOutcome R result result := by
  cases result with
  | ok a => exact h a
  | error e => rfl

theorem sameOutcome_eq {result result' : Except ε α} :
    SameOutcome Eq result result' ↔ result = result' := by
  cases result <;> cases result' <;> simp [SameOutcome]

def Fallible.Agree (R : α → β → Prop) (x : Fallible I ε α) (y : Fallible I ε β) : Prop :=
  x.run.Agree (SameOutcome R) y.run

namespace Fallible

variable {R : α → β → Prop} {S : α' → β' → Prop}

theorem agree_pure {a : α} {b : β} (h : R a b) :
    Fallible.Agree R (pure a : Fallible I ε α) (pure b) := .done h

theorem agree_throw (e : ε) : Fallible.Agree R (throw e : Fallible I ε α) (throw e) := .done rfl

theorem agree_refl (x : Fallible I ε α) : Fallible.Agree Eq x x :=
  x.run.agree_refl.mono fun _ _ heq => heq ▸ SameOutcome.refl (fun _ => rfl) _

theorem Agree.bind {x : Fallible I ε α} {y : Fallible I ε β} {f : α → Fallible I ε α'}
    {g : β → Fallible I ε β'} (h : Fallible.Agree R x y)
    (hnext : ∀ a b, R a b → Fallible.Agree S (f a) (g b)) :
    Fallible.Agree S (x >>= f) (y >>= g) := by
  unfold Fallible.Agree
  rw [ExceptT.run_bind, ExceptT.run_bind]
  refine Program.Agree.bind h fun a b hab => ?_
  cases a <;> cases b
  · exact .done hab
  · exact hab.elim
  · exact hab.elim
  · exact hnext _ _ hab

theorem Agree.bind_same {x : Fallible I ε α} {f : α → Fallible I ε α'} {g : α → Fallible I ε β'}
    (h : ∀ a, Fallible.Agree S (f a) (g a)) : Fallible.Agree S (x >>= f) (x >>= g) :=
  (agree_refl x).bind fun a _ heq => heq ▸ h a

theorem agree_ite {c : Prop} [Decidable c] {x x' : Fallible I ε α} {y y' : Fallible I ε β}
    (hpos : c → Fallible.Agree R x y) (hneg : ¬ c → Fallible.Agree R x' y') :
    Fallible.Agree R (if c then x else x') (if c then y else y') := by
  by_cases hc : c
  · rw [if_pos hc, if_pos hc]
    exact hpos hc
  · rw [if_neg hc, if_neg hc]
    exact hneg hc

theorem Agree.mono {S : α → β → Prop} (himp : ∀ a b, R a b → S a b) {x : Fallible I ε α}
    {y : Fallible I ε β} (h : Fallible.Agree R x y) : Fallible.Agree S x y := by
  refine Program.Agree.mono ?_ h
  intro a b hab
  cases a <;> cases b
  · exact hab
  · exact hab.elim
  · exact hab.elim
  · exact himp _ _ hab

end Fallible

end AgentBoilerplate.Effects
