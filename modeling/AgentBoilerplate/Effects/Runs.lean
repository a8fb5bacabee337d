import Mathlib.Logic.Basic
import Mathlib.Tactic.Common

namespace AgentBoilerplate.Effects

variable {σ α : Type} (step : σ → α → σ)

-- A property of every state of a run, the first and the last included.
def Always (P : σ → Prop) : σ → List α → Prop
  | s, [] => P s
  | s, action :: rest => P s ∧ Always P (step s action) rest

-- Every action of a run is allowed in the state it is taken in.
def Permits (allowed : σ → α → Prop) : σ → List α → Prop
  | _, [] => True
  | s, action :: rest => allowed s action ∧ Permits allowed (step s action) rest

instance decidableAlways {P : σ → Prop} [∀ s, Decidable (P s)] :
    (s : σ) → (actions : List α) → Decidable (Always step P s actions)
  | s, [] => inferInstanceAs (Decidable (P s))
  | s, action :: rest =>
      @instDecidableAnd _ _ (inferInstanceAs (Decidable (P s)))
        (decidableAlways (step s action) rest)

instance decidablePermits {allowed : σ → α → Prop} [∀ s action, Decidable (allowed s action)] :
    (s : σ) → (actions : List α) → Decidable (Permits step allowed s actions)
  | _, [] => isTrue trivial
  | s, action :: rest =>
      @instDecidableAnd _ _ (inferInstanceAs (Decidable (allowed s action)))
        (decidablePermits (step s action) rest)

variable {step} {inv P assumed : σ → Prop} {allowed : σ → α → Prop} {s : σ}

theorem Always.here {actions : List α} (h : Always step P s actions) : P s := by
  cases actions with
  | nil => exact h
  | cons action rest => exact h.1

theorem always_true (s : σ) (actions : List α) : Always step (fun _ => True) s actions := by
  induction actions generalizing s with
  | nil => trivial
  | cons action rest ih => exact ⟨trivial, ih _⟩

theorem permits_append {actions later : List α} :
    Permits step allowed s (actions ++ later) ↔
      Permits step allowed s actions ∧ Permits step allowed (actions.foldl step s) later := by
  induction actions generalizing s with
  | nil => exact (iff_of_eq (true_and _)).symm
  | cons action rest ih =>
      rw [List.cons_append, Permits, Permits, ih, and_assoc]
      rfl

-- An invariant that every allowed action keeps, and whose property every other
-- action breaks at once, says exactly which runs have the property.
theorem always_iff_permits (hsafe : ∀ s, inv s → P s)
    (hkeep : ∀ s action, inv s → assumed s → allowed s action → inv (step s action))
    (hbreak : ∀ s action, inv s → assumed s → ¬ allowed s action → ¬ P (step s action))
    (h : inv s) {actions : List α} (hassumed : Always step assumed s actions) :
    Always step P s actions ↔ Permits step allowed s actions := by
  induction actions generalizing s with
  | nil => exact iff_of_true (hsafe s h) trivial
  | cons action rest ih =>
      have hallowed : P (step s action) → allowed s action := by
        intro hP
        by_contra hnot
        exact hbreak s action h hassumed.1 hnot hP
      constructor
      · intro hall
        have haction := hallowed hall.2.here
        exact ⟨haction, (ih (hkeep s action h hassumed.1 haction) hassumed.2).mp hall.2⟩
      · intro hpermits
        have hnext := hkeep s action h hassumed.1 hpermits.1
        exact ⟨hsafe s h, (ih hnext hassumed.2).mpr hpermits.2⟩

end AgentBoilerplate.Effects
