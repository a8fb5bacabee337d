import Mathlib.Data.List.Forall2
import Mathlib.Tactic.Common

namespace AgentBoilerplate.Collections

variable {ε α β σ : Type}

-- A computation that raises nothing.
def Returns (x : Except ε α) : Prop := ∃ value, x = .ok value

theorem returns_ok (value : α) : Returns (.ok value : Except ε α) := ⟨value, rfl⟩

theorem not_returns_error (e : ε) : ¬ Returns (.error e : Except ε α) := by
  intro ⟨value, h⟩
  cases h

instance (x : Except ε α) : Decidable (Returns x) :=
  match x with
  | .ok value => isTrue (returns_ok value)
  | .error e => isFalse (not_returns_error e)

theorem returns_bind (x : Except ε α) (f : α → Except ε β) :
    Returns (x >>= f) ↔ ∃ value, x = .ok value ∧ Returns (f value) := by
  cases x with
  | error e =>
      constructor
      · intro h
        exact absurd h (not_returns_error e)
      · intro ⟨value, h, _⟩
        cases h
  | ok value =>
      constructor
      · intro h
        exact ⟨value, rfl, h⟩
      · intro ⟨other, h, hreturns⟩
        cases h
        exact hreturns

-- A traversal returns exactly the results of its steps.
theorem mapM_eq_ok (f : α → Except ε β) (items : List α) (results : List β) :
    items.mapM f = .ok results ↔ List.Forall₂ (fun item result => f item = .ok result) items results := by
  induction items generalizing results with
  | nil =>
      rw [List.mapM_nil, List.forall₂_nil_left_iff]
      constructor
      · intro h
        exact (Except.ok.inj h).symm
      · intro h
        rw [h]
        rfl
  | cons item rest ih =>
      rw [List.mapM_cons, List.forall₂_cons_left_iff]
      constructor
      · intro h
        cases hitem : f item with
        | error e =>
            rw [hitem] at h
            cases h
        | ok result =>
            cases hrest : rest.mapM f with
            | error e =>
                rw [hitem, hrest] at h
                cases h
            | ok others =>
                rw [hitem, hrest] at h
                cases h
                exact ⟨result, others, rfl, (ih others).mp hrest, rfl⟩
      · intro ⟨result, others, hitem, hothers, hresults⟩
        rw [hitem, (ih others).mpr hothers, hresults]
        rfl

theorem mapM_eq_map {f : α → Except ε β} {g : α → β} {items : List α}
    (h : ∀ item ∈ items, f item = .ok (g item)) : items.mapM f = .ok (items.map g) := by
  rw [mapM_eq_ok, List.forall₂_map_right_iff, List.forall₂_same]
  exact h

theorem mapM_returns (f : α → Except ε β) (items : List α) :
    Returns (items.mapM f) ↔ ∀ item ∈ items, Returns (f item) := by
  induction items with
  | nil => exact iff_of_true (returns_ok []) (fun item hitem => by cases hitem)
  | cons item rest ih =>
      rw [List.mapM_cons, returns_bind, List.forall_mem_cons, ← ih]
      constructor
      · intro ⟨result, hresult, hrest⟩
        obtain ⟨results, hresults, -⟩ := (returns_bind _ _).mp hrest
        exact ⟨⟨result, hresult⟩, results, hresults⟩
      · intro ⟨⟨result, hresult⟩, results, hresults⟩
        exact ⟨result, hresult, (returns_bind _ _).mpr ⟨results, hresults, returns_ok _⟩⟩

-- So does a fold whose invariant makes every step return alike.
theorem foldlM_returns {inv : σ → Prop} {allowed : α → Prop} {f : σ → α → Except ε σ}
    (hstep : ∀ s item, inv s → (Returns (f s item) ↔ allowed item))
    (hkeep : ∀ s item later, inv s → f s item = .ok later → inv later) (items : List α) {s : σ}
    (h : inv s) : Returns (items.foldlM f s) ↔ ∀ item ∈ items, allowed item := by
  induction items generalizing s with
  | nil =>
      simp only [List.not_mem_nil, false_implies, implies_true, iff_true]
      exact returns_ok s
  | cons item rest ih =>
      rw [List.foldlM_cons, returns_bind, List.forall_mem_cons, ← hstep s item h]
      constructor
      · intro ⟨later, hlater, hrest⟩
        exact ⟨⟨later, hlater⟩, (ih (hkeep s item later h hlater)).mp hrest⟩
      · intro ⟨⟨later, hlater⟩, hrest⟩
        exact ⟨later, hlater, (ih (hkeep s item later h hlater)).mpr hrest⟩

-- And keeps the invariant.
theorem foldlM_keeps {inv : σ → Prop} {f : σ → α → Except ε σ}
    (hkeep : ∀ s item later, inv s → f s item = .ok later → inv later) (items : List α) {s later : σ}
    (h : inv s) (hfold : items.foldlM f s = .ok later) : inv later := by
  induction items generalizing s with
  | nil =>
      cases hfold
      exact h
  | cons item rest ih =>
      rw [List.foldlM_cons] at hfold
      cases hitem : f s item with
      | error e =>
          rw [hitem] at hfold
          cases hfold
      | ok next =>
          rw [hitem] at hfold
          exact ih (hkeep s item next h hitem) hfold

end AgentBoilerplate.Collections
