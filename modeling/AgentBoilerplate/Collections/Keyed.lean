import Mathlib.Data.List.Sort

namespace AgentBoilerplate.Collections

section Firsts

variable {α κ : Type} [DecidableEq κ] {key : α → κ}

-- The first item of each key.
def firsts (key : α → κ) (items : List α) : List α := items.eraseDupsBy fun a b => key a = key b

@[simp] theorem firsts_nil : firsts key [] = [] := rfl

theorem firsts_cons (item : α) (rest : List α) :
    firsts key (item :: rest) = item :: firsts key (rest.filter fun other => key other ≠ key item) := by
  unfold firsts
  rw [List.eraseDupsBy_cons]
  congr 3
  funext other
  rw [decide_not, Bool.decide_eq_false]

-- An item is first among those that follow it, and takes its key with it.
theorem firsts_induction (key : α → κ) {motive : List α → Prop} (nil : motive [])
    (cons : ∀ head rest, motive (rest.filter fun other => key other ≠ key head) →
      motive (head :: rest)) (items : List α) : motive items := by
  induction hlength : items.length using Nat.strong_induction_on generalizing items with
  | _ n ih =>
      cases items with
      | nil => exact nil
      | cons head rest =>
          have hshorter := List.length_filter_le (fun other => key other ≠ key head) rest
          rw [List.length_cons] at hlength
          exact cons head rest (ih _ (by omega) _ rfl)

theorem firsts_sublist (key : α → κ) (items : List α) : (firsts key items).Sublist items := by
  induction items using firsts_induction key with
  | nil => exact List.Sublist.refl []
  | cons head rest ih =>
      rw [firsts_cons]
      exact (ih.trans List.filter_sublist).cons_cons head

-- Every key is there.
theorem firsts_covers (key : α → κ) (items : List α) :
    ∀ item ∈ items, ∃ first ∈ firsts key items, key first = key item := by
  induction items using firsts_induction key with
  | nil =>
      intro item hitem
      cases hitem
  | cons head rest ih =>
      intro item hitem
      rw [firsts_cons]
      by_cases hkey : key item = key head
      · exact ⟨head, List.mem_cons_self, hkey.symm⟩
      · have hrest : item ∈ rest := by
          cases hitem with
          | head => exact absurd rfl hkey
          | tail _ hrest => exact hrest
        obtain ⟨first, hfirst, hsame⟩ := ih item (List.mem_filter.mpr ⟨hrest, decide_eq_true hkey⟩)
        exact ⟨first, List.mem_cons_of_mem head hfirst, hsame⟩

-- And no key is there twice.
theorem firsts_nodup (key : α → κ) (items : List α) : ((firsts key items).map key).Nodup := by
  induction items using firsts_induction key with
  | nil => exact List.nodup_nil
  | cons head rest ih =>
      rw [firsts_cons, List.map_cons, List.nodup_cons]
      refine ⟨fun hmem => ?_, ih⟩
      obtain ⟨other, hother, hsame⟩ := List.mem_map.mp hmem
      have hapart := (List.mem_filter.mp ((firsts_sublist key _).subset hother)).2
      exact of_decide_eq_true hapart hsame

end Firsts

-- A sort is stable: it keeps the items that are alike in their order.
theorem filter_insertionSort {α : Type} {r : α → α → Prop} [DecidableRel r] (items : List α)
    {p : α → Bool} (halike : ∀ a b, p a = true → p b = true → r a b) :
    (items.insertionSort r).filter p = items.filter p := by
  have hordered : (items.filter p).Pairwise r := by
    refine List.pairwise_of_forall_mem_list fun a ha b hb => ?_
    exact halike a b (List.mem_filter.mp ha).2 (List.mem_filter.mp hb).2
  have hsublist : (items.filter p).Sublist (items.insertionSort r) :=
    List.sublist_insertionSort hordered List.filter_sublist
  have hkept := hsublist.filter p
  simp only [List.filter_filter, Bool.and_self] at hkept
  have hlength : (items.filter p).length = ((items.insertionSort r).filter p).length :=
    ((List.perm_insertionSort r items).filter p).length_eq.symm
  exact (hkept.eq_of_length hlength).symm

end AgentBoilerplate.Collections
