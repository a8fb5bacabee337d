import AgentBoilerplate.Collections.Table
import Mathlib.Data.List.Sort

namespace AgentBoilerplate.Collections

variable {α κ : Type} {key : α → κ}

-- Rows that are told apart have one order, however they were found.
theorem insertionSort_reordered {r : α → α → Prop} [DecidableRel r] (htotal : ∀ a b, r a b ∨ r b a)
    (htrans : ∀ a b c, r a b → r b c → r a c) {rows rows' : List α} (hrows : rows.Perm rows')
    (hdistinct : ∀ a ∈ rows, ∀ b ∈ rows, r a b → r b a → a = b) :
    rows.insertionSort r = rows'.insertionSort r := by
  have htotal' : Std.Total r := ⟨htotal⟩
  have htrans' : IsTrans α r := ⟨htrans⟩
  have hperm : (rows.insertionSort r).Perm (rows'.insertionSort r) :=
    ((List.perm_insertionSort r rows).trans hrows).trans (List.perm_insertionSort r rows').symm
  refine hperm.eq_of_pairwise (fun a b ha hb hab hba => ?_) (List.pairwise_insertionSort r rows)
    (List.pairwise_insertionSort r rows')
  have hb' := hrows.mem_iff.mpr ((List.mem_insertionSort r).mp hb)
  exact hdistinct a ((List.mem_insertionSort r).mp ha) b hb' hab hba

namespace Table

-- The same rows, found in another order.
def Reordered (t t' : Table key) : Prop := t.rows.Perm t'.rows

theorem Reordered.refl (t : Table key) : t.Reordered t := List.Perm.refl _

theorem Reordered.mem_iff {t t' : Table key} (h : t.Reordered t') (a : α) : a ∈ t ↔ a ∈ t' :=
  List.Perm.mem_iff h

theorem retain_comm (t : Table key) (keep keep' : α → Bool) :
    (t.retain keep').retain keep = (t.retain keep).retain keep' :=
  ext_rows (List.filter_comm _ _ _)

theorem retain_retain_other (t : Table key) {keep keep' : α → Bool}
    (h : ∀ a ∈ t, keep a = true → keep' a = true) :
    (t.retain keep').retain keep = t.retain keep := by
  rw [retain_comm]
  exact retain_all fun a ha =>
    h a ((mem_retain t keep a).mp ha).1 ((mem_retain t keep a).mp ha).2

-- What is read of the rows of one kind is read of them alone, in whatever order
-- the table is found.
section Reads

variable {t t' : Table key} {keep pick : α → Bool}

theorem filter_retained (hpick : ∀ a ∈ t, pick a = true → keep a = true) :
    (t.retain keep).rows.filter pick = t.rows.filter pick := by
  change (t.rows.filter keep).filter pick = t.rows.filter pick
  rw [List.filter_filter]
  refine List.filter_congr fun a ha => ?_
  by_cases hpicked : pick a = true
  · rw [hpicked, hpick a ha hpicked]
    rfl
  · rw [Bool.eq_false_iff.mpr hpicked]
    rfl

theorem countP_retained (h : t.Reordered t') (hpick : ∀ a ∈ t, pick a = true → keep a = true) :
    t'.rows.countP pick = (t.retain keep).rows.countP pick := by
  rw [List.countP_eq_length_filter, List.countP_eq_length_filter, filter_retained hpick]
  exact (List.Perm.filter pick h).length_eq.symm

-- Sorted by dates that are distinct.
theorem sorted_retained {r : α → α → Prop} [DecidableRel r] (date : α → Int)
    (htotal : ∀ a b, r a b ∨ r b a) (htrans : ∀ a b c, r a b → r b c → r a c)
    (hdate : ∀ a b, r a b → r b a → date a = date b) (h : t.Reordered t')
    (hpick : ∀ a ∈ t, pick a = true → keep a = true)
    (hdistinct : ((t.retain keep).rows.map date).Nodup) :
    (t'.rows.filter pick).insertionSort r = ((t.retain keep).rows.filter pick).insertionSort r := by
  rw [filter_retained hpick]
  refine (insertionSort_reordered htotal htrans (List.Perm.filter pick h) ?_).symm
  intro a ha b hb hab hba
  obtain ⟨hmem, hpicked⟩ := List.mem_filter.mp ha
  obtain ⟨hmem', hpicked'⟩ := List.mem_filter.mp hb
  have hkept : a ∈ (t.retain keep).rows := (mem_retain t keep a).mpr ⟨hmem, hpick a hmem hpicked⟩
  have hkept' : b ∈ (t.retain keep).rows := (mem_retain t keep b).mpr ⟨hmem', hpick b hmem' hpicked'⟩
  exact List.inj_on_of_nodup_map hdistinct hkept hkept' (hdate a b hab hba)

theorem newest_retained (date : α → Int) (h : t.Reordered t')
    (hpick : ∀ a ∈ t, pick a = true → keep a = true)
    (hdistinct : ((t.retain keep).rows.map date).Nodup) :
    (t'.rows.filter pick).insertionSort (fun a b => date b ≤ date a) =
      ((t.retain keep).rows.filter pick).insertionSort fun a b => date b ≤ date a :=
  sorted_retained date (fun _ _ => Int.le_total _ _)
    (fun _ _ _ hab hbc => Int.le_trans hbc hab) (fun _ _ hab hba => Int.le_antisymm hba hab) h hpick
    hdistinct

theorem oldest_retained (date : α → Int) (h : t.Reordered t')
    (hpick : ∀ a ∈ t, pick a = true → keep a = true)
    (hdistinct : ((t.retain keep).rows.map date).Nodup) :
    (t'.rows.filter pick).insertionSort (fun a b => date a ≤ date b) =
      ((t.retain keep).rows.filter pick).insertionSort fun a b => date a ≤ date b :=
  sorted_retained date (fun _ _ => Int.le_total _ _)
    (fun _ _ _ hab hbc => Int.le_trans hab hbc) (fun _ _ hab hba => Int.le_antisymm hab hba) h hpick
    hdistinct

end Reads

section Keys

variable [DecidableEq κ] {t t' : Table key} {keep pick : α → Bool} {k : κ}

theorem Reordered.get_eq (h : t.Reordered t') (k : κ) : t.get k = t'.get k := by
  cases hget : t.get k with
  | none =>
      rw [get_eq_none] at hget
      exact ((get_eq_none t' k).mpr fun a ha => hget a ((h.mem_iff a).mpr ha)).symm
  | some a =>
      rw [get_eq_some] at hget
      exact ((get_eq_some t' k a).mpr ⟨(h.mem_iff a).mp hget.1, hget.2⟩).symm

theorem get_retained (h : t.Reordered t') (hkeep : ∀ a ∈ t, key a = k → keep a = true) :
    t'.get k = (t.retain keep).get k := by
  rw [get_retain hkeep]
  exact (h.get_eq k).symm

theorem find_retained (h : t.Reordered t') :
    (t'.get k).filter keep = (t.retain keep).get k := by
  rw [← h.get_eq k]
  cases hget : t.get k with
  | none =>
      rw [get_eq_none] at hget
      exact ((get_eq_none _ k).mpr fun a ha => hget a ((mem_retain t keep a).mp ha).1).symm
  | some a =>
      have hrow := (get_eq_some t k a).mp hget
      by_cases hkeep : keep a = true
      · rw [Option.filter_some, if_pos hkeep]
        exact ((get_eq_some _ k a).mpr ⟨(mem_retain t keep a).mpr ⟨hrow.1, hkeep⟩, hrow.2⟩).symm
      · rw [Option.filter_some, if_neg hkeep]
        refine ((get_eq_none _ k).mpr fun b hb hkey => hkeep ?_).symm
        obtain ⟨hmem, hkept⟩ := (mem_retain t keep b).mp hb
        rwa [t.eq_of_key hrow.1 hmem (hrow.2.trans hkey.symm)]

theorem any_retained (h : t.Reordered t') (hpick : ∀ a ∈ t, pick a = true → keep a = true) :
    (t'.get k).any pick = ((t.retain keep).get k).any pick := by
  rw [← find_retained h]
  cases hget : t'.get k with
  | none => rfl
  | some a =>
      have hmem := (h.mem_iff a).mpr ((get_eq_some t' k a).mp hget).1
      by_cases hkeep : keep a = true
      · rw [Option.filter_some, if_pos hkeep]
      · rw [Option.filter_some, if_neg hkeep]
        exact Bool.eq_false_iff.mpr fun hpicked => hkeep (hpick a hmem hpicked)

end Keys

variable [DecidableEq κ] (t : Table key) {keep : α → Bool} {k : κ}

-- What is done to the table, seen in the rows of one kind: it is done to them
-- alone where it is about such a row, and nothing is seen of it elsewhere.
theorem retain_insert {a : α} (h : keep a = true) :
    (t.insert a).retain keep = (t.retain keep).insert a := by
  apply ext_rows
  change (t.rows.filter _ ++ [a]).filter keep = (t.rows.filter keep).filter _ ++ [a]
  rw [List.filter_append, List.filter_cons_of_pos h, List.filter_nil, List.filter_comm]

theorem retain_insert_other {a : α} (h : keep a = false)
    (hold : ∀ b ∈ t, key b = key a → keep b = false) : (t.insert a).retain keep = t.retain keep := by
  apply ext_rows
  change (t.rows.filter _ ++ [a]).filter keep = t.rows.filter keep
  rw [List.filter_append, List.filter_cons_of_neg (by rw [h]; exact Bool.false_ne_true),
    List.filter_nil, List.append_nil, List.filter_filter]
  refine List.filter_congr fun b hb => ?_
  by_cases hkey : key b = key a
  · simp [hold b hb hkey]
  · simp [hkey]

theorem retain_modify {f : α → α} (hf : ∀ a, key (f a) = key a) (hkeep : ∀ a, keep (f a) = keep a) :
    (t.modify k f hf).retain keep = (t.retain keep).modify k f hf := by
  apply ext_rows
  have hcongr : ∀ a, keep (if key a = k then f a else a) = keep a := by
    intro a
    split
    · exact hkeep a
    · rfl
  change (t.rows.map _).filter keep = (t.rows.filter keep).map _
  rw [List.filter_map]
  exact congrArg _ (List.filter_congr fun a _ => hcongr a)

theorem modify_missing {f : α → α} (hf : ∀ a, key (f a) = key a) (h : ∀ a ∈ t, key a ≠ k) :
    t.modify k f hf = t := by
  apply ext_rows
  change t.rows.map _ = t.rows
  refine (List.map_congr_left fun a ha => ?_).trans (List.map_id _)
  exact if_neg (h a ha)

theorem retain_modify_other {f : α → α} (hf : ∀ a, key (f a) = key a)
    (hkeep : ∀ a, keep (f a) = keep a) (hother : ∀ a ∈ t, key a = k → keep a = false) :
    (t.modify k f hf).retain keep = t.retain keep := by
  rw [retain_modify t hf hkeep]
  refine modify_missing _ hf fun a ha hkey => ?_
  obtain ⟨hmem, hkept⟩ := (mem_retain t keep a).mp ha
  rw [hother a hmem hkey] at hkept
  cases hkept

theorem retain_remove : (t.remove k).retain keep = (t.retain keep).remove k := retain_comm t _ _

theorem retain_remove_other (h : ∀ a ∈ t, key a = k → keep a = false) :
    (t.remove k).retain keep = t.retain keep := by
  refine retain_retain_other t fun a ha hkept => decide_eq_true fun hkey => ?_
  rw [h a ha hkey] at hkept
  cases hkept

-- What holds of every row still does.
variable {t} {P : α → Prop}

omit [DecidableEq κ] in
theorem forall_retain (h : ∀ a ∈ t, P a) (keep : α → Bool) : ∀ a ∈ t.retain keep, P a :=
  fun a ha => h a ((mem_retain t keep a).mp ha).1

theorem forall_insert (h : ∀ a ∈ t, P a) {a : α} (ha : P a) : ∀ b ∈ t.insert a, P b := by
  intro b hb
  obtain rfl | ⟨hold, -⟩ := (mem_insert t a b).mp hb
  · exact ha
  · exact h b hold

theorem forall_modify (h : ∀ a ∈ t, P a) {f : α → α} (hf : ∀ a, key (f a) = key a := by intro; rfl)
    (hP : ∀ a, P a → P (f a) := by intro _ h; exact h) : ∀ b ∈ t.modify k f hf, P b := by
  intro b hb
  obtain ⟨a, ha, rfl⟩ := (mem_modify t k f hf b).mp hb
  split
  · exact hP a (h a ha)
  · exact h a ha

end Table

end AgentBoilerplate.Collections
