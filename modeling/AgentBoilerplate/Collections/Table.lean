import Mathlib.Data.List.Nodup
import Mathlib.Tactic.Common

namespace AgentBoilerplate.Collections

-- Rows with distinct keys, in some order: a map from keys to rows whose rows
-- can also be searched and filtered by value.
structure Table {α κ : Type} (key : α → κ) where
  rows : List α
  nodup : (rows.map key).Nodup

namespace Table

variable {α κ : Type} {key : α → κ}

instance : Membership α (Table key) := ⟨fun t a => a ∈ t.rows⟩

theorem mem_def (t : Table key) (a : α) : a ∈ t ↔ a ∈ t.rows := Iff.rfl

theorem eq_of_key (t : Table key) {a b : α} (ha : a ∈ t) (hb : b ∈ t) (h : key a = key b) :
    a = b :=
  List.inj_on_of_nodup_map t.nodup ha hb h

def empty : Table key := ⟨[], List.nodup_nil⟩

@[simp] theorem notMem_empty (a : α) : a ∉ (empty : Table key) := List.not_mem_nil

def retain (t : Table key) (keep : α → Bool) : Table key :=
  ⟨t.rows.filter keep, t.nodup.sublist (List.filter_sublist.map key)⟩

@[simp] theorem mem_retain (t : Table key) (keep : α → Bool) (a : α) :
    a ∈ t.retain keep ↔ a ∈ t ∧ keep a = true := List.mem_filter

theorem ext_rows {t t' : Table key} (h : t.rows = t'.rows) : t = t' := by
  cases t
  cases t'
  cases h
  rfl

theorem retain_all {t : Table key} {keep : α → Bool} (h : ∀ a ∈ t, keep a = true) :
    t.retain keep = t :=
  ext_rows (List.filter_eq_self.mpr h)

theorem retain_retain (t : Table key) (keep : α → Bool) :
    (t.retain keep).retain keep = t.retain keep :=
  retain_all fun a ha => ((mem_retain t keep a).mp ha).2

def mapRows (t : Table key) (f : α → α) (hf : ∀ a, key (f a) = key a := by intro; rfl) :
    Table key where
  rows := t.rows.map f
  nodup := by simpa [Function.comp_def, hf] using t.nodup

@[simp] theorem mem_mapRows (t : Table key) (f : α → α) (hf : ∀ a, key (f a) = key a) (b : α) :
    b ∈ t.mapRows f hf ↔ ∃ a ∈ t, f a = b := List.mem_map

theorem mem_mapRows_of_mem {t : Table key} {f : α → α} (hf : ∀ a, key (f a) = key a) {a : α}
    (h : a ∈ t) : f a ∈ t.mapRows f hf := List.mem_map_of_mem h

variable [DecidableEq κ]

def get (t : Table key) (k : κ) : Option α := t.rows.find? fun a => key a = k

theorem get_eq_some (t : Table key) (k : κ) (a : α) : t.get k = some a ↔ a ∈ t ∧ key a = k := by
  constructor
  · intro h
    exact ⟨List.mem_of_find?_eq_some h, by simpa using List.find?_some h⟩
  · rintro ⟨ha, hk⟩
    have hsome : (t.get k).isSome := List.find?_isSome.mpr ⟨a, ha, by simp [hk]⟩
    obtain ⟨b, hb⟩ := Option.isSome_iff_exists.mp hsome
    have hkb : key b = k := by simpa using List.find?_some hb
    rw [hb, t.eq_of_key (List.mem_of_find?_eq_some hb) ha (hkb.trans hk.symm)]

theorem get_eq_none (t : Table key) (k : κ) : t.get k = none ↔ ∀ a ∈ t, key a ≠ k := by
  simp [get, List.find?_eq_none, mem_def]

theorem get_retain {t : Table key} {keep : α → Bool} {k : κ}
    (h : ∀ a ∈ t, key a = k → keep a = true) : (t.retain keep).get k = t.get k := by
  cases hget : t.get k with
  | none =>
      rw [get_eq_none] at hget ⊢
      exact fun a ha => hget a ((mem_retain t keep a).mp ha).1
  | some a =>
      rw [get_eq_some] at hget ⊢
      exact ⟨(mem_retain t keep a).mpr ⟨hget.1, h a hget.1 hget.2⟩, hget.2⟩

-- A row that has a key of the table takes the place of the old one.
def insert (t : Table key) (a : α) : Table key where
  rows := t.rows.filter (fun b => key b ≠ key a) ++ [a]
  nodup := by
    rw [List.map_append, List.nodup_append]
    refine ⟨t.nodup.sublist (List.filter_sublist.map key), List.nodup_singleton _, ?_⟩
    intro k hk k' hk' he
    obtain ⟨b, hb, rfl⟩ := List.mem_map.mp hk
    obtain rfl : k' = key a := by simpa using hk'
    simp [he] at hb

@[simp] theorem mem_insert (t : Table key) (a b : α) :
    b ∈ t.insert a ↔ b = a ∨ b ∈ t ∧ key b ≠ key a := by
  simp [insert, mem_def, or_comm]

theorem get_insert (t : Table key) (a : α) (k : κ) :
    (t.insert a).get k = if k = key a then some a else t.get k := by
  by_cases hk : k = key a
  · rw [if_pos hk, get_eq_some]
    exact ⟨(mem_insert t a a).mpr (Or.inl rfl), hk.symm⟩
  · rw [if_neg hk]
    cases hget : t.get k with
    | none =>
        rw [get_eq_none] at hget ⊢
        intro b hb
        rcases (mem_insert t a b).mp hb with rfl | ⟨hold, -⟩
        · exact fun h => hk h.symm
        · exact hget b hold
    | some b =>
        rw [get_eq_some] at hget ⊢
        have hne : key b ≠ key a := fun h => hk (hget.2.symm.trans h)
        exact ⟨(mem_insert t a b).mpr (Or.inr ⟨hget.1, hne⟩), hget.2⟩

-- A row with a new key is added after the others.
theorem rows_insert_fresh {t : Table key} {a : α} (h : ∀ b ∈ t, key b ≠ key a) :
    (t.insert a).rows = t.rows ++ [a] := by
  have hkept : t.rows.filter (fun b => key b ≠ key a) = t.rows :=
    List.filter_eq_self.mpr fun b hb => by simpa using h b hb
  exact congrArg (· ++ [a]) hkept

theorem insert_insert (t : Table key) {a b : α} (h : key b = key a) :
    (t.insert a).insert b = t.insert b := by
  apply ext_rows
  simp [insert, List.filter_append, h]

theorem countP_insert_le (t : Table key) (a : α) (p : α → Bool) :
    (t.insert a).rows.countP p ≤ t.rows.countP p + (if p a then 1 else 0) := by
  rw [insert, List.countP_append, List.countP_singleton]
  exact Nat.add_le_add_right (List.filter_sublist.countP_le) _

-- A row that replaces one of the same kind counts as that one did.
theorem countP_replace_le (t : Table key) {a b : α} (hb : b ∈ t) (hkey : key b = key a)
    {p : α → Bool} (hp : p a = p b) : (t.insert a).rows.countP p ≤ t.rows.countP p := by
  have hold : (if p b then 1 else 0) ≤ (t.rows.filter fun c => ¬ key c ≠ key a).countP p := by
    split
    · rename_i hpb
      exact List.countP_pos_iff.mpr ⟨b, List.mem_filter.mpr ⟨hb, by simpa using hkey⟩, hpb⟩
    · exact Nat.zero_le _
  rw [insert, List.countP_append, List.countP_singleton, hp,
    List.countP_eq_countP_filter_add t.rows p fun c => key c ≠ key a]
  simpa using hold

def modify (t : Table key) (k : κ) (f : α → α) (hf : ∀ a, key (f a) = key a := by intro; rfl) :
    Table key where
  rows := t.rows.map fun a => if key a = k then f a else a
  nodup := by
    have h : ∀ a, key (if key a = k then f a else a) = key a := by
      intro a
      split
      · exact hf a
      · rfl
    simpa [Function.comp_def, h] using t.nodup

@[simp] theorem mem_modify (t : Table key) (k : κ) (f : α → α) (hf : ∀ a, key (f a) = key a)
    (b : α) : b ∈ t.modify k f hf ↔ ∃ a ∈ t, b = if key a = k then f a else a := by
  simp [modify, mem_def, eq_comm]

theorem get_modify (t : Table key) (k : κ) (f : α → α) (hf : ∀ a, key (f a) = key a) (k' : κ) :
    (t.modify k f hf).get k' = if k' = k then (t.get k').map f else t.get k' := by
  cases hget : t.get k' with
  | none =>
      have hnone : (t.modify k f hf).get k' = none := by
        rw [get_eq_none] at hget ⊢
        intro b hb
        obtain ⟨a, ha, rfl⟩ := (mem_modify t k f hf b).mp hb
        have hkey : key (if key a = k then f a else a) = key a := by
          split
          · exact hf a
          · rfl
        rw [hkey]
        exact hget a ha
      rw [hnone]
      split <;> rfl
  | some a =>
      obtain ⟨ha, rfl⟩ := (get_eq_some t k' a).mp hget
      by_cases hk : key a = k
      · rw [if_pos hk, Option.map_some, get_eq_some, hf]
        exact ⟨(mem_modify t k f hf _).mpr ⟨a, ha, by rw [if_pos hk]⟩, rfl⟩
      · rw [if_neg hk, get_eq_some]
        exact ⟨(mem_modify t k f hf _).mpr ⟨a, ha, by rw [if_neg hk]⟩, rfl⟩

theorem countP_modify (t : Table key) (k : κ) (f : α → α) (hf : ∀ a, key (f a) = key a)
    {p : α → Bool} (hp : ∀ a, p (f a) = p a) :
    (t.modify k f hf).rows.countP p = t.rows.countP p := by
  rw [modify, List.countP_map]
  refine List.countP_congr fun a _ => ?_
  simp only [Function.comp_apply]
  split
  · rw [hp]
  · rfl

def remove (t : Table key) (k : κ) : Table key := t.retain fun a => key a ≠ k

@[simp] theorem mem_remove (t : Table key) (k : κ) (a : α) :
    a ∈ t.remove k ↔ a ∈ t ∧ key a ≠ k := by
  simp [remove]

theorem get_remove (t : Table key) (k k' : κ) :
    (t.remove k).get k' = if k' = k then none else t.get k' := by
  by_cases hk : k' = k
  · rw [if_pos hk, get_eq_none]
    intro a ha
    rw [hk]
    exact ((mem_remove t k a).mp ha).2
  · rw [if_neg hk]
    cases hget : t.get k' with
    | none =>
        rw [get_eq_none] at hget ⊢
        exact fun a ha => hget a ((mem_remove t k a).mp ha).1
    | some a =>
        rw [get_eq_some] at hget ⊢
        exact ⟨(mem_remove t k a).mpr ⟨hget.1, fun h => hk (hget.2.symm.trans h)⟩, hget.2⟩

end Table

end AgentBoilerplate.Collections
