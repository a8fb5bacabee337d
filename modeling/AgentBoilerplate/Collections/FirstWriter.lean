import Mathlib.Data.List.Sort
import Mathlib.Order.Defs.LinearOrder

namespace AgentBoilerplate.Collections

-- A journal of entries with distinct keys, in the order of the keys, in which
-- the first entry written with a key stays.
namespace FirstWriter

variable {α κ : Type} [LinearOrder κ] (key : α → κ)

def record (journal : List α) (entry : α) : List α :=
  if journal.any fun recorded => key recorded = key entry then
    journal
  else
    (journal ++ [entry]).insertionSort fun a b => key a ≤ key b

def journal (entries : List α) : List α := entries.foldl (record key) []

def Ordered (journal : List α) : Prop := journal.Pairwise fun a b => key a < key b

-- The entry written with a key.
def entryOf (entries : List α) (k : κ) : Option α := entries.find? fun entry => key entry = k

variable {key} {entries : List α} {entry : α} {k : κ}

theorem Ordered.eq_of_key (h : Ordered key entries) {a b : α} (ha : a ∈ entries)
    (hb : b ∈ entries) (hkey : key a = key b) : a = b := by
  have hdistinct : (entries.map key).Nodup := List.pairwise_map.mpr (h.imp fun hlt => hlt.ne)
  exact List.inj_on_of_nodup_map hdistinct ha hb hkey

theorem entryOf_eq_some (h : Ordered key entries) :
    entryOf key entries k = some entry ↔ entry ∈ entries ∧ key entry = k := by
  constructor
  · intro hfound
    exact ⟨List.mem_of_find?_eq_some hfound, by simpa using List.find?_some hfound⟩
  · intro ⟨hmem, hkey⟩
    cases hfound : entryOf key entries k with
    | none =>
        have hnone := List.find?_eq_none.mp hfound entry hmem
        simp [hkey] at hnone
    | some other =>
        have hother := List.mem_of_find?_eq_some hfound
        have hk : key other = k := by simpa using List.find?_some hfound
        rw [h.eq_of_key hother hmem (hk.trans hkey.symm)]

-- Two journals that answer alike for every key are the same.
theorem Ordered.ext {entries' : List α} (h : Ordered key entries) (h' : Ordered key entries')
    (hsame : ∀ k, entryOf key entries k = entryOf key entries' k) : entries = entries' := by
  have hmem : ∀ a, a ∈ entries ↔ a ∈ entries' := by
    intro a
    have hleft : entryOf key entries (key a) = some a ↔ a ∈ entries ∧ key a = key a :=
      entryOf_eq_some h
    have hright : entryOf key entries' (key a) = some a ↔ a ∈ entries' ∧ key a = key a :=
      entryOf_eq_some h'
    rw [hsame, hright] at hleft
    simpa using hleft.symm
  have hdistinct : entries.Nodup := h.imp fun hlt heq => hlt.ne (congrArg key heq)
  have hdistinct' : entries'.Nodup := h'.imp fun hlt heq => hlt.ne (congrArg key heq)
  have hperm : entries.Perm entries' := (List.perm_ext_iff_of_nodup hdistinct hdistinct').mpr hmem
  exact hperm.eq_of_pairwise (fun a b _ _ hab hba => absurd hab hba.asymm) h h'

theorem ordered_record (h : Ordered key entries) (entry : α) :
    Ordered key (record key entries entry) := by
  unfold record
  split
  · exact h
  · rename_i hfresh
    have htotal : Std.Total fun a b : α => key a ≤ key b := ⟨fun a b => le_total (key a) (key b)⟩
    have htrans : IsTrans α fun a b => key a ≤ key b := ⟨fun a b c => le_trans⟩
    have hsorted := List.pairwise_insertionSort (fun a b : α => key a ≤ key b) (entries ++ [entry])
    have hperm := List.perm_insertionSort (fun a b : α => key a ≤ key b) (entries ++ [entry])
    have hdistinct : (entries ++ [entry]).Pairwise fun a b => key a ≠ key b := by
      rw [List.pairwise_append]
      refine ⟨h.imp fun hlt => hlt.ne, List.pairwise_singleton _ _, fun a ha b hb => ?_⟩
      rw [List.mem_singleton.mp hb]
      intro hkey
      exact hfresh (List.any_eq_true.mpr ⟨a, ha, by simpa using hkey⟩)
    have hapart := (hperm.pairwise_iff fun hne => hne.symm).mpr hdistinct
    exact (hsorted.and hapart).imp fun hab => lt_of_le_of_ne hab.1 hab.2

theorem entryOf_record (h : Ordered key entries) (entry : α) (k : κ) :
    entryOf key (record key entries entry) k =
      (entryOf key entries k).or (if key entry = k then some entry else none) := by
  have hrecord := ordered_record h entry
  unfold record at hrecord ⊢
  split
  · rename_i hwritten
    obtain ⟨other, hother, hkey⟩ := List.any_eq_true.mp hwritten
    have hsame : key other = key entry := by simpa using hkey
    by_cases hk : key entry = k
    · have hfound := (entryOf_eq_some h).mpr ⟨hother, hsame.trans hk⟩
      rw [hfound]
      rfl
    · rw [if_neg hk, Option.or_none]
  · rename_i hfresh
    rw [if_neg hfresh] at hrecord
    have hmem : ∀ a, a ∈ (entries ++ [entry]).insertionSort (fun a b => key a ≤ key b) ↔
        a ∈ entries ∨ a = entry := by
      intro a
      rw [(List.perm_insertionSort _ _).mem_iff, List.mem_append, List.mem_singleton]
    cases hfound : entryOf key entries k with
    | some other =>
        obtain ⟨hother, hkey⟩ := (entryOf_eq_some h).mp hfound
        exact (entryOf_eq_some hrecord).mpr ⟨(hmem other).mpr (Or.inl hother), hkey⟩
    | none =>
        by_cases hk : key entry = k
        · rw [if_pos hk]
          exact (entryOf_eq_some hrecord).mpr ⟨(hmem entry).mpr (Or.inr rfl), hk⟩
        · rw [if_neg hk]
          refine List.find?_eq_none.mpr fun a ha => ?_
          rcases (hmem a).mp ha with hold | rfl
          · exact List.find?_eq_none.mp hfound a hold
          · simpa using hk

theorem ordered_journal (entries : List α) : Ordered key (journal key entries) := by
  unfold journal
  have hfold : ∀ before : List α, Ordered key before →
      Ordered key (entries.foldl (record key) before) := by
    induction entries with
    | nil => exact fun _ h => h
    | cons entry rest ih => exact fun before h => ih _ (ordered_record h entry)
  exact hfold [] List.Pairwise.nil

-- A journal holds, for each key, the first entry that was written with it.
theorem entryOf_journal (entries : List α) (k : κ) :
    entryOf key (journal key entries) k = entryOf key entries k := by
  unfold journal
  have hfold : ∀ before : List α, Ordered key before →
      entryOf key (entries.foldl (record key) before) k =
        (entryOf key before k).or (entryOf key entries k) := by
    induction entries with
    | nil => exact fun _ _ => (Option.or_none).symm
    | cons entry rest ih =>
        intro before h
        rw [List.foldl_cons, ih _ (ordered_record h entry), entryOf_record h, Option.or_assoc]
        congr 1
        unfold entryOf
        rw [List.find?_cons]
        by_cases hk : key entry = k <;> simp [hk]
  rw [hfold [] List.Pairwise.nil]
  rfl

theorem journal_append (entries : List α) (entry : α) :
    journal key (entries ++ [entry]) = record key (journal key entries) entry :=
  List.foldl_append ..

-- Exactly when what was written makes up a given journal.
theorem journal_eq_iff {whole : List α} (hwhole : Ordered key whole) :
    journal key entries = whole ↔
      (∀ entry ∈ whole, entryOf key entries (key entry) = some entry) ∧
        ∀ entry ∈ entries, ∃ own ∈ whole, key own = key entry := by
  constructor
  · intro h
    have hsame : ∀ k, entryOf key entries k = entryOf key whole k := by
      intro k
      rw [← entryOf_journal, h]
    refine ⟨fun entry hentry => ?_, fun entry hentry => ?_⟩
    · rw [hsame]
      exact (entryOf_eq_some hwhole).mpr ⟨hentry, rfl⟩
    · cases hfound : entryOf key whole (key entry) with
      | none =>
          rw [← hsame] at hfound
          have hnone := List.find?_eq_none.mp hfound entry hentry
          simp at hnone
      | some own => exact ⟨own, (entryOf_eq_some hwhole).mp hfound⟩
  · intro ⟨hfirst, hown⟩
    refine (ordered_journal entries).ext hwhole fun k => ?_
    rw [entryOf_journal]
    cases hfound : entryOf key whole k with
    | some entry =>
        obtain ⟨hentry, rfl⟩ := (entryOf_eq_some hwhole).mp hfound
        exact hfirst entry hentry
    | none =>
        refine List.find?_eq_none.mpr fun entry hentry hk => ?_
        obtain ⟨own, hmem, hkey⟩ := hown entry hentry
        have hsame : key own = k := by
          rw [hkey]
          simpa using hk
        exact List.find?_eq_none.mp hfound own hmem (by simpa using hsame)

end FirstWriter

end AgentBoilerplate.Collections
