import Mathlib.Data.List.Dedup
import Mathlib.Data.List.Sort

namespace AgentBoilerplate.Collections

-- The most recent values of a list, by the time each of them has.
structure MostRecent {α : Type} [DecidableEq α] (time : α → Int) (limit : Nat)
    (all taken : List α) : Prop where
  distinct : taken.Nodup
  subset : ∀ a ∈ taken, a ∈ all
  length : taken.length = min limit all.dedup.length
  ordered : taken.Pairwise fun a b => time b ≤ time a
  recent : ∀ a ∈ taken, ∀ b ∈ all, b ∉ taken → time b ≤ time a

-- The number of other values of a list that come before a value in an order.
def rank {α : Type} [DecidableEq α] (r : α → α → Bool) (l : List α) (a : α) : Nat :=
  l.countP fun b => b ≠ a ∧ r b a

-- A list that is in order one way has its values in every order it keeps.
theorem pairwise_forall {α : Type} {r : α → α → Bool} {s : α → α → Prop} {l : List α} {a b : α}
    (hanti : ∀ a b, r a b = true → r b a = true → a = b)
    (hsorted : l.Pairwise fun a b => r a b = true) (h : l.Pairwise s) (ha : a ∈ l) (hb : b ∈ l)
    (hr : r a b = true) (hne : a ≠ b) : s a b := by
  obtain ⟨front, back, rfl⟩ := List.append_of_mem ha
  rcases List.mem_append.mp hb with hfront | hrest
  · have hback : r b a = true :=
      (List.pairwise_append.mp hsorted).2.2 b hfront a List.mem_cons_self
    exact absurd (hanti a b hr hback) hne
  · rcases List.mem_cons.mp hrest with heq | hback
    · exact absurd heq.symm hne
    · have hcons := (List.pairwise_append.mp h).2.1
      exact (List.pairwise_cons.mp hcons).1 b hback

section Ranking

variable {α : Type} [DecidableEq α] {r : α → α → Bool} {l front back : List α} {a b : α}

-- In a sorted list without repetitions, a value's rank is its position.
theorem rank_sorted (hanti : ∀ a b, r a b = true → r b a = true → a = b)
    (hsorted : (front ++ a :: back).Pairwise fun a b => r a b = true)
    (hdistinct : (front ++ a :: back).Nodup) : rank r (front ++ a :: back) a = front.length := by
  obtain ⟨-, hrest, hfront⟩ := List.pairwise_append.mp hsorted
  obtain ⟨-, hback, hapart⟩ := List.nodup_append.mp hdistinct
  have hbefore : front.countP (fun b => b ≠ a ∧ r b a) = front.length := by
    refine List.countP_eq_length.mpr fun b hb => ?_
    have hne : b ≠ a := hapart b hb a List.mem_cons_self
    have hr : r b a = true := hfront b hb a List.mem_cons_self
    simp [hne, hr]
  have hafter : back.countP (fun b => b ≠ a ∧ r b a) = 0 := by
    refine List.countP_eq_zero.mpr fun b hb => ?_
    have hr : r a b = true := (List.pairwise_cons.mp hrest).1 b hb
    intro hcounted
    obtain ⟨hne, hback⟩ := of_decide_eq_true hcounted
    exact hne (hanti b a hback hr)
  rw [rank, List.countP_append, List.countP_cons, hbefore, hafter]
  simp

theorem rank_perm {l' : List α} (h : l.Perm l') (a : α) : rank r l a = rank r l' a := h.countP_eq _

theorem mem_take_iff_rank (hanti : ∀ a b, r a b = true → r b a = true → a = b)
    (hsorted : l.Pairwise fun a b => r a b = true) (hdistinct : l.Nodup) (ha : a ∈ l) (n : Nat) :
    a ∈ l.take n ↔ rank r l a < n := by
  obtain ⟨front, back, rfl⟩ := List.append_of_mem ha
  rw [rank_sorted hanti hsorted hdistinct]
  have hfront : a ∉ front := by
    intro hmem
    exact (List.nodup_append.mp hdistinct).2.2 a hmem a List.mem_cons_self rfl
  rw [List.take_append, List.mem_append]
  constructor
  · intro hmem
    rcases hmem with hmem | hmem
    · exact absurd (List.mem_of_mem_take hmem) hfront
    · by_contra hle
      have hzero : n - front.length = 0 := by omega
      rw [hzero, List.take_zero] at hmem
      cases hmem
  · intro hlt
    have hpos : n - front.length = n - front.length - 1 + 1 := by omega
    rw [hpos, List.take_succ_cons]
    exact Or.inr List.mem_cons_self

-- The first values in an order are the most recent ones exactly where no value
-- among them is older than a value that comes after it.
theorem mostRecent_take_iff {time : α → Int} {limit : Nat} {all sorted : List α}
    (hanti : ∀ a b, r a b = true → r b a = true → a = b)
    (hperm : sorted.Perm all.dedup) (hsorted : sorted.Pairwise fun a b => r a b = true) :
    MostRecent time limit all (sorted.take limit) ↔
      ∀ a ∈ all, ∀ b ∈ all, r a b = true → a ≠ b → rank r all.dedup a < limit →
        time b ≤ time a := by
  have hdistinct : sorted.Nodup := hperm.nodup_iff.mpr (List.nodup_dedup all)
  have hmem : ∀ a, a ∈ sorted ↔ a ∈ all := fun a => hperm.mem_iff.trans List.mem_dedup
  have htake : ∀ a ∈ all, a ∈ sorted.take limit ↔ rank r all.dedup a < limit := by
    intro a ha
    rw [mem_take_iff_rank hanti hsorted hdistinct ((hmem a).mpr ha), rank_perm hperm]
  have hfront := hsorted.sublist (List.take_sublist limit sorted)
  constructor
  · intro h a ha b hb hr hne hrank
    have hataken := (htake a ha).mpr hrank
    by_cases hbtaken : b ∈ sorted.take limit
    · exact pairwise_forall (s := fun a b => time b ≤ time a) hanti hfront h.ordered hataken
        hbtaken hr hne
    · exact h.recent a hataken b hb hbtaken
  · intro h
    have hsubset : ∀ a ∈ sorted.take limit, a ∈ all := fun a ha =>
      (hmem a).mp (List.mem_of_mem_take ha)
    refine ⟨hdistinct.sublist (List.take_sublist limit sorted), hsubset, ?_, ?_, ?_⟩
    · rw [List.length_take, hperm.length_eq]
    · have hapart := hdistinct.sublist (List.take_sublist limit sorted)
      refine (hfront.and hapart).imp_of_mem fun hataken hbtaken hab => ?_
      exact h _ (hsubset _ hataken) _ (hsubset _ hbtaken) hab.1 hab.2
        ((htake _ (hsubset _ hataken)).mp hataken)
    · intro a hataken b hb hbleft
      have hbmem := (hmem b).mpr hb
      rw [← List.take_append_drop limit sorted, List.mem_append] at hbmem
      have hbdrop := hbmem.resolve_left hbleft
      have hsplit := hsorted
      rw [← List.take_append_drop limit sorted] at hsplit
      have hr := (List.pairwise_append.mp hsplit).2.2 a hataken b hbdrop
      have hne : a ≠ b := by
        intro heq
        exact hbleft (heq ▸ hataken)
      exact h a (hsubset a hataken) b hb hr hne ((htake a (hsubset a hataken)).mp hataken)

end Ranking

end AgentBoilerplate.Collections
