import Mathlib.Algebra.BigOperators.Group.List.Basic
import Mathlib.Algebra.Order.Ring.Rat
import Mathlib.Data.List.Induction
import Mathlib.Data.List.Sort
import Mathlib.Algebra.Order.BigOperators.Group.List
import Mathlib.Tactic.Linarith

namespace AgentBoilerplate.Collections

-- One vote for a key: its weight, and the item that it was cast for. An entry of
-- a tally has the same fields.
structure Vote (κ α : Type) where
  key : κ
  weight : ℚ
  item : α

section Tally

variable {κ α : Type} [DecidableEq κ] (rich : α → Bool)

-- The first rich item, or the first one.
def chosen (items : List α) : Option α := (items.find? rich).or items.head?

def itemsOf (votes : List (Vote κ α)) (key : κ) : List α :=
  (votes.filter fun vote => vote.key = key).map Vote.item

def total (votes : List (Vote κ α)) (key : κ) : ℚ :=
  ((votes.filter fun vote => vote.key = key).map Vote.weight).sum

def revise (entry vote : Vote κ α) : Vote κ α :=
  { entry with
    weight := entry.weight + vote.weight
    item := if rich vote.item ∧ rich entry.item = false then vote.item else entry.item }

def count (entries : List (Vote κ α)) (vote : Vote κ α) : List (Vote κ α) :=
  if entries.any fun entry => entry.key = vote.key then
    entries.map fun entry => if entry.key = vote.key then revise rich entry vote else entry
  else
    entries ++ [vote]

-- The place of the first vote for a key.
def place (votes : List (Vote κ α)) (key : κ) : Nat := (votes.map Vote.key).idxOf key

-- The entries are those of the votes, in the order of the first vote for each key.
structure Tallied (votes entries : List (Vote κ α)) : Prop where
  mem : ∀ key, key ∈ entries.map Vote.key ↔ key ∈ votes.map Vote.key
  order : entries.Pairwise fun a b => place votes a.key < place votes b.key
  weight : ∀ entry ∈ entries, entry.weight = total votes entry.key
  item : ∀ entry ∈ entries, chosen rich (itemsOf votes entry.key) = some entry.item

theorem tallied_nil : Tallied rich ([] : List (Vote κ α)) [] where
  mem _ := Iff.rfl
  order := List.Pairwise.nil
  weight := by simp
  item := by simp

variable {rich} {votes entries : List (Vote κ α)} {vote : Vote κ α} {key : κ}

theorem itemsOf_append (more : List (Vote κ α)) :
    itemsOf (votes ++ more) key = itemsOf votes key ++ itemsOf more key := by
  unfold itemsOf
  rw [List.filter_append, List.map_append]

theorem total_append (more : List (Vote κ α)) :
    total (votes ++ more) key = total votes key + total more key := by
  unfold total
  rw [List.filter_append, List.map_append, List.sum_append]

theorem total_perm {votes' : List (Vote κ α)} (h : votes.Perm votes') :
    total votes key = total votes' key := ((h.filter _).map _).sum_eq

theorem total_cons (vote : Vote κ α) (votes : List (Vote κ α)) (key : κ) :
    total (vote :: votes) key = (if vote.key = key then vote.weight else 0) + total votes key := by
  unfold total
  by_cases h : vote.key = key <;> simp [h]

-- With votes that all have a weight, a key without weight has no vote.
theorem total_nonneg (h : ∀ vote ∈ votes, 0 < vote.weight) (key : κ) : 0 ≤ total votes key := by
  unfold total
  refine List.sum_nonneg fun weight hweight => ?_
  obtain ⟨vote, hvote, rfl⟩ := List.mem_map.mp hweight
  exact (h vote (List.mem_filter.mp hvote).1).le

theorem total_eq_zero (h : ∀ vote ∈ votes, 0 < vote.weight) :
    total votes key = 0 ↔ key ∉ votes.map Vote.key := by
  induction votes with
  | nil => exact iff_of_true rfl List.not_mem_nil
  | cons vote votes ih =>
    have hrest : ∀ other ∈ votes, 0 < other.weight := fun other hother =>
      h other (List.mem_cons_of_mem vote hother)
    rw [total_cons, List.map_cons, List.mem_cons, not_or, ← ih hrest]
    by_cases hkey : vote.key = key
    · have hpos := h vote List.mem_cons_self
      have hnonneg := total_nonneg hrest key
      rw [if_pos hkey]
      refine iff_of_false (fun hzero => ?_) fun hboth => hboth.1 hkey.symm
      linarith
    · rw [if_neg hkey, zero_add]
      exact ⟨fun hzero => ⟨Ne.symm hkey, hzero⟩, fun hboth => hboth.2⟩

theorem itemsOf_single : itemsOf [vote] key = if vote.key = key then [vote.item] else [] := by
  unfold itemsOf
  by_cases h : vote.key = key <;> simp [h]

theorem total_single : total [vote] key = if vote.key = key then vote.weight else 0 := by
  unfold total
  by_cases h : vote.key = key <;> simp [h]

theorem itemsOf_eq_nil : itemsOf votes key = [] ↔ key ∉ votes.map Vote.key := by
  unfold itemsOf
  rw [List.map_eq_nil_iff, List.filter_eq_nil_iff, List.mem_map]
  simp

theorem chosen_mem {items : List α} {item : α} (h : chosen rich items = some item) : item ∈ items := by
  unfold chosen at h
  cases hfind : items.find? rich with
  | some first =>
    rw [hfind] at h
    obtain rfl : first = item := Option.some.inj h
    exact List.mem_of_find?_eq_some hfind
  | none =>
    rw [hfind] at h
    exact List.mem_of_mem_head? h

-- A rich item is chosen if there is one.
theorem chosen_rich {items : List α} {item : α} (h : chosen rich items = some item) :
    rich item ↔ ∃ other ∈ items, rich other := by
  constructor
  · intro hrich
    exact ⟨item, chosen_mem h, hrich⟩
  · rintro ⟨other, hother, hrich⟩
    unfold chosen at h
    cases hfind : items.find? rich with
    | some first =>
      rw [hfind] at h
      obtain rfl : first = item := Option.some.inj h
      exact List.find?_some hfind
    | none => exact absurd hrich (List.find?_eq_none.mp hfind other hother)

theorem chosen_append_single {items : List α} {item new : α} (h : chosen rich items = some item) :
    chosen rich (items ++ [new]) =
      some (if rich new ∧ rich item = false then new else item) := by
  have hhead : items.head? = some item ∨ items.find? rich = some item := by
    unfold chosen at h
    cases hfind : items.find? rich with
    | none =>
      rw [hfind] at h
      exact Or.inl h
    | some first =>
      rw [hfind] at h
      exact Or.inr h
  unfold chosen at h ⊢
  rw [List.find?_append, List.head?_append]
  cases hfind : items.find? rich with
  | some first =>
    rw [hfind] at h
    obtain rfl : first = item := Option.some.inj h
    have hrich : rich first = true := List.find?_some hfind
    simp [hrich]
  | none =>
    rw [hfind] at h
    have hfirst : items.head? = some item := h
    have hpoor : rich item = false := by
      have hnone := List.find?_eq_none.mp hfind item (List.mem_of_mem_head? hfirst)
      exact (Bool.not_eq_true _).mp hnone
    by_cases hnew : rich new
    · simp [hnew, hpoor]
    · simp [hnew, hfirst]

theorem chosen_append (first rest : List α) :
    chosen rich (first ++ rest) =
      if first.any rich then chosen rich first
      else if rest.any rich then chosen rich rest
      else (chosen rich first).or (chosen rich rest) := by
  unfold chosen
  rw [List.find?_append, List.head?_append]
  have hnone : ∀ items : List α, items.any rich = false → items.find? rich = none := fun items h =>
    List.find?_eq_none.mpr (by simpa using h)
  have hsome : ∀ items : List α, items.any rich = true → ∃ item, items.find? rich = some item :=
    fun items h => Option.isSome_iff_exists.mp (by simpa using h)
  cases hfirst : first.any rich with
  | true =>
    obtain ⟨item, hitem⟩ := hsome first hfirst
    rw [if_pos rfl, hitem]
    rfl
  | false =>
    rw [if_neg Bool.false_ne_true, hnone first hfirst]
    cases hrest : rest.any rich with
    | true =>
      obtain ⟨item, hitem⟩ := hsome rest hrest
      rw [if_pos rfl, hitem]
      rfl
    | false =>
      rw [if_neg Bool.false_ne_true, hnone rest hrest]
      rfl

-- What is chosen of several lists is what one of them has chosen, which is rich if
-- any of them has a rich item.
theorem chosen_flatten {lists : List (List α)} {item : α}
    (h : chosen rich lists.flatten = some item) :
    ∃ items ∈ lists, chosen rich items = some item ∧ (rich item ∨ ∀ other ∈ lists.flatten, ¬ rich other) := by
  have hrich : rich item ∨ ∀ other ∈ lists.flatten, ¬ rich other := by
    by_cases hitem : rich item
    · exact Or.inl hitem
    · exact Or.inr fun other hother hother' => hitem ((chosen_rich h).mpr ⟨other, hother, hother'⟩)
  suffices hsome : ∃ items ∈ lists, chosen rich items = some item by
    obtain ⟨items, hitems, hchosen⟩ := hsome
    exact ⟨items, hitems, hchosen, hrich⟩
  clear hrich
  induction lists with
  | nil => cases h
  | cons first lists ih =>
    have hrest : chosen rich lists.flatten = some item → ∃ items ∈ first :: lists,
        chosen rich items = some item := by
      intro hchosen
      obtain ⟨items, hitems, hitem⟩ := ih hchosen
      exact ⟨items, List.mem_cons_of_mem first hitems, hitem⟩
    rw [List.flatten_cons, chosen_append] at h
    split at h
    · exact ⟨first, List.mem_cons_self, h⟩
    · split at h
      · exact hrest h
      · cases hfirst : chosen rich first with
        | some other =>
          rw [hfirst] at h
          exact ⟨first, List.mem_cons_self, by rw [hfirst, ← h]; rfl⟩
        | none =>
          rw [hfirst] at h
          exact hrest h

-- The first list has the choice if its item is rich, or no other list has a rich one.
theorem chosen_first {first : List α} {lists : List (List α)} {item : α}
    (h : chosen rich first = some item)
    (hrich : rich item ∨ ∀ other ∈ lists.flatten, ¬ rich other) :
    chosen rich (first ++ lists.flatten) = some item := by
  rw [chosen_append]
  split
  · exact h
  · rename_i hpoor
    have hitem : ¬ rich item := fun hitem =>
      hpoor (List.any_eq_true.mpr ⟨item, chosen_mem h, hitem⟩)
    have hothers := hrich.resolve_left hitem
    rw [if_neg ?_, h]
    · rfl
    · intro hany
      obtain ⟨other, hother, hrich⟩ := List.any_eq_true.mp hany
      exact hothers other hother hrich

theorem place_append (h : key ∈ votes.map Vote.key) (more : List (Vote κ α)) :
    place (votes ++ more) key = place votes key := by
  unfold place
  rw [List.map_append, List.idxOf_append_of_mem h]

theorem place_lt (h : key ∈ votes.map Vote.key) : place votes key < votes.length := by
  have hlt := List.idxOf_lt_length_of_mem h
  rwa [List.length_map] at hlt

theorem place_new (h : vote.key ∉ votes.map Vote.key) :
    place (votes ++ [vote]) vote.key = votes.length := by
  unfold place
  rw [List.map_append, List.idxOf_append_of_notMem h]
  simp

theorem count_old (h : vote.key ∈ entries.map Vote.key) :
    count rich entries vote =
      entries.map fun entry => if entry.key = vote.key then revise rich entry vote else entry := by
  refine if_pos (List.any_eq_true.mpr ?_)
  obtain ⟨entry, hentry, hkey⟩ := List.mem_map.mp h
  exact ⟨entry, hentry, decide_eq_true hkey⟩

theorem count_new (h : vote.key ∉ entries.map Vote.key) :
    count rich entries vote = entries ++ [vote] := by
  refine if_neg fun hany => h ?_
  obtain ⟨entry, hentry, hkey⟩ := List.any_eq_true.mp hany
  exact List.mem_map.mpr ⟨entry, hentry, of_decide_eq_true hkey⟩

theorem Tallied.key_mem (h : Tallied rich votes entries) {entry : Vote κ α}
    (hentry : entry ∈ entries) : entry.key ∈ votes.map Vote.key :=
  (h.mem entry.key).mp (List.mem_map_of_mem hentry)

-- One more vote for a key that has an entry.
theorem Tallied.count_old (h : Tallied rich votes entries)
    (hmem : vote.key ∈ entries.map Vote.key) :
    Tallied rich (votes ++ [vote]) (count rich entries vote) := by
  have hvotes : vote.key ∈ votes.map Vote.key := (h.mem vote.key).mp hmem
  rw [Collections.count_old hmem]
  have hkey : ∀ entry : Vote κ α,
      (if entry.key = vote.key then revise rich entry vote else entry).key = entry.key := by
    intro entry
    split <;> rfl
  refine ⟨fun key => ?_, ?_, fun entry hentry => ?_, fun entry hentry => ?_⟩
  · have hsame : ((fun entry => (if entry.key = vote.key then revise rich entry vote else entry).key) :
        Vote κ α → κ) = Vote.key := funext hkey
    rw [List.map_map]
    change key ∈ entries.map (fun entry => (if entry.key = vote.key then revise rich entry vote
      else entry).key) ↔ _
    rw [hsame, h.mem, List.map_append, List.mem_append, List.map_singleton, List.mem_singleton]
    constructor
    · exact Or.inl
    · rintro (hold | rfl)
      · exact hold
      · exact hvotes
  · refine List.pairwise_map.mpr (h.order.imp_of_mem fun {a b} ha hb hlt => ?_)
    rw [hkey, hkey, place_append (h.key_mem ha), place_append (h.key_mem hb)]
    exact hlt
  · obtain ⟨old, hold, rfl⟩ := List.mem_map.mp hentry
    rw [hkey, total_append, total_single, ← h.weight old hold]
    by_cases hsame : old.key = vote.key
    · rw [if_pos hsame, if_pos hsame.symm]
      rfl
    · rw [if_neg hsame, if_neg (Ne.symm hsame), add_zero]
  · obtain ⟨old, hold, rfl⟩ := List.mem_map.mp hentry
    rw [hkey, itemsOf_append, itemsOf_single]
    by_cases hsame : old.key = vote.key
    · rw [if_pos hsame, if_pos hsame.symm, chosen_append_single (h.item old hold)]
      rfl
    · rw [if_neg hsame, if_neg (Ne.symm hsame), List.append_nil]
      exact h.item old hold

-- And one for a key that has none.
theorem Tallied.count_new (h : Tallied rich votes entries)
    (hmem : vote.key ∉ entries.map Vote.key) :
    Tallied rich (votes ++ [vote]) (count rich entries vote) := by
  have hvotes : vote.key ∉ votes.map Vote.key := fun hkey => hmem ((h.mem vote.key).mpr hkey)
  have hother : ∀ entry ∈ entries, entry.key ≠ vote.key :=
    fun entry hentry heq => hmem (heq ▸ List.mem_map_of_mem hentry)
  rw [Collections.count_new hmem]
  refine ⟨fun key => ?_, ?_, fun entry hentry => ?_, fun entry hentry => ?_⟩
  · rw [List.map_append, List.map_append, List.mem_append, List.mem_append, h.mem]
  · refine List.pairwise_append.mpr ⟨?_, List.pairwise_singleton _ _, fun a ha b hb => ?_⟩
    · refine h.order.imp_of_mem fun {a b} ha hb hlt => ?_
      rw [place_append (h.key_mem ha), place_append (h.key_mem hb)]
      exact hlt
    · rw [List.mem_singleton.mp hb, place_append (h.key_mem ha), place_new hvotes]
      exact place_lt (h.key_mem ha)
  · rw [total_append, total_single]
    obtain hold | hnew := List.mem_append.mp hentry
    · rw [if_neg (Ne.symm (hother entry hold)), add_zero]
      exact h.weight entry hold
    · obtain rfl := List.mem_singleton.mp hnew
      have hzero : total votes entry.key = 0 := by
        have hnone := itemsOf_eq_nil.mpr hvotes
        unfold itemsOf at hnone
        unfold total
        rw [List.map_eq_nil_iff.mp hnone]
        rfl
      rw [hzero, if_pos rfl, zero_add]
  · rw [itemsOf_append, itemsOf_single]
    obtain hold | hnew := List.mem_append.mp hentry
    · rw [if_neg (Ne.symm (hother entry hold)), List.append_nil]
      exact h.item entry hold
    · obtain rfl := List.mem_singleton.mp hnew
      rw [itemsOf_eq_nil.mpr hvotes, if_pos rfl]
      by_cases hrich : rich entry.item <;> simp [chosen, hrich]

theorem Tallied.count (h : Tallied rich votes entries) (vote : Vote κ α) :
    Tallied rich (votes ++ [vote]) (count rich entries vote) := by
  by_cases hmem : vote.key ∈ entries.map Vote.key
  · exact h.count_old hmem
  · exact h.count_new hmem

-- All the votes of a poll.
theorem tallied_foldl (votes : List (Vote κ α)) :
    Tallied rich votes (votes.foldl (Collections.count rich) []) := by
  induction votes using List.reverseRecOn with
  | nil => exact tallied_nil rich
  | append_singleton votes vote ih =>
    rw [List.foldl_append]
    exact ih.count vote

theorem Tallied.nodup (h : Tallied rich votes entries) : (entries.map Vote.key).Nodup := by
  refine List.pairwise_map.mpr (h.order.imp fun {a b} hlt heq => ?_)
  rw [heq] at hlt
  exact Nat.lt_irrefl _ hlt

theorem Tallied.eq_of_key (h : Tallied rich votes entries) {a b : Vote κ α} (ha : a ∈ entries)
    (hb : b ∈ entries) (hkey : a.key = b.key) : a = b :=
  List.inj_on_of_nodup_map h.nodup ha hb hkey

end Tally

-- What stands first in the joined lists stands first in one of them.
theorem idxOf_flatten {κ : Type} [DecidableEq κ] {lists : List (List κ)} {a b : κ}
    (h : lists.flatten.idxOf a < lists.flatten.idxOf b) :
    ∃ keys ∈ lists, keys.idxOf a < keys.idxOf b := by
  induction lists with
  | nil => exact absurd h (Nat.lt_irrefl _)
  | cons keys lists ih =>
    rw [List.flatten_cons] at h
    have hrest : lists.flatten.idxOf a < lists.flatten.idxOf b → ∃ keys' ∈ keys :: lists,
        keys'.idxOf a < keys'.idxOf b := by
      intro hlt
      obtain ⟨keys', hkeys, hbefore⟩ := ih hlt
      exact ⟨keys', List.mem_cons_of_mem keys hkeys, hbefore⟩
    by_cases ha : a ∈ keys
    · refine ⟨keys, List.mem_cons_self, ?_⟩
      rw [List.idxOf_append_of_mem ha] at h
      by_cases hb : b ∈ keys
      · rwa [List.idxOf_append_of_mem hb] at h
      · rw [List.idxOf_eq_length hb]
        exact List.idxOf_lt_length_of_mem ha
    · rw [List.idxOf_append_of_notMem ha] at h
      by_cases hb : b ∈ keys
      · have hlt := List.idxOf_lt_length_of_mem hb
        rw [List.idxOf_append_of_mem hb] at h
        omega
      · rw [List.idxOf_append_of_notMem hb] at h
        exact hrest (by omega)

theorem idxOf_append_lt {κ : Type} [DecidableEq κ] {keys : List κ} {a b : κ}
    (h : keys.idxOf a < keys.idxOf b) (more : List κ) :
    (keys ++ more).idxOf a < (keys ++ more).idxOf b := by
  have ha : a ∈ keys := by
    by_contra hnot
    have hle := List.idxOf_le_length (a := b) (l := keys)
    rw [List.idxOf_eq_length hnot] at h
    omega
  rw [List.idxOf_append_of_mem ha]
  by_cases hb : b ∈ keys
  · rwa [List.idxOf_append_of_mem hb]
  · have hlt := List.idxOf_lt_length_of_mem ha
    rw [List.idxOf_append_of_notMem hb]
    omega

-- Where no part exceeds its bound, the sums agree if all parts do.
theorem sum_eq_iff {β : Type} {f g : β → ℚ} {l : List β} (h : ∀ a ∈ l, f a ≤ g a) :
    (l.map g).sum = (l.map f).sum ↔ ∀ a ∈ l, g a = f a := by
  induction l with
  | nil => simp
  | cons a l ih =>
    have ha := h a List.mem_cons_self
    have hl : ∀ b ∈ l, f b ≤ g b := fun b hb => h b (List.mem_cons_of_mem a hb)
    have hsum : (l.map f).sum ≤ (l.map g).sum := List.sum_le_sum hl
    rw [List.map_cons, List.map_cons, List.sum_cons, List.sum_cons, List.forall_mem_cons, ← ih hl]
    constructor
    · intro heq
      constructor <;> linarith
    · rintro ⟨hfirst, hrest⟩
      rw [hfirst, hrest]

-- A sort keeps the order of items that it does not tell apart.
section Stable

variable {α : Type} {r P : α → α → Prop} [DecidableRel r]

theorem orderedInsert_stable (htotal : ∀ a b, r a b ∨ r b a)
    (htrans : ∀ a b c, r a b → r b c → r a c) {s : List α} {a : α}
    (hs : s.Pairwise fun x y => r x y ∧ (r y x → P x y)) (ha : ∀ b ∈ s, P a b) :
    (s.orderedInsert r a).Pairwise fun x y => r x y ∧ (r y x → P x y) := by
  induction s with
  | nil => exact List.pairwise_singleton _ a
  | cons b s ih =>
    obtain ⟨hb, hrest⟩ := List.pairwise_cons.mp hs
    rw [List.orderedInsert_cons]
    by_cases hab : r a b
    · rw [if_pos hab]
      refine List.pairwise_cons.mpr ⟨fun c hc => ⟨?_, fun _ => ha c hc⟩, hs⟩
      obtain rfl | hmem := List.mem_cons.mp hc
      · exact hab
      · exact htrans a b c hab (hb c hmem).1
    · rw [if_neg hab]
      refine List.pairwise_cons.mpr ⟨fun c hc => ?_, ih hrest fun c hc => ha c (List.mem_cons_of_mem b hc)⟩
      obtain rfl | hmem := (List.mem_orderedInsert r).mp hc
      · exact ⟨(htotal c b).resolve_left hab, fun h => absurd h hab⟩
      · exact hb c hmem

theorem insertionSort_stable (htotal : ∀ a b, r a b ∨ r b a)
    (htrans : ∀ a b c, r a b → r b c → r a c) {l : List α} (h : l.Pairwise P) :
    (l.insertionSort r).Pairwise fun x y => r x y ∧ (r y x → P x y) := by
  induction l with
  | nil => exact List.Pairwise.nil
  | cons a l ih =>
    obtain ⟨ha, hrest⟩ := List.pairwise_cons.mp h
    rw [List.insertionSort_cons]
    exact orderedInsert_stable htotal htrans (ih hrest)
      fun b hb => ha b ((List.mem_insertionSort r).mp hb)

end Stable

end AgentBoilerplate.Collections
