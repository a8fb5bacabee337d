import AgentBoilerplate.Collections.Window
import Mathlib.Data.List.Nodup
import Mathlib.Data.List.Range
import Mathlib.Data.List.Perm.Subperm

-- A counter that is dropped when it has not been hit for the length of a window.
namespace AgentBoilerplate.Collections.Expiring

open Window

-- A count, with the last instant at which it is still there.
abbrev Counter := Nat × Nat

def live (current : Option Counter) (now : Nat) : Nat :=
  match current with
  | none => 0
  | some (count, expiry) => if now ≤ expiry then count else 0

-- A hit within the length of a window of another has a larger number.
def Rising (length : Nat) (hits : List Hit) : Prop :=
  hits.Pairwise fun earlier later => later.1 ≤ earlier.1 + length → earlier.2 < later.2

-- What a counter knows of the hits it has numbered, up to an instant: it has counted
-- past every hit that is not yet a window old.
structure Tracks (length : Nat) (past : List Hit) (current : Option Counter) (last : Nat) :
    Prop where
  rising : Rising length past
  positive : ∀ h ∈ past, 1 ≤ h.2
  before : ∀ h ∈ past, h.1 ≤ last
  kept : ∀ h ∈ past, last ≤ h.1 + length →
    ∃ count expiry, current = some (count, expiry) ∧ h.2 ≤ count ∧ h.1 + length ≤ expiry

variable {length : Nat} {past : List Hit} {current : Option Counter} {last now : Nat}

theorem Tracks.start : Tracks length [] current last :=
  ⟨List.Pairwise.nil, by simp, by simp, by simp⟩

theorem Tracks.later (h : Tracks length past current last) (hnow : last ≤ now) :
    Tracks length past current now :=
  ⟨h.rising, h.positive, fun hit hmem => Nat.le_trans (h.before hit hmem) hnow,
    fun hit hmem hrecent => h.kept hit hmem (Nat.le_trans hnow hrecent)⟩

theorem Tracks.le_live (h : Tracks length past current now) {hit : Hit} (hmem : hit ∈ past)
    (hrecent : now ≤ hit.1 + length) : hit.2 ≤ live current now := by
  obtain ⟨count, expiry, rfl, hle, hexpiry⟩ := h.kept hit hmem hrecent
  have hlive : now ≤ expiry := Nat.le_trans hrecent hexpiry
  simpa [live, hlive] using hle

-- Nothing is lost when the counter does not go down and is kept for another window.
theorem Tracks.write (h : Tracks length past current now) {count : Nat}
    (hcount : live current now ≤ count) :
    Tracks length past (some (count, now + length)) now := by
  refine ⟨h.rising, h.positive, h.before, fun hit hmem hrecent => ?_⟩
  have hbefore := h.before hit hmem
  exact ⟨count, now + length, rfl, Nat.le_trans (h.le_live hmem hrecent) hcount, by omega⟩

-- The next hit is numbered after those that it may be told from.
theorem Tracks.number (h : Tracks length past current now) :
    Tracks length (past ++ [(now, live current now + 1)])
      (some (live current now + 1, now + length)) now := by
  have hwrite := h.write (Nat.le_succ (live current now))
  refine ⟨?_, ?_, ?_, ?_⟩
  · refine List.pairwise_append.mpr ⟨h.rising, List.pairwise_singleton _ _, ?_⟩
    intro hit hmem new hnew hrecent
    obtain rfl := List.mem_singleton.mp hnew
    exact Nat.lt_succ_of_le (h.le_live hmem hrecent)
  · intro hit hmem
    rcases List.mem_append.mp hmem with hold | hnew
    · exact h.positive hit hold
    · obtain rfl := List.mem_singleton.mp hnew
      exact Nat.le_add_left 1 _
  · intro hit hmem
    rcases List.mem_append.mp hmem with hold | hnew
    · exact h.before hit hold
    · obtain rfl := List.mem_singleton.mp hnew
      exact Nat.le_refl now
  · intro hit hmem hrecent
    rcases List.mem_append.mp hmem with hold | hnew
    · exact hwrite.kept hit hold hrecent
    · obtain rfl := List.mem_singleton.mp hnew
      exact ⟨_, _, rfl, Nat.le_refl _, Nat.le_refl _⟩

-- Rising numbers from one on: as many as the limit, at most.
theorem length_le_of_increasing {max : Nat} {numbers : List Nat} (h : numbers.Pairwise (· < ·))
    (hbound : ∀ n ∈ numbers, 1 ≤ n ∧ n ≤ max) : numbers.length ≤ max := by
  have hnodup : numbers.Nodup := h.imp Nat.ne_of_lt
  have hsubset : numbers ⊆ List.range' 1 max := by
    intro n hn
    have hn := hbound n hn
    exact List.mem_range'_1.mpr ⟨hn.1, by omega⟩
  simpa using (hnodup.subperm hsubset).length_le

-- No more hits are numbered within a limit, in any interval of the length of a window,
-- than the limit.
theorem Tracks.within_le (h : Tracks length past current last) (max t : Nat) :
    within (length + 1) max t past ≤ max := by
  unfold within
  rw [List.countP_eq_length_filter, ← List.length_map Prod.snd]
  refine length_le_of_increasing ?_ ?_
  · refine List.pairwise_map.mpr ?_
    refine (h.rising.filter _).imp_of_mem fun hearlier hlater hrising => ?_
    have hearlier := of_decide_eq_true (List.mem_filter.mp hearlier).2
    have hlater := of_decide_eq_true (List.mem_filter.mp hlater).2
    exact hrising (by omega)
  · intro n hn
    obtain ⟨hit, hmem, rfl⟩ := List.mem_map.mp hn
    obtain ⟨hpast, hin⟩ := List.mem_filter.mp hmem
    exact ⟨h.positive hit hpast, (of_decide_eq_true hin).2.2⟩

end AgentBoilerplate.Collections.Expiring
