import Mathlib.Data.List.Count
import Mathlib.Tactic.Common

namespace AgentBoilerplate.Collections.Window

-- A hit: its time, and its number in its window.
abbrev Hit := Nat × Nat

variable (length : Nat)

-- A window begins at the first hit after the previous one has ended. `current` is the
-- start of the last window, and the number of its hits.
def hit (current : Option (Nat × Nat)) (now : Nat) : Nat × Nat :=
  match current with
  | none => (now, 1)
  | some (start, hits) => if now < start + length then (start, hits + 1) else (now, 1)

-- All hits at some times, numbered.
def numbered (current : Option (Nat × Nat)) : List Nat → List Hit
  | [] => []
  | now :: times => (now, (hit length current now).2) :: numbered (some (hit length current now)) times

-- The hits that a limit allows, from a time on, and in the interval of the length of a
-- window that begins then.
def since (max t : Nat) (hits : List Hit) : Nat := hits.countP fun h => t ≤ h.1 ∧ h.2 ≤ max

def within (max t : Nat) (hits : List Hit) : Nat :=
  hits.countP fun h => t ≤ h.1 ∧ h.1 < t + length ∧ h.2 ≤ max

variable {length} {max : Nat} {past : List Hit}

theorem since_append (t now number : Nat) :
    since max t (past ++ [(now, number)]) =
      since max t past + if t ≤ now ∧ number ≤ max then 1 else 0 := by
  unfold since
  rw [List.countP_append, List.countP_singleton]
  simp only [decide_eq_true_eq]

theorem within_append (t now number : Nat) :
    within length max t (past ++ [(now, number)]) =
      within length max t past + if t ≤ now ∧ now < t + length ∧ number ≤ max then 1 else 0 := by
  unfold within
  rw [List.countP_append, List.countP_singleton]
  simp only [decide_eq_true_eq]

theorem within_le_since (t : Nat) : within length max t past ≤ since max t past := by
  refine List.countP_mono_left fun h _ hin => ?_
  simp only [decide_eq_true_eq] at hin ⊢
  exact ⟨hin.1, hin.2.2⟩

theorem since_anti {t later : Nat} (h : t ≤ later) : since max later past ≤ since max t past := by
  refine List.countP_mono_left fun h' _ hin => ?_
  simp only [decide_eq_true_eq] at hin ⊢
  exact ⟨by omega, hin.2⟩

-- What holds after every hit, where the last window has `hits` of them from `start` on.
structure Paced (length max : Nat) (past : List Hit) (start hits : Nat) : Prop where
  before : ∀ h ∈ past, h.1 < start + length
  current : since max start past ≤ min hits max
  recent : ∀ t, start ≤ t + length → since max t past ≤ max + min hits max
  ever : ∀ t, within length max t past ≤ 2 * max

-- One more hit in the same window.
theorem Paced.same {start hits now : Nat} (h : Paced length max past start hits) (hstart : start ≤ now)
    (hnow : now < start + length) :
    Paced length max (past ++ [(now, hits + 1)]) start (hits + 1) := by
  have hcurrent := h.current
  have hrecent : ∀ t, start ≤ t + length →
      since max t (past ++ [(now, hits + 1)]) ≤ max + min (hits + 1) max := by
    intro t ht
    have hbefore := h.recent t ht
    rw [since_append]
    split <;> omega
  refine ⟨fun h' hh' => ?_, ?_, hrecent, fun t => ?_⟩
  · obtain hold | hnew := List.mem_append.mp hh'
    · exact h.before h' hold
    · rw [List.mem_singleton.mp hnew]
      exact hnow
  · rw [since_append]
    split <;> omega
  · by_cases ht : start ≤ t + length
    · have hwithin := @within_le_since length max (past ++ [(now, hits + 1)]) t
      have hsince := hrecent t ht
      omega
    · have hever := h.ever t
      rw [within_append, if_neg (by omega)]
      exact hever

-- The first hit of a new window: the hits of the last one are the only ones that are
-- less than a window ago.
theorem Paced.fresh {start hits now : Nat} (hlength : 0 < length) (h : Paced length max past start hits)
    (hnow : start + length ≤ now) : Paced length max (past ++ [(now, 1)]) now 1 := by
  have hcurrent := h.current
  have hrecent : ∀ t, now ≤ t + length →
      since max t (past ++ [(now, 1)]) ≤ max + min 1 max := by
    intro t ht
    have hbefore : since max t past ≤ since max start past := since_anti (by omega)
    rw [since_append]
    split <;> omega
  have hpast : since max now past = 0 := by
    refine List.countP_eq_zero.mpr fun h' hh' hin => ?_
    have hbefore := h.before h' hh'
    have hlate := of_decide_eq_true hin
    omega
  refine ⟨fun h' hh' => ?_, ?_, hrecent, fun t => ?_⟩
  · obtain hold | hnew := List.mem_append.mp hh'
    · have hbefore := h.before h' hold
      omega
    · rw [List.mem_singleton.mp hnew]
      exact Nat.lt_add_of_pos_right hlength
  · rw [since_append, hpast]
    split <;> omega
  · by_cases ht : now < t + length
    · have hwithin := @within_le_since length max (past ++ [(now, 1)]) t
      have hsince := hrecent t (by omega)
      omega
    · have hever := h.ever t
      rw [within_append, if_neg (by omega)]
      exact hever

-- The very first hit.
theorem paced_first {now : Nat} (hlength : 0 < length) : Paced length max [(now, 1)] now 1 := by
  have hsince : ∀ t, since max t [(now, 1)] ≤ min 1 max := by
    intro t
    have happend := @since_append max [] t now 1
    have hnil : since max t [] = 0 := rfl
    rw [List.nil_append, hnil] at happend
    rw [happend]
    split <;> omega
  refine ⟨fun h hh => ?_, hsince now, fun t _ => ?_, fun t => ?_⟩
  · rw [List.mem_singleton.mp hh]
    exact Nat.lt_add_of_pos_right hlength
  · have hle := hsince t
    omega
  · have hle := hsince t
    have hwithin := @within_le_since length max [(now, 1)] t
    omega

theorem Paced.hit {start hits now : Nat} (hlength : 0 < length) (h : Paced length max past start hits)
    (hstart : start ≤ now) :
    Paced length max (past ++ [(now, (hit length (some (start, hits)) now).2)])
      (hit length (some (start, hits)) now).1 (hit length (some (start, hits)) now).2 := by
  unfold Window.hit
  dsimp only
  by_cases hnow : now < start + length
  · rw [if_pos hnow]
    exact h.same hstart hnow
  · rw [if_neg hnow]
    exact h.fresh hlength (by omega)

theorem hit_start {current : Option (Nat × Nat)} {now : Nat}
    (h : ∀ window ∈ current, window.1 ≤ now) : (hit length current now).1 ≤ now := by
  unfold hit
  cases current with
  | none => exact Nat.le_refl now
  | some window =>
    have hstart := h window rfl
    dsimp only
    split
    · exact hstart
    · exact Nat.le_refl now

-- All hits from a window on.
theorem Paced.numbered (hlength : 0 < length) {times : List Nat} {start hits : Nat}
    (h : Paced length max past start hits) (hstart : ∀ now ∈ times, start ≤ now)
    (hsorted : times.Pairwise (· ≤ ·)) (t : Nat) :
    within length max t (past ++ numbered length (some (start, hits)) times) ≤ 2 * max := by
  induction times generalizing past start hits with
  | nil =>
    unfold Window.numbered
    rw [List.append_nil]
    exact h.ever t
  | cons now times ih =>
    obtain ⟨hfirst, hrest⟩ := List.pairwise_cons.mp hsorted
    have hnow := hstart now List.mem_cons_self
    have hnext := @ih _ _ _ (h.hit hlength hnow)
      (fun later hlater => Nat.le_trans (hit_start (by simpa using hnow)) (hfirst later hlater)) hrest
    unfold Window.numbered
    rw [List.append_assoc] at hnext
    exact hnext

-- No interval of the length of a window has more than twice the hits that one window
-- is allowed.
theorem within_numbered (max : Nat) {times : List Nat} (hsorted : times.Pairwise (· ≤ ·)) (t : Nat) :
    within length max t (numbered length none times) ≤ 2 * max := by
  by_cases hlength : 0 < length
  · cases times with
    | nil => exact Nat.zero_le _
    | cons now times =>
      obtain ⟨hfirst, hrest⟩ := List.pairwise_cons.mp hsorted
      exact (paced_first hlength).numbered hlength hfirst hrest t
  · have hnone : within length max t (numbered length none times) = 0 := by
      refine List.countP_eq_zero.mpr fun h _ hin => ?_
      have hout := of_decide_eq_true hin
      omega
    omega

-- The numbers of a window begin with one.
theorem numbered_below {current : Option (Nat × Nat)} {times : List Nat} {number below : Nat}
    (h : number ∈ (numbered length current times).map Prod.snd) (hpos : 0 < below)
    (hle : below ≤ number) :
    below ∈ (numbered length current times).map Prod.snd ∨ ∃ window ∈ current, below ≤ window.2 := by
  induction times generalizing current with
  | nil => cases h
  | cons now times ih =>
    have hfirst : below ≤ (hit length current now).2 →
        below = (hit length current now).2 ∨ ∃ window ∈ current, below ≤ window.2 := by
      unfold hit
      cases current with
      | none =>
        intro hone
        exact Or.inl (Nat.le_antisymm hone hpos)
      | some window =>
        dsimp only
        split
        · intro hnext
          by_cases heq : below = window.2 + 1
          · exact Or.inl heq
          · exact Or.inr ⟨window, rfl, by dsimp only at hnext; omega⟩
        · intro hone
          exact Or.inl (Nat.le_antisymm hone hpos)
    have hbelow : below ≤ (hit length current now).2 →
        below ∈ (numbered length current (now :: times)).map Prod.snd ∨
          ∃ window ∈ current, below ≤ window.2 := by
      intro hnext
      obtain heq | hwindow := hfirst hnext
      · exact Or.inl (List.mem_cons.mpr (Or.inl heq))
      · exact Or.inr hwindow
    obtain heq | hrest := List.mem_cons.mp h
    · exact hbelow (by rw [← heq]; exact hle)
    · obtain hlater | ⟨window, hwindow, hin⟩ := ih hrest
      · exact Or.inl (List.mem_cons_of_mem _ hlater)
      · rw [← Option.some.inj hwindow] at hin
        exact hbelow hin

-- No number exceeds the number of all hits.
theorem numbered_le {current : Option (Nat × Nat)} {times : List Nat} {h : Hit}
    (hin : h ∈ numbered length current times) : h.2 ≤ (current.elim 0 Prod.snd) + times.length := by
  induction times generalizing current with
  | nil => cases hin
  | cons now times ih =>
    have hfirst : (hit length current now).2 ≤ current.elim 0 Prod.snd + 1 := by
      unfold hit
      cases current with
      | none => exact Nat.le_refl 1
      | some window =>
        dsimp only [Option.elim]
        split
        · exact Nat.le_refl _
        · exact Nat.le_add_left 1 _
    rw [List.length_cons]
    obtain rfl | hrest := List.mem_cons.mp hin
    · dsimp only
      omega
    · have hlater := ih hrest
      dsimp only [Option.elim] at hlater
      omega

-- All hits at one time are in one window.
theorem numbered_replicate (hlength : 0 < length) (now hits n : Nat) :
    (now, hits + n + 1) ∈ numbered length (some (now, hits)) (List.replicate (n + 1) now) := by
  have hsame : ∀ hits, hit length (some (now, hits)) now = (now, hits + 1) := fun hits =>
    if_pos (Nat.lt_add_of_pos_right hlength)
  induction n generalizing hits with
  | zero =>
    rw [List.replicate_succ]
    unfold numbered
    rw [hsame]
    exact List.mem_cons_self
  | succ n ih =>
    have hnext := ih (hits + 1)
    rw [List.replicate_succ]
    unfold numbered
    rw [hsame]
    refine List.mem_cons_of_mem _ ?_
    rw [show hits + (n + 1) + 1 = hits + 1 + n + 1 by omega]
    exact hnext

theorem numbered_flood (hlength : 0 < length) (now n : Nat) :
    (now, n + 1) ∈ numbered length none (List.replicate (n + 1) now) := by
  have hsame := @numbered_replicate length hlength now 0 n
  have hfirst : hit length (some (now, 0)) now = hit length none now :=
    if_pos (Nat.lt_add_of_pos_right hlength)
  rw [Nat.zero_add, List.replicate_succ] at hsame
  rw [List.replicate_succ]
  unfold numbered at hsame ⊢
  rwa [hfirst] at hsame

end AgentBoilerplate.Collections.Window
