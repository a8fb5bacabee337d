import AgentBoilerplate.Python.Lemmas
import Mathlib.Data.List.Chain
import Mathlib.Order.Interval.Finset.Nat

namespace AgentBoilerplate.Python.Str

-- `str.split` without a separator.
def words (s : List Char) : List (List Char) := (s.splitOnP isSpace).filter fun word => !word.isEmpty

-- `s[start:stop]`, for bounds that are not negative.
def slice (s : List Char) (start stop : Nat) : List Char := (s.take stop).drop start

-- `str.rfind` of one character in `s[start:stop]`; its `-1` is `none` here.
def rfind (c : Char) (s : List Char) (start : Nat) : Nat → Option Nat
  | 0 => none
  | stop + 1 =>
      if stop < start then none
      else if s[stop]? = some c then some stop
      else rfind c s start stop

end AgentBoilerplate.Python.Str

namespace AgentBoilerplate.Agent

open Python

-- The whitespace-normalized text.
def normalized (content : String) : List Char := [' '].intercalate (Str.words content.toList)

-- Where the window that begins at `start` ends: at the last space inside, unless it
-- reaches the end of the text.
def windowEnd (text : List Char) (size start : Nat) : Nat :=
  let stop := min (start + size) text.length
  if stop < text.length then
    match Str.rfind ' ' text start stop with
    | some space => if space > start then space else stop
    | none => stop
  else
    stop

-- The windows of the loop, each with its `start` and its `end`.
def windows (text : List Char) (size overlap start : Nat) : List (Nat × Nat) :=
  if start < text.length then
    let stop := windowEnd text size start
    if stop ≥ text.length then
      [(start, stop)]
    else
      (start, stop) :: windows text size overlap (max (stop - overlap) (start + 1))
  else
    []
termination_by text.length - start

def chunkAt (text : List Char) (window : Nat × Nat) : List Char :=
  Str.strip Str.isSpace (Str.slice text window.1 window.2)

-- The overlap of windows that have the given size.
def clampOverlap (overlap size : Int) : Nat := (max 0 (min overlap (size - 1))).toNat

def chunkText (content : String) (size : Int := 1000) (overlap : Int := 150) : List String :=
  let text := normalized content
  if text.isEmpty then
    []
  else if size ≤ 0 then
    [String.ofList text]
  else
    let chunks := (windows text size.toNat (clampOverlap overlap size) 0).map (chunkAt text)
    (chunks.filter fun chunk => !chunk.isEmpty).map String.ofList

theorem rfind_some {c : Char} {s : List Char} {start stop i : Nat}
    (h : Str.rfind c s start stop = some i) :
    start ≤ i ∧ i < stop ∧ s[i]? = some c ∧ ∀ j, i < j → j < stop → s[j]? ≠ some c := by
  induction stop with
  | zero => cases h
  | succ stop ih =>
    unfold Str.rfind at h
    by_cases hstart : stop < start
    · rw [if_pos hstart] at h
      cases h
    · rw [if_neg hstart] at h
      by_cases hchar : s[stop]? = some c
      · rw [if_pos hchar] at h
        cases h
        exact ⟨by omega, by omega, hchar, fun j hij hj => by omega⟩
      · rw [if_neg hchar] at h
        obtain ⟨hlow, hhigh, hfound, hlast⟩ := ih h
        refine ⟨hlow, by omega, hfound, fun j hij hj => ?_⟩
        by_cases heq : j = stop
        · rw [heq]
          exact hchar
        · exact hlast j hij (by omega)

theorem rfind_none {c : Char} {s : List Char} {start stop : Nat}
    (h : Str.rfind c s start stop = none) : ∀ j, start ≤ j → j < stop → s[j]? ≠ some c := by
  induction stop with
  | zero => exact fun j _ hj => by omega
  | succ stop ih =>
    intro j hstart hj
    unfold Str.rfind at h
    by_cases hout : stop < start
    · omega
    · rw [if_neg hout] at h
      by_cases hchar : s[stop]? = some c
      · rw [if_pos hchar] at h
        cases h
      · rw [if_neg hchar] at h
        by_cases heq : j = stop
        · rw [heq]
          exact hchar
        · exact ih h j hstart (by omega)

section Windows

variable {text : List Char} {size overlap start : Nat}

-- No space in a stretch of the text, whose bounds are left out.
def Unbroken (text : List Char) (low high : Nat) : Prop := ∀ i, low < i → i < high → text[i]? ≠ some ' '

-- The last window ends with the text. Another one is cut back to its last space, or
-- has its full size if there is none.
theorem windowEnd_cases (text : List Char) (size start : Nat) :
    (text.length ≤ start + size ∧ windowEnd text size start = text.length) ∨
      (start + size < text.length ∧ windowEnd text size start = start + size ∧
        Unbroken text start (start + size)) ∨
      (start + size < text.length ∧ start < windowEnd text size start ∧
        windowEnd text size start < start + size ∧ text[windowEnd text size start]? = some ' ' ∧
        Unbroken text (windowEnd text size start) (start + size)) := by
  unfold windowEnd
  dsimp only
  by_cases hlast : text.length ≤ start + size
  · rw [min_eq_right hlast, if_neg (Nat.lt_irrefl _)]
    exact Or.inl ⟨hlast, rfl⟩
  · have hlt : start + size < text.length := by omega
    rw [min_eq_left hlt.le, if_pos hlt]
    refine Or.inr ?_
    cases hfind : Str.rfind ' ' text start (start + size) with
    | none => exact Or.inl ⟨hlt, rfl, fun i hlow hhigh => rfind_none hfind i hlow.le hhigh⟩
    | some space =>
      obtain ⟨hlow, hhigh, hspace, hafter⟩ := rfind_some hfind
      dsimp only
      by_cases hinside : space > start
      · rw [if_pos hinside]
        exact Or.inr ⟨hlt, hinside, hhigh, hspace, hafter⟩
      · rw [if_neg hinside]
        exact Or.inl ⟨hlt, rfl, fun i hi hi' => hafter i (by omega) hi'⟩

theorem windowEnd_bounds (hsize : 1 ≤ size) (hstart : start < text.length) :
    start < windowEnd text size start ∧ windowEnd text size start ≤ start + size ∧
      windowEnd text size start ≤ text.length := by
  have hcases := windowEnd_cases text size start
  omega

-- The windows overlap, and the later one does not end before the earlier one.
theorem windowEnd_le (hend : windowEnd text size start < text.length) :
    windowEnd text size start ≤
      windowEnd text size (max (windowEnd text size start - overlap) (start + 1)) := by
  have hnext : start + 1 ≤ max (windowEnd text size start - overlap) (start + 1) := le_max_right _ _
  have hle : max (windowEnd text size start - overlap) (start + 1) ≤
      max (windowEnd text size start) (start + 1) := max_le_max (Nat.sub_le _ _) (le_refl _)
  generalize max (windowEnd text size start - overlap) (start + 1) = next at hnext hle ⊢
  rcases windowEnd_cases text size start with ⟨_, h⟩ | ⟨hlt, hfull, hclear⟩ | ⟨hlt, hlow, hhigh, hspace, hclear⟩
  · omega
  · rcases windowEnd_cases text size next with ⟨_, h⟩ | ⟨_, h, _⟩ | ⟨_, hlow', _, hspace', _⟩
    · omega
    · omega
    · by_contra hnot
      exact hclear _ (by omega) (by omega) hspace'
  · rcases windowEnd_cases text size next with ⟨_, h⟩ | ⟨_, h, _⟩ | ⟨_, hlow', _, hspace', hclear'⟩
    · omega
    · omega
    · by_contra hnot
      exact hclear' _ (by omega) (by omega) hspace

theorem windows_last (hstart : start < text.length) (hend : windowEnd text size start ≥ text.length) :
    windows text size overlap start = [(start, windowEnd text size start)] := by
  rw [windows, if_pos hstart, if_pos hend]

theorem windows_cons (hstart : start < text.length) (hend : windowEnd text size start < text.length) :
    windows text size overlap start = (start, windowEnd text size start) ::
      windows text size overlap (max (windowEnd text size start - overlap) (start + 1)) := by
  rw [windows, if_pos hstart, if_neg (by omega)]

theorem windows_head (hstart : start < text.length) :
    ∃ rest, windows text size overlap start = (start, windowEnd text size start) :: rest := by
  by_cases hend : windowEnd text size start < text.length
  · exact ⟨_, windows_cons hstart hend⟩
  · exact ⟨[], windows_last hstart (by omega)⟩

theorem windows_end (hstart : ¬ start < text.length) : windows text size overlap start = [] := by
  rw [windows, if_neg hstart]

theorem next_bounds (hsize : 1 ≤ size) (hstart : start < text.length) :
    start < max (windowEnd text size start - overlap) (start + 1) ∧
      max (windowEnd text size start - overlap) (start + 1) ≤ windowEnd text size start := by
  have hbounds := windowEnd_bounds hsize hstart
  omega

-- The induction over the turns of the loop.
theorem windows_induct {P : Nat → List (Nat × Nat) → Prop} (hsize : 1 ≤ size)
    (hdone : ∀ start, ¬ start < text.length → P start [])
    (hlast : ∀ start, start < text.length → windowEnd text size start ≥ text.length →
      P start [(start, windowEnd text size start)])
    (hnext : ∀ start next rest, start < text.length → windowEnd text size start < text.length →
      next = max (windowEnd text size start - overlap) (start + 1) →
      P next ((next, windowEnd text size next) :: rest) →
      P start ((start, windowEnd text size start) :: (next, windowEnd text size next) :: rest))
    (start : Nat) : P start (windows text size overlap start) := by
  induction start using windows.induct text size overlap with
  | case1 start hstart stop hend =>
    rw [windows_last hstart hend]
    exact hlast start hstart hend
  | case2 start hstart stop hend ih =>
    have hlt : windowEnd text size start < text.length := by omega
    have hbounds := @next_bounds text size overlap start hsize hstart
    obtain ⟨rest, hrest⟩ := @windows_head text size overlap
      (max (windowEnd text size start - overlap) (start + 1)) (by omega)
    rw [windows_cons hstart hlt, hrest]
    refine hnext start _ rest hstart hlt rfl ?_
    rw [← hrest]
    exact ih
  | case3 start hstart =>
    rw [windows_end hstart]
    exact hdone start hstart

-- One window.
structure IsWindow (text : List Char) (size : Nat) (window : Nat × Nat) : Prop where
  nonempty : window.1 < window.2
  bounded : window.2 ≤ window.1 + size
  inside : window.2 ≤ text.length

-- And the one after it.
structure Follows (overlap : Nat) (window next : Nat × Nat) : Prop where
  start : next.1 = max (window.2 - overlap) (window.1 + 1)
  gapless : next.1 ≤ window.2
  stop : window.2 ≤ next.2

theorem windows_isWindow (hsize : 1 ≤ size) (start : Nat) :
    ∀ window ∈ windows text size overlap start, IsWindow text size window := by
  have hwindow : ∀ start, start < text.length → IsWindow text size (start, windowEnd text size start) := by
    intro start hstart
    obtain ⟨hlow, hhigh, hin⟩ := windowEnd_bounds hsize hstart
    exact ⟨hlow, hhigh, hin⟩
  refine windows_induct (P := fun _ windows => ∀ window ∈ windows, IsWindow text size window)
    hsize ?_ ?_ ?_ start
  · intro start hstart window hwindow
    cases hwindow
  · intro start hstart hend
    exact List.forall_mem_singleton.mpr (hwindow start hstart)
  · intro start next rest hstart hend hnext ih
    exact List.forall_mem_cons.mpr ⟨hwindow start hstart, ih⟩

theorem windows_chain (hsize : 1 ≤ size) (start : Nat) :
    (windows text size overlap start).IsChain (Follows overlap) := by
  refine windows_induct (P := fun _ windows => windows.IsChain (Follows overlap)) hsize ?_ ?_ ?_ start
  · exact fun start hstart => List.IsChain.nil
  · exact fun start hstart hend => List.IsChain.singleton _
  · intro start next rest hstart hend hnext ih
    refine List.isChain_cons_cons.mpr ⟨⟨hnext, ?_, ?_⟩, ih⟩
    · rw [hnext]
      exact (next_bounds hsize hstart).2
    · rw [hnext]
      exact windowEnd_le hend

theorem windows_gapless (hsize : 1 ≤ size) (start : Nat) {i : Nat} (hi : start ≤ i)
    (hlength : i < text.length) :
    ∃ window ∈ windows text size overlap start, window.1 ≤ i ∧ i < window.2 := by
  revert hi
  refine windows_induct (P := fun start windows => start ≤ i → ∃ window ∈ windows, window.1 ≤ i ∧ i < window.2)
    hsize ?_ ?_ ?_ start
  · intro start hstart hi
    omega
  · intro start hstart hend hi
    exact ⟨_, List.mem_singleton_self _, hi, by dsimp only; omega⟩
  · intro start next rest hstart hend hnext ih hi
    by_cases hin : i < windowEnd text size start
    · exact ⟨_, List.mem_cons_self, hi, hin⟩
    · have hbounds := @next_bounds text size overlap start hsize hstart
      obtain ⟨window, hwindow, hcovers⟩ := ih (by omega)
      exact ⟨window, List.mem_cons_of_mem _ hwindow, hcovers⟩

-- The positions that two windows share.
def shared (window next : Nat × Nat) : Nat :=
  (Finset.Ico window.1 window.2 ∩ Finset.Ico next.1 next.2).card

theorem Follows.shared_eq {window next : Nat × Nat} (h : Follows overlap window next)
    (hnonempty : window.1 < window.2) :
    shared window next = min overlap (window.2 - window.1 - 1) := by
  have hstart := h.start
  have hgapless := h.gapless
  have hstop := h.stop
  unfold shared
  rw [Finset.Ico_inter_Ico, Nat.card_Ico]
  omega

-- The start of a window after which the next window ends where it ends: its end is a
-- space within the overlap, and no space follows before the next window is full.
def Stuck (text : List Char) (size overlap start : Nat) : Prop :=
  ∃ stop, start + 1 < stop ∧ stop ≤ start + size ∧ text[stop]? = some ' ' ∧
    (stop = start + size → Unbroken text start stop) ∧ 1 ≤ overlap ∧
    max (stop - overlap) (start + 1) + size < text.length ∧
    Unbroken text stop (max (stop - overlap) (start + 1) + size)

theorem stuck_of_equal (hend : windowEnd text size start < text.length)
    (heq : windowEnd text size (max (windowEnd text size start - overlap) (start + 1)) =
      windowEnd text size start) : Stuck text size overlap start := by
  have hnext : start + 1 ≤ max (windowEnd text size start - overlap) (start + 1) := le_max_right _ _
  have hcases := windowEnd_cases text size start
  have hstop : windowEnd text size start ≤ start + size := by omega
  rcases windowEnd_cases text size (max (windowEnd text size start - overlap) (start + 1)) with
    ⟨_, h⟩ | ⟨_, h, _⟩ | ⟨hlt, hlow, hhigh, hspace, hclear⟩
  · omega
  · omega
  · rw [heq] at hlow hhigh hspace hclear
    refine ⟨windowEnd text size start, by omega, hstop, hspace, fun hfull => ?_, by omega, hlt, hclear⟩
    rcases hcases with ⟨_, h⟩ | ⟨_, _, hunbroken⟩ | ⟨_, _, h, _⟩
    · omega
    · rw [hfull]
      exact hunbroken
    · omega

theorem equal_of_stuck (h : Stuck text size overlap start) :
    windowEnd text size start < text.length ∧
      windowEnd text size (max (windowEnd text size start - overlap) (start + 1)) =
        windowEnd text size start := by
  obtain ⟨stop, hlow, hhigh, hspace, hfull, hoverlap, hlength, hclear⟩ := h
  have hnext : start + 1 ≤ max (stop - overlap) (start + 1) := le_max_right _ _
  have hbefore : max (stop - overlap) (start + 1) < stop := by omega
  -- The window ends at this space.
  have hend : windowEnd text size start = stop := by
    rcases windowEnd_cases text size start with
      ⟨_, h⟩ | ⟨_, h, hunbroken⟩ | ⟨_, hstart, hstop, hspace', hunbroken⟩
    · omega
    · by_contra hne
      exact hunbroken stop (by omega) (by omega) hspace
    · by_contra hne
      by_cases hlast : stop = start + size
      · exact hfull hlast _ hstart (by omega) hspace'
      · by_cases horder : windowEnd text size start < stop
        · exact hunbroken stop horder (by omega) hspace
        · exact hclear _ (by omega) (by omega) hspace'
  rw [hend]
  refine ⟨by omega, ?_⟩
  generalize max (stop - overlap) (start + 1) = next at hnext hbefore hlength hclear ⊢
  -- So does the next one.
  rcases windowEnd_cases text size next with ⟨_, h⟩ | ⟨_, h, hunbroken⟩ | ⟨_, hstart, hstop, hspace', hunbroken⟩
  · omega
  · exact absurd hspace (hunbroken stop hbefore (by omega))
  · by_contra hne
    by_cases horder : windowEnd text size next < stop
    · exact hunbroken stop horder (by omega) hspace
    · exact hclear _ (by omega) (by omega) hspace'

-- The ends increase as long as no window is stuck.
theorem ends_increase_iff (hsize : 1 ≤ size) (start : Nat) :
    (windows text size overlap start).IsChain (fun window next => window.2 < next.2) ↔
      ∀ window ∈ windows text size overlap start, ¬ Stuck text size overlap window.1 := by
  refine windows_induct (P := fun _ windows => windows.IsChain (fun window next => window.2 < next.2) ↔
    ∀ window ∈ windows, ¬ Stuck text size overlap window.1) hsize ?_ ?_ ?_ start
  · exact fun start hstart => iff_of_true List.IsChain.nil fun window hwindow => by cases hwindow
  · intro start hstart hend
    refine iff_of_true (List.IsChain.singleton _) (List.forall_mem_singleton.mpr fun hstuck => ?_)
    have hlt : windowEnd text size start < text.length := (equal_of_stuck hstuck).1
    omega
  · intro start next rest hstart hend hnext ih
    rw [List.isChain_cons_cons, List.forall_mem_cons, ih]
    refine and_congr_left fun _ => ?_
    have hle := @windowEnd_le text size overlap start hend
    dsimp only
    rw [hnext]
    constructor
    · intro hlt hstuck
      rw [(equal_of_stuck hstuck).2] at hlt
      exact Nat.lt_irrefl _ hlt
    · intro hfree
      exact lt_of_le_of_ne hle fun heq => hfree (stuck_of_equal hend heq.symm)

-- A text with a space in every stretch of `size - overlap` characters never is.
theorem not_stuck (hspaces : ∀ stop, text[stop]? = some ' ' → stop + (size - overlap) < text.length →
    ¬ Unbroken text stop (stop + (size - overlap))) (start : Nat) : ¬ Stuck text size overlap start := by
  rintro ⟨stop, hlow, hhigh, hspace, _, hoverlap, hlength, hclear⟩
  refine hspaces stop hspace (by omega) fun i hi hi' => hclear i hi (by omega)

end Windows

-- What `strip` leaves stands between two stretches of whitespace.
theorem strip_between (p : Char → Bool) (s : List Char) :
    ∃ before after, s = before ++ Str.strip p s ++ after ∧ (∀ c ∈ before, p c) ∧ ∀ c ∈ after, p c := by
  refine ⟨s.takeWhile p, (s.dropWhile p).rtakeWhile p, ?_, fun c hc => List.mem_takeWhile_imp hc, ?_⟩
  · unfold Str.strip
    rw [List.append_assoc, List.rdropWhile_append_rtakeWhile, List.takeWhile_append_dropWhile]
  · intro c hc
    exact List.mem_rtakeWhile_imp hc

theorem strip_length_le (p : Char → Bool) (s : List Char) : (Str.strip p s).length ≤ s.length := by
  obtain ⟨before, after, hs, _⟩ := strip_between p s
  have hlength := congrArg List.length hs
  rw [List.length_append, List.length_append] at hlength
  omega

theorem slice_length {s : List Char} {start stop : Nat} (h : stop ≤ s.length) :
    (Str.slice s start stop).length = stop - start := by
  unfold Str.slice
  rw [List.length_drop, List.length_take, min_eq_left h]

theorem slice_slice {s : List Char} {start stop low high : Nat} (h : start + high ≤ stop) :
    Str.slice (Str.slice s start stop) low high = Str.slice s (start + low) (start + high) := by
  unfold Str.slice
  rw [List.take_drop, List.take_take, min_eq_left h, List.drop_drop]

theorem getElem?_slice {s : List Char} {start stop i : Nat} (hi : start + i < stop) :
    (Str.slice s start stop)[i]? = s[start + i]? := by
  unfold Str.slice
  rw [List.getElem?_drop, List.getElem?_take_of_lt hi]

-- The chunk is the text from some position on, and the position `i` is in it.
def Holds (text chunk : List Char) (i : Nat) : Prop :=
  ∃ first, first ≤ i ∧ i < first + chunk.length ∧ Str.slice text first (first + chunk.length) = chunk

-- A window keeps what it holds, except for whitespace.
theorem chunkAt_holds {text : List Char} {window : Nat × Nat} {i : Nat} {c : Char}
    (hwindow : window.2 ≤ text.length) (hlow : window.1 ≤ i) (hhigh : i < window.2)
    (hchar : text[i]? = some c) (hspace : Str.isSpace c = false) :
    Holds text (chunkAt text window) i := by
  obtain ⟨before, after, hslice, hbefore, hafter⟩ :=
    strip_between Str.isSpace (Str.slice text window.1 window.2)
  change _ = before ++ chunkAt text window ++ after at hslice
  have hlength := congrArg List.length hslice
  rw [slice_length hwindow, List.length_append, List.length_append] at hlength
  have hin : (before ++ chunkAt text window ++ after)[i - window.1]? = some c := by
    rw [← hslice, getElem?_slice (by omega), Nat.add_sub_cancel' hlow, hchar]
  have hnot : ∀ s : List Char, (∀ c ∈ s, Str.isSpace c) → ∀ j : Nat, s[j]? ≠ some c := by
    intro s hs j hj
    rw [hs c (List.mem_of_getElem? hj)] at hspace
    cases hspace
  have hfirst : before.length ≤ i - window.1 := by
    by_contra hlt
    rw [List.append_assoc, List.getElem?_append_left (by omega)] at hin
    exact hnot before hbefore _ hin
  have hlast : i - window.1 < before.length + (chunkAt text window).length := by
    by_contra hge
    rw [List.getElem?_append_right (by rw [List.length_append]; omega)] at hin
    exact hnot after hafter _ hin
  refine ⟨window.1 + before.length, by omega, by omega, ?_⟩
  rw [Nat.add_assoc, ← @slice_slice text window.1 window.2 _ _ (by omega), hslice]
  unfold Str.slice
  rw [List.take_left' List.length_append, List.drop_left' rfl]

theorem splitOnPPrepend_clean {p : Char → Bool} {s acc word : List Char}
    (hacc : ∀ c ∈ acc, p c = false) (h : word ∈ s.splitOnPPrepend p acc) : ∀ c ∈ word, p c = false := by
  induction s generalizing acc with
  | nil =>
    rw [List.splitOnPPrepend_nil, List.mem_singleton] at h
    intro c hc
    rw [h, List.mem_reverse] at hc
    exact hacc c hc
  | cons first s ih =>
    rw [List.splitOnPPrepend_cons_eq_if] at h
    by_cases hfirst : p first
    · rw [if_pos hfirst, List.mem_cons] at h
      obtain rfl | hrest := h
      · exact fun c hc => hacc c (List.mem_reverse.mp hc)
      · exact ih (fun c hc => absurd hc List.not_mem_nil) hrest
    · rw [if_neg hfirst] at h
      exact ih (List.forall_mem_cons.mpr ⟨(Bool.not_eq_true _).mp hfirst, hacc⟩) h

-- The words of a text have no whitespace.
theorem words_clean {s word : List Char} (h : word ∈ Str.words s) : ∀ c ∈ word, Str.isSpace c = false :=
  splitOnPPrepend_clean (fun _ hc => absurd hc List.not_mem_nil) (List.mem_filter.mp h).1

theorem mem_intercalate {words : List (List Char)} {c : Char} (h : c ∈ [' '].intercalate words) :
    c = ' ' ∨ ∃ word ∈ words, c ∈ word := by
  induction words with
  | nil => cases h
  | cons word words ih =>
    cases words with
    | nil =>
      rw [List.intercalate_singleton] at h
      exact Or.inr ⟨word, List.mem_singleton_self word, h⟩
    | cons next words =>
      rw [List.intercalate_cons_cons, List.mem_append, List.mem_append, List.mem_singleton] at h
      obtain (hword | hblank) | hrest := h
      · exact Or.inr ⟨word, List.mem_cons_self, hword⟩
      · exact Or.inl hblank
      · obtain hblank | ⟨later, hlater, hc⟩ := ih hrest
        · exact Or.inl hblank
        · exact Or.inr ⟨later, List.mem_cons_of_mem word hlater, hc⟩

theorem normalized_space {content : String} {c : Char} (h : c ∈ normalized content) (hspace : Str.isSpace c) :
    c = ' ' := by
  obtain hblank | ⟨word, hword, hc⟩ := mem_intercalate h
  · exact hblank
  · rw [words_clean hword c hc] at hspace
    cases hspace

-- What the chunks of a text hold.
structure Chunked (text : List Char) (size overlap : Nat) (windows : List (Nat × Nat))
    (chunks : List String) : Prop where
  stripped : chunks =
    ((windows.map (chunkAt text)).filter fun chunk => !chunk.isEmpty).map String.ofList
  inside : ∀ window ∈ windows, window.1 < window.2 ∧ window.2 ≤ text.length
  nonempty : ∀ chunk ∈ chunks, chunk ≠ ""
  bounded : ∀ chunk ∈ chunks, chunk.length ≤ size
  starts : (windows.map Prod.fst).Pairwise (· < ·)
  gapless : ∀ i c, text[i]? = some c → c ≠ ' ' → ∃ chunk ∈ chunks, Holds text chunk.toList i
  shares : windows.IsChain fun window next =>
    shared window next = min overlap (window.2 - window.1 - 1)

theorem chunkText_eq (content : String) {size : Int} (overlap : Int) (hsize : 1 ≤ size) :
    chunkText content size overlap =
      (((windows (normalized content) size.toNat (clampOverlap overlap size) 0).map
        (chunkAt (normalized content))).filter fun chunk => !chunk.isEmpty).map String.ofList := by
  unfold chunkText
  dsimp only
  split
  · rename_i hempty
    rw [List.isEmpty_iff.mp hempty, windows_end (Nat.lt_irrefl 0)]
    rfl
  · rw [if_neg (by omega)]

theorem mem_chunkText {content chunk : String} {size overlap : Int} (hsize : 1 ≤ size) :
    chunk ∈ chunkText content size overlap ↔ chunk ≠ "" ∧
      ∃ window ∈ windows (normalized content) size.toNat (clampOverlap overlap size) 0,
        chunkAt (normalized content) window = chunk.toList := by
  rw [chunkText_eq content overlap hsize, List.mem_map]
  constructor
  · rintro ⟨chars, hchars, rfl⟩
    obtain ⟨hmem, hnonempty⟩ := List.mem_filter.mp hchars
    obtain ⟨window, hwindow, rfl⟩ := List.mem_map.mp hmem
    refine ⟨fun hempty => ?_, window, hwindow, String.toList_ofList.symm⟩
    have hnil := congrArg String.toList hempty
    rw [String.toList_ofList] at hnil
    simp [hnil] at hnonempty
  · rintro ⟨hnonempty, window, hwindow, hchunk⟩
    refine ⟨chunk.toList, List.mem_filter.mpr ⟨?_, ?_⟩, String.ofList_toList⟩
    · rw [← hchunk]
      exact List.mem_map_of_mem hwindow
    · simpa using hnonempty

-- The chunks cover the document.
theorem chunkText_chunked (content : String) (size overlap : Int) (hsize : 1 ≤ size) :
    Chunked (normalized content) size.toNat (clampOverlap overlap size)
      (windows (normalized content) size.toNat (clampOverlap overlap size) 0)
      (chunkText content size overlap) := by
  have hpositive : 1 ≤ size.toNat := by omega
  have hwindows := @windows_isWindow (normalized content) size.toNat (clampOverlap overlap size) hpositive 0
  have hchain := @windows_chain (normalized content) size.toNat (clampOverlap overlap size) hpositive 0
  refine ⟨chunkText_eq content overlap hsize, fun window hwindow => ?_, fun chunk hchunk => ?_,
    fun chunk hchunk => ?_, ?_, fun i c hchar hblank => ?_, ?_⟩
  · exact ⟨(hwindows window hwindow).nonempty, (hwindows window hwindow).inside⟩
  · exact ((mem_chunkText hsize).mp hchunk).1
  · obtain ⟨_, window, hwindow, hchars⟩ := (mem_chunkText hsize).mp hchunk
    have hstrip : (chunkAt (normalized content) window).length ≤ _ := strip_length_le _ _
    rw [hchars, slice_length (hwindows window hwindow).inside] at hstrip
    have hbounded := (hwindows window hwindow).bounded
    rw [← String.length_toList]
    omega
  · refine List.isChain_iff_pairwise.mp ((List.isChain_map _).mpr (hchain.imp fun window next hnext => ?_))
    have hstart := hnext.start
    omega
  · have hmem : c ∈ normalized content := List.mem_of_getElem? hchar
    have hspace : Str.isSpace c = false := by
      by_contra hnot
      exact hblank (normalized_space hmem ((Bool.not_eq_false _).mp hnot))
    obtain ⟨hlength, _⟩ := List.getElem?_eq_some_iff.mp hchar
    obtain ⟨window, hwindow, hlow, hhigh⟩ := @windows_gapless _ _
      (clampOverlap overlap size) hpositive 0 i (Nat.zero_le i) hlength
    have hholds := chunkAt_holds (hwindows window hwindow).inside hlow hhigh hchar hspace
    refine ⟨String.ofList (chunkAt (normalized content) window), (mem_chunkText hsize).mpr ⟨?_, ?_⟩, ?_⟩
    · obtain ⟨first, hfirst, hlast, _⟩ := hholds
      intro hempty
      have hnil := congrArg String.toList hempty
      rw [String.toList_ofList] at hnil
      rw [hnil] at hlast
      change i < first + 0 at hlast
      omega
    · exact ⟨window, hwindow, String.toList_ofList.symm⟩
    · rw [String.toList_ofList]
      exact hholds
  · exact hchain.imp_of_mem_imp fun window next hwindow _ hnext =>
      hnext.shared_eq (hwindows window hwindow).nonempty

theorem chunkText_chunked_short : Chunked (normalized "ab cd") 3 1 (windows (normalized "ab cd") 3 1 0)
    (chunkText "ab cd" 3 1) := chunkText_chunked "ab cd" 3 1 (by decide)

-- Every chunk brings new text, as long as no window is stuck.
theorem chunkText_progress_iff (content : String) (size overlap : Int) (hsize : 1 ≤ size) :
    ((windows (normalized content) size.toNat (clampOverlap overlap size) 0).map Prod.snd).Pairwise
        (· < ·) ↔
      ∀ window ∈ windows (normalized content) size.toNat (clampOverlap overlap size) 0,
        ¬ Stuck (normalized content) size.toNat (clampOverlap overlap size) window.1 := by
  rw [← List.isChain_iff_pairwise, List.isChain_map]
  exact ends_increase_iff (by omega) 0

theorem chunkText_progress_short :
    ((windows (normalized "abcd") 3 1 0).map Prod.snd).Pairwise (· < ·) := by
  refine (chunkText_progress_iff "abcd" 3 1 (by decide)).mpr fun window _ => ?_
  refine not_stuck (fun stop hspace _ => ?_) window.1
  have hblank : ' ' ∉ normalized "abcd" := by decide +kernel
  exact absurd (List.mem_of_getElem? hspace) hblank

-- A long word after a short one: the second window is inside the first one.
theorem chunkText_stuck :
    ¬ ((windows (normalized "ab cccccccccccccccccc") 10 5 0).map Prod.snd).Pairwise (· < ·) ∧
      (chunkText "ab cccccccccccccccccc" 10 5).take 2 = ["ab", "b"] := by
  constructor
  · decide +kernel
  · decide +kernel

end AgentBoilerplate.Agent
