import AgentBoilerplate.Collections.Window
import Mathlib.Logic.Function.Basic
import Mathlib.Data.UInt

namespace AgentBoilerplate.Http

open Collections

-- Instants and durations are numbers of nanoseconds here.
structure FixedWindowLimiter where
  maxPerWindow : UInt32
  window : Nat
deriving DecidableEq, Repr

def FixedWindowLimiter.perMinute (max : UInt32) : FixedWindowLimiter := ⟨max, 60000000000⟩

-- The map behind the mutex: the start and the count of a key's window.
abbrev Hits := String → Option (Nat × UInt32)

-- The entry of a key after one more hit. `duration_since` is zero for a later instant,
-- and the count wraps, as in a release build.
def FixedWindowLimiter.count (self : FixedWindowLimiter) (entry : Option (Nat × UInt32)) (now : Nat) :
    Nat × UInt32 :=
  let (start, count) := entry.getD (now, 0)
  if now - start ≥ self.window then (now, 0 + 1) else (start, count + 1)

def FixedWindowLimiter.allowAt (self : FixedWindowLimiter) (hits : Hits) (key : String) (now : Nat) :
    Bool × Hits :=
  let retained : Hits := fun other => (hits other).filter fun entry => now - entry.1 < self.window
  let entry := self.count (retained key) now
  (entry.2 ≤ self.maxPerWindow, Function.update retained key (some entry))

-- A call with its answer.
structure Answered where
  key : String
  now : Nat
  allowed : Bool
deriving DecidableEq, Repr

def FixedWindowLimiter.run (self : FixedWindowLimiter) (hits : Hits) : List (String × Nat) → List Answered
  | [] => []
  | (key, now) :: calls =>
      ⟨key, now, (self.allowAt hits key now).1⟩ :: self.run (self.allowAt hits key now).2 calls

-- The calls of one key, with their answers.
def answersOf (key : String) (answers : List Answered) : List (Nat × Bool) :=
  (answers.filter fun answer => answer.key = key).map fun answer => (answer.now, answer.allowed)

def timesOf (key : String) (calls : List (String × Nat)) : List Nat :=
  (calls.filter fun call => call.1 = key).map Prod.snd

-- What the map has of a key, where a counter that forgets nothing has `current`: the
-- same window with its count in 32 bits, or nothing if the window has ended.
def Remembers (window last : Nat) (entry : Option (Nat × UInt32)) (current : Option (Nat × Nat)) : Prop :=
  match current with
  | none => entry = none
  | some (start, hits) => start ≤ last ∧
      (entry = some (start, UInt32.ofNat hits) ∨ entry = none ∧ start + window ≤ last)

section

variable {self : FixedWindowLimiter} {hits : Hits} {key : String} {last now : Nat}
  {current : Option (Nat × Nat)}

-- Pruning drops a window exactly when it has ended.
theorem Remembers.retain {entry : Option (Nat × UInt32)} {window start count : Nat}
    (h : Remembers window last entry (some (start, count))) (hnow : last ≤ now) :
    start ≤ now ∧
      ((now < start + window ∧
          (entry.filter fun entry => now - entry.1 < window) = some (start, UInt32.ofNat count)) ∨
        (start + window ≤ now ∧ (entry.filter fun entry => now - entry.1 < window) = none)) := by
  obtain ⟨hstart, rfl | ⟨rfl, hended⟩⟩ := h
  · refine ⟨by omega, ?_⟩
    by_cases hlive : now < start + window
    · exact Or.inl ⟨hlive, Option.filter_some_pos (by simp; omega)⟩
    · exact Or.inr ⟨by omega, Option.filter_some_neg (by simp; omega)⟩
  · exact ⟨by omega, Or.inr ⟨by omega, rfl⟩⟩

theorem Remembers.later {entry : Option (Nat × UInt32)} {window : Nat}
    (h : Remembers window last entry current) (hnow : last ≤ now) :
    Remembers window now (entry.filter fun entry => now - entry.1 < window) current := by
  cases current with
  | none =>
    have hnone : entry = none := h
    rw [hnone]
    exact rfl
  | some started =>
    obtain ⟨hstart, ⟨_, hkept⟩ | ⟨hended, hdropped⟩⟩ := h.retain hnow
    · exact ⟨hstart, Or.inl hkept⟩
    · exact ⟨hstart, Or.inr ⟨hdropped, hended⟩⟩

theorem allowAt_other {other : String} (hne : other ≠ key) :
    (self.allowAt hits key now).2 other =
      (hits other).filter fun entry => now - entry.1 < self.window := by
  unfold FixedWindowLimiter.allowAt
  dsimp only
  rw [Function.update_of_ne hne]

theorem count_none : self.count none now = (now, 1) := by
  unfold FixedWindowLimiter.count
  exact ite_self (now, 1)

theorem count_some {start : Nat} {count : UInt32} (hlive : now < start + self.window) (hstart : start ≤ now) :
    self.count (some (start, count)) now = (start, count + 1) := by
  unfold FixedWindowLimiter.count
  exact if_neg (by omega)

-- It counts as a counter that forgets nothing, in 32 bits.
theorem Remembers.count (h : Remembers self.window last (hits key) current) (hnow : last ≤ now) :
    self.count ((hits key).filter fun entry => now - entry.1 < self.window) now =
      ((Window.hit self.window current now).1, UInt32.ofNat (Window.hit self.window current now).2) := by
  unfold Window.hit
  cases current with
  | none =>
    have hnone : hits key = none := h
    rw [hnone]
    exact count_none
  | some started =>
    obtain ⟨hstart, ⟨hlive, hkept⟩ | ⟨hended, hdropped⟩⟩ := h.retain hnow
    · have hcount : UInt32.ofNat (started.2 + 1) = UInt32.ofNat started.2 + 1 := UInt32.ofNat_add _ _
      simp only [hkept, count_some hlive hstart, if_pos hlive, hcount]
    · have hnot : ¬ now < started.1 + self.window := by omega
      simp only [hdropped, count_none, if_neg hnot]
      rfl

theorem hit_le (h : Remembers self.window last (hits key) current) (hnow : last ≤ now) :
    (Window.hit self.window current now).1 ≤ now := by
  refine Window.hit_start fun started hstarted => ?_
  obtain rfl := Option.mem_def.mp hstarted
  exact Nat.le_trans h.1 hnow

theorem allowAt_key (h : Remembers self.window last (hits key) current) (hnow : last ≤ now) :
    (self.allowAt hits key now).1 =
        decide (UInt32.ofNat (Window.hit self.window current now).2 ≤ self.maxPerWindow) ∧
      Remembers self.window now ((self.allowAt hits key now).2 key)
        (some (Window.hit self.window current now)) := by
  have hcount := h.count hnow
  refine ⟨?_, hit_le h hnow, Or.inl ?_⟩
  · unfold FixedWindowLimiter.allowAt
    dsimp only
    simp only [hcount]
  · unfold FixedWindowLimiter.allowAt
    dsimp only
    rw [Function.update_self, hcount]
    rfl

-- Each key is answered by its own counter.
theorem run_key {calls : List (String × Nat)} (h : Remembers self.window last (hits key) current)
    (hlast : ∀ call ∈ calls, last ≤ call.2) (hsorted : calls.Pairwise fun a b => a.2 ≤ b.2) :
    answersOf key (self.run hits calls) =
      (Window.numbered self.window current (timesOf key calls)).map fun hit =>
        (hit.1, decide (UInt32.ofNat hit.2 ≤ self.maxPerWindow)) := by
  induction calls generalizing hits last current with
  | nil => rfl
  | cons call calls ih =>
    obtain ⟨hfirst, hrest⟩ := List.pairwise_cons.mp hsorted
    have hnow := hlast call List.mem_cons_self
    unfold FixedWindowLimiter.run answersOf timesOf
    by_cases hkey : call.1 = key
    · obtain ⟨rfl⟩ := hkey
      obtain ⟨hallowed, hremembers⟩ := allowAt_key h hnow
      rw [List.filter_cons_of_pos (by simp), List.filter_cons_of_pos (by simp), List.map_cons,
        List.map_cons]
      unfold Window.numbered
      rw [List.map_cons, ← hallowed]
      exact congrArg _ (ih hremembers hfirst hrest)
    · have hother : (self.allowAt hits call.1 call.2).2 key = _ := allowAt_other (Ne.symm hkey)
      have hremembers := h.later hnow
      rw [← hother] at hremembers
      rw [List.filter_cons_of_neg (by simpa using hkey), List.filter_cons_of_neg (by simpa using hkey)]
      exact ih hremembers hfirst hrest

end

def noHits : Hits := fun _ => none

-- Every key is answered as by its own counter, which never forgets a window.
def FixedWindowLimiter.Counts (self : FixedWindowLimiter) (calls : List (String × Nat)) : Prop :=
  ∀ key, answersOf key (self.run noHits calls) =
    (Window.numbered self.window none (timesOf key calls)).map fun hit =>
      (hit.1, decide (hit.2 ≤ self.maxPerWindow.toNat))

-- No interval of one window's length has more than twice the allowed hits.
def FixedWindowLimiter.Bounded (self : FixedWindowLimiter) (calls : List (String × Nat)) : Prop :=
  ∀ key t, ((answersOf key (self.run noHits calls)).countP fun answer =>
    t ≤ answer.1 ∧ answer.1 < t + self.window ∧ answer.2) ≤ 2 * self.maxPerWindow.toNat

-- No key has 2^32 hits in one window.
def FixedWindowLimiter.Countable (self : FixedWindowLimiter) (calls : List (String × Nat)) : Prop :=
  ∀ key, ∀ hit ∈ Window.numbered self.window none (timesOf key calls), hit.2 < 2 ^ 32

theorem ofNat_le_iff {hits : Nat} {max : UInt32} (h : hits < 2 ^ 32) :
    UInt32.ofNat hits ≤ max ↔ hits ≤ max.toNat := by
  rw [UInt32.le_iff_toNat_le, UInt32.toNat_ofNat_of_lt' h]

variable {self : FixedWindowLimiter} {calls : List (String × Nat)}

theorem timesOf_sorted (hsorted : calls.Pairwise fun a b => a.2 ≤ b.2) (key : String) :
    (timesOf key calls).Pairwise (· ≤ ·) :=
  List.pairwise_map.mpr (hsorted.filter _)

theorem answersOf_run (hsorted : calls.Pairwise fun a b => a.2 ≤ b.2) (key : String) :
    answersOf key (self.run noHits calls) =
      (Window.numbered self.window none (timesOf key calls)).map fun hit =>
        (hit.1, decide (UInt32.ofNat hit.2 ≤ self.maxPerWindow)) :=
  @run_key self noHits key 0 none calls rfl (fun _ _ => Nat.zero_le _) hsorted

theorem counts_iff (hsorted : calls.Pairwise fun a b => a.2 ≤ b.2) :
    self.Counts calls ↔ self.Countable calls := by
  refine forall_congr' fun key => ?_
  rw [answersOf_run hsorted, List.map_inj_left]
  constructor
  · intro hsame hit hhit
    by_contra hlarge
    -- The hit with the number 2^32 of the same window.
    have hnumber : hit.2 ∈ (Window.numbered self.window none (timesOf key calls)).map Prod.snd :=
      List.mem_map_of_mem hhit
    obtain hwrapped | ⟨window, hwindow, _⟩ :=
      Window.numbered_below hnumber (Nat.two_pow_pos 32) (Nat.le_of_not_lt hlarge)
    · obtain ⟨wrapped, hin, hwrap⟩ := List.mem_map.mp hwrapped
      have hdecide := congrArg Prod.snd (hsame wrapped hin)
      have hzero : UInt32.ofNat wrapped.2 ≤ self.maxPerWindow := by
        rw [hwrap, UInt32.le_iff_toNat_le]
        exact Nat.zero_le _
      have hmax := self.maxPerWindow.toNat_lt
      have hle := (decide_eq_decide.mp hdecide).mp hzero
      omega
    · cases hwindow
  · intro hsmall hit hhit
    rw [decide_eq_decide.mpr (ofNat_le_iff (hsmall hit hhit))]

theorem bounded_of_counts (hsorted : calls.Pairwise fun a b => a.2 ≤ b.2) (h : self.Counts calls) :
    self.Bounded calls := by
  intro key t
  have hwithin := @Window.within_numbered self.window self.maxPerWindow.toNat _ (timesOf_sorted hsorted key) t
  unfold Window.within at hwithin
  rw [h key, List.countP_map]
  refine Nat.le_trans (List.countP_mono_left fun hit _ hin => ?_) hwithin
  simpa using hin

-- The housekeeping is invisible, as long as no count wraps.
theorem run_counts_iff (self : FixedWindowLimiter) (calls : List (String × Nat))
    (hsorted : calls.Pairwise fun a b => a.2 ≤ b.2) :
    (self.Counts calls ∧ self.Bounded calls) ↔ self.Countable calls := by
  constructor
  · intro hboth
    exact (counts_iff hsorted).mp hboth.1
  · intro hsmall
    have hcounts := (counts_iff hsorted).mpr hsmall
    exact ⟨hcounts, bounded_of_counts hsorted hcounts⟩

theorem countable_of_length (self : FixedWindowLimiter) {calls : List (String × Nat)}
    (h : calls.length < 2 ^ 32) : self.Countable calls := by
  intro key hit hhit
  have hnumber := Window.numbered_le hhit
  have htimes : (timesOf key calls).length ≤ calls.length := by
    unfold timesOf
    rw [List.length_map]
    exact List.length_filter_le _ _
  dsimp only [Option.elim] at hnumber
  omega

theorem run_counts_minute :
    let limiter := FixedWindowLimiter.perMinute 1
    let calls := [("1.2.3.4", 0), ("1.2.3.4", 0), ("5.6.7.8", 0), ("1.2.3.4", 61000000000)]
    limiter.Counts calls ∧ limiter.Bounded calls :=
  (run_counts_iff _ _ (by decide)).mpr (countable_of_length _ (by decide))

theorem flood_uncountable (max : UInt32) {n : Nat} (hn : 2 ^ 32 ≤ n) (key : String) :
    ¬ (FixedWindowLimiter.perMinute max).Countable (List.replicate n (key, 0)) := by
  intro hcountable
  obtain ⟨m, rfl⟩ : ∃ m, n = m + 1 := ⟨n - 1, by omega⟩
  have htimes : timesOf key (List.replicate (m + 1) (key, 0)) = List.replicate (m + 1) 0 := by
    unfold timesOf
    rw [List.filter_replicate_of_pos (by simp), List.map_replicate]
  have hwindow : 0 < (FixedWindowLimiter.perMinute max).window := by
    unfold FixedWindowLimiter.perMinute
    exact Nat.zero_lt_succ _
  have hflood := Window.numbered_flood hwindow 0 m
  rw [← htimes] at hflood
  have hsmall := hcountable key (0, m + 1) hflood
  dsimp only at hsmall
  omega

-- 2^32 requests of one client at once.
theorem flood_wraps :
    let calls := List.replicate (2 ^ 32) ("1.2.3.4", 0)
    (calls.Pairwise fun a b => a.2 ≤ b.2) ∧
      ¬ ((FixedWindowLimiter.perMinute 3).Counts calls ∧ (FixedWindowLimiter.perMinute 3).Bounded calls) := by
  intro calls
  have hsorted : calls.Pairwise fun a b => a.2 ≤ b.2 :=
    List.pairwise_replicate.mpr (Or.inr (Nat.le_refl _))
  refine ⟨hsorted, fun hboth => ?_⟩
  exact flood_uncountable 3 (Nat.le_refl _) "1.2.3.4" ((counts_iff hsorted).mp hboth.1)

end AgentBoilerplate.Http
