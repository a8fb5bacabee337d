import AgentBoilerplate.Agent.Lemmas
import AgentBoilerplate.Collections.Traversal

namespace AgentBoilerplate.Agent

open Python UrlParse Collections

-- An entry of the dictionaries `scores` and `best`, which have the same keys.
-- Scores are exact here.
structure Fused where
  key : String
  score : ℚ
  best : RawSearchHit

-- The richer hit stays: the one with a date.
def fuse (fused : List Fused) (key : String) (score : ℚ) (hit : RawSearchHit) : List Fused :=
  if fused.any fun entry => entry.key = key then
    fused.map fun entry =>
      if entry.key = key then
        { entry with
          score := entry.score + score
          best :=
            if hit.publishedAt.isSome ∧ entry.best.publishedAt.isNone then hit else entry.best }
      else
        entry
  else
    fused ++ [⟨key, score, hit⟩]

-- One hit of a provider, at its rank.
def fuseHit [Unicode] (k : Nat) (fused : List Fused) (ranked : RawSearchHit × Nat) :
    Except PyException (List Fused) := do
  let key ← normalizeUrl ranked.1.url
  return fuse fused key (1 / (k + ranked.2)) ranked.1

-- `scores[normalize_url(h.url)]`.
def fusedScore [Unicode] (fused : List Fused) (hit : RawSearchHit) : Except PyException ℚ := do
  let key ← normalizeUrl hit.url
  match fused.find? fun entry => entry.key = key with
  | some entry => return entry.score
  | none => throw ⟨"KeyError", String.ofList (Str.repr key.toList)⟩

-- `sorted` is stable in reverse, too.
def fuseByRrf [Unicode] (resultsPerProvider : List (List RawSearchHit)) (k : Nat := 60) :
    Except PyException (List RawSearchHit) := do
  let fused ← (resultsPerProvider.flatMap fun hits => hits.zipIdx 1).foldlM (fuseHit k) []
  let scored ← fused.mapM fun entry => do
    let score ← fusedScore fused entry.best
    return (score, entry.best)
  return (scored.insertionSort fun a b => b.1 ≤ a.1).map Prod.snd

section

variable [Unicode]

-- The port of a URL is absent, or a decimal number in range that `int` reads.
def PortReadable (parts : SplitResult) : Prop :=
  ∀ port ∈ parts.hostinfo.2, port.all isDigit = true ∧ port.length ≤ 4300 ∧
    Nat.ofDigitChars 10 port 0 ≤ 65535

-- So is the port of a URL that is split into a scheme, a host and the rest.
def Ported (url : String) : Prop :=
  ∀ parts, urlsplit (Str.strip Str.isSpace url.toList) = .ok parts → parts.scheme ≠ [] →
    parts.hostname ≠ none → PortReadable parts

theorem port_returns (parts : SplitResult) : Returns parts.port ↔ PortReadable parts := by
  unfold SplitResult.port PortReadable
  cases parts.hostinfo.2 with
  | none => exact iff_of_true (returns_ok none) (fun port hport => by cases hport)
  | some port =>
      simp only [Option.mem_some_iff, forall_eq']
      by_cases hdigits : port.all isDigit = true
      · rw [if_neg (not_not.mpr hdigits)]
        by_cases hlength : port.length > 4300
        · rw [if_pos hlength]
          exact iff_of_false (not_returns_error _) fun h => absurd h.2.1 (by omega)
        · rw [if_neg hlength]
          by_cases hrange : Nat.ofDigitChars 10 port 0 > 65535
          · rw [if_pos hrange]
            exact iff_of_false (not_returns_error _) fun h => absurd h.2.2 (by omega)
          · rw [if_neg hrange]
            exact iff_of_true (returns_ok _) ⟨hdigits, by omega, by omega⟩
      · rw [if_pos hdigits]
        exact iff_of_false (not_returns_error _) fun h => hdigits h.1

-- The port is the one attribute that is read outside the `try`.
theorem normalizeUrl_returns (url : String) : Returns (normalizeUrl url) ↔ Ported url := by
  have hchars : Returns (normalizeUrl url) ↔ Returns (normalizeChars url.toList) := by
    unfold normalizeUrl
    cases normalizeChars url.toList with
    | error e => exact iff_of_false (not_returns_error e) (not_returns_error e)
    | ok key => exact iff_of_true (returns_ok _) (returns_ok _)
  rw [hchars]
  unfold normalizeChars Ported
  cases urlsplit (Str.strip Str.isSpace url.toList) with
  | error e => exact iff_of_true (returns_ok _) fun parts h => by cases h
  | ok parts =>
      dsimp only
      cases hhost : parts.hostname with
      | none =>
          refine iff_of_true (returns_ok _) fun other h _ hhost' => ?_
          cases h
          exact absurd hhost hhost'
      | some host =>
          dsimp only
          by_cases hscheme : parts.scheme = []
          · rw [if_pos hscheme]
            refine iff_of_true (returns_ok _) fun other h hscheme' => ?_
            cases h
            exact absurd hscheme hscheme'
          · rw [if_neg hscheme, returns_bind]
            constructor
            · intro ⟨port, hport, _⟩ other h _ _
              cases h
              exact (port_returns parts).mp ⟨port, hport⟩
            · intro h
              obtain ⟨port, hport⟩ := (port_returns parts).mpr (h parts rfl hscheme (by simp [hhost]))
              exact ⟨port, hport, returns_ok _⟩

-- Every fused entry holds a hit with its key.
def Keyed (fused : List Fused) : Prop := ∀ entry ∈ fused, normalizeUrl entry.best.url = .ok entry.key

theorem fuse_keyed {fused : List Fused} (h : Keyed fused) {key : String} {hit : RawSearchHit}
    (hkey : normalizeUrl hit.url = .ok key) (score : ℚ) : Keyed (fuse fused key score hit) := by
  unfold fuse
  split
  · intro entry hentry
    obtain ⟨old, hold, rfl⟩ := List.mem_map.mp hentry
    by_cases hsame : old.key = key
    · rw [if_pos hsame]
      dsimp only
      split
      · rw [hkey, hsame]
      · exact h old hold
    · rw [if_neg hsame]
      exact h old hold
  · intro entry hentry
    rcases List.mem_append.mp hentry with hold | hnew
    · exact h entry hold
    · rw [List.mem_singleton.mp hnew]
      exact hkey

theorem fuseHit_keyed {k : Nat} {fused later : List Fused} {ranked : RawSearchHit × Nat}
    (h : Keyed fused) (hfused : fuseHit k fused ranked = .ok later) : Keyed later := by
  unfold fuseHit at hfused
  cases hkey : normalizeUrl ranked.1.url with
  | error e =>
      rw [hkey] at hfused
      cases hfused
  | ok key =>
      rw [hkey] at hfused
      obtain rfl := Except.ok.inj hfused
      exact fuse_keyed h hkey _

theorem fuseHit_returns (k : Nat) (fused : List Fused) (ranked : RawSearchHit × Nat) :
    Returns (fuseHit k fused ranked) ↔ Ported ranked.1.url := by
  rw [← normalizeUrl_returns]
  unfold fuseHit
  rw [returns_bind]
  exact exists_congr fun key => and_iff_left (returns_ok _)

omit [Unicode] in
-- What holds of the hits of every provider holds of the hits at their ranks.
theorem forall_ranked {α : Type} (p : α → Prop) (lists : List (List α)) :
    (∀ ranked ∈ lists.flatMap fun hits => hits.zipIdx 1, p ranked.1) ↔
      ∀ hits ∈ lists, ∀ hit ∈ hits, p hit := by
  constructor
  · intro h hits hhits hit hhit
    have hmap : hit ∈ (hits.zipIdx 1).map Prod.fst := by
      rw [List.zipIdx_map_fst]
      exact hhit
    obtain ⟨ranked, hranked, rfl⟩ := List.mem_map.mp hmap
    exact h ranked (List.mem_flatMap.mpr ⟨hits, hhits, hranked⟩)
  · intro h ranked hranked
    obtain ⟨hits, hhits, hmem⟩ := List.mem_flatMap.mp hranked
    have hmap : ranked.1 ∈ (hits.zipIdx 1).map Prod.fst := List.mem_map_of_mem hmem
    rw [List.zipIdx_map_fst] at hmap
    exact h hits hhits ranked.1 hmap

-- A fused hit has a score.
theorem fusedScore_returns {fused : List Fused} (h : Keyed fused) {entry : Fused}
    (hentry : entry ∈ fused) : Returns (fusedScore fused entry.best) := by
  unfold fusedScore
  rw [h entry hentry]
  change Returns (match fused.find? fun other => other.key = entry.key with
    | some entry => return entry.score
    | none => throw _)
  cases hfound : fused.find? fun other => other.key = entry.key with
  | none =>
      have hnone := List.find?_eq_none.mp hfound entry hentry
      simp at hnone
  | some other => exact returns_ok _

theorem fuseByRrf_returns (resultsPerProvider : List (List RawSearchHit)) (k : Nat) :
    Returns (fuseByRrf resultsPerProvider k) ↔
      ∀ hits ∈ resultsPerProvider, ∀ hit ∈ hits, Ported hit.url := by
  have hempty : Keyed [] := fun entry hentry => by cases hentry
  have hfold := foldlM_returns (fun fused ranked _ => fuseHit_returns k fused ranked)
    (fun _ _ _ h hfused => fuseHit_keyed h hfused)
    (resultsPerProvider.flatMap fun hits => hits.zipIdx 1) hempty
  rw [← forall_ranked (fun hit : RawSearchHit => Ported hit.url), ← hfold]
  unfold fuseByRrf
  rw [returns_bind]
  refine exists_congr fun fused => and_iff_left_of_imp fun hfused => ?_
  have hkeyed : Keyed fused := foldlM_keeps (fun _ _ _ h hfused => fuseHit_keyed h hfused) _ hempty hfused
  rw [returns_bind]
  have hscored := (mapM_returns (fun entry : Fused => do
    let score ← fusedScore fused entry.best
    return (score, entry.best)) fused).mpr fun entry hentry => by
      obtain ⟨score, hscore⟩ := fusedScore_returns hkeyed hentry
      exact (returns_bind _ _).mpr ⟨score, hscore, returns_ok _⟩
  obtain ⟨scored, hscored⟩ := hscored
  exact ⟨scored, hscored, returns_ok _⟩

end

end AgentBoilerplate.Agent
