import AgentBoilerplate.Agent.Fusion
import AgentBoilerplate.Collections.Voting

namespace AgentBoilerplate.Agent

open Python UrlParse Collections

def dated (hit : RawSearchHit) : Bool := hit.publishedAt.isSome

-- An entry of the fused dictionaries, as one of a tally.
def Fused.vote (entry : Fused) : Vote String RawSearchHit := ⟨entry.key, entry.score, entry.best⟩

theorem fuse_vote (fused : List Fused) (key : String) (score : ℚ) (hit : RawSearchHit) :
    (fuse fused key score hit).map Fused.vote = count dated (fused.map Fused.vote) ⟨key, score, hit⟩ := by
  have hany : (fused.map Fused.vote).any (fun entry => entry.key = key) =
      fused.any fun entry => entry.key = key := List.any_map
  unfold fuse count
  rw [hany]
  split
  · rw [List.map_map, List.map_map]
    refine List.map_congr_left fun entry _ => ?_
    dsimp only [Function.comp]
    by_cases hkey : entry.key = key
    · rw [if_pos hkey, if_pos (show entry.vote.key = key from hkey)]
      unfold revise dated Fused.vote
      dsimp only
      cases hit.publishedAt <;> cases entry.best.publishedAt <;> rfl
    · rw [if_neg hkey, if_neg (show ¬ entry.vote.key = key from hkey)]
  · rw [List.map_append]
    rfl

section

variable [Unicode]

-- The canonical keys of an engine's list.
def keysOf (hits : List RawSearchHit) : List String := hits.map fun hit => canonical hit.url

-- The votes of one engine, whose first hit has the rank `first`.
def engineVotes (k first : Nat) (hits : List RawSearchHit) : List (Vote String RawSearchHit) :=
  (hits.zipIdx first).map fun ranked => ⟨canonical ranked.1.url, 1 / (k + ranked.2), ranked.1⟩

def votesOf (k : Nat) (lists : List (List RawSearchHit)) : List (Vote String RawSearchHit) :=
  lists.flatMap (engineVotes k 1)

-- `scores` and `best` after all lists.
def fusedOf (lists : List (List RawSearchHit)) (k : Nat) : Except PyException (List Fused) :=
  (lists.flatMap fun hits => hits.zipIdx 1).foldlM (fuseHit k) []

theorem fuseHits_tallied {k : Nat} {ranked : List (RawSearchHit × Nat)} {fused later : List Fused}
    (h : ranked.foldlM (fuseHit k) fused = .ok later) :
    later.map Fused.vote = (ranked.map fun ranked =>
      (⟨canonical ranked.1.url, 1 / (k + ranked.2), ranked.1⟩ : Vote String RawSearchHit)).foldl
        (count dated) (fused.map Fused.vote) := by
  induction ranked generalizing fused with
  | nil =>
    cases h
    rfl
  | cons first ranked ih =>
    rw [List.foldlM_cons] at h
    cases hkey : normalizeUrl first.1.url with
    | error e =>
      unfold fuseHit at h
      rw [hkey] at h
      cases h
    | ok key =>
      have hstep : fuseHit k fused first =
          .ok (fuse fused (canonical first.1.url) (1 / (k + first.2)) first.1) := by
        unfold fuseHit canonical
        rw [hkey]
        rfl
      rw [hstep] at h
      rw [ih h, fuse_vote]
      rfl

-- The dictionaries are the tally of the votes.
theorem fusedOf_tallied {lists : List (List RawSearchHit)} {k : Nat} {fused : List Fused}
    (h : fusedOf lists k = .ok fused) :
    Tallied dated (votesOf k lists) (fused.map Fused.vote) := by
  have hvotes : ((lists.flatMap fun hits => hits.zipIdx 1).map fun ranked =>
      (⟨canonical ranked.1.url, 1 / (k + ranked.2), ranked.1⟩ : Vote String RawSearchHit)) =
        votesOf k lists := by
    unfold votesOf engineVotes
    rw [List.map_flatMap]
  rw [fuseHits_tallied h, hvotes]
  exact tallied_foldl (votesOf k lists)

theorem fusedOf_keyed {lists : List (List RawSearchHit)} {k : Nat} {fused : List Fused}
    (h : fusedOf lists k = .ok fused) : Keyed fused :=
  foldlM_keeps (fun _ _ _ h hfused => fuseHit_keyed h hfused) _ (fun _ hentry => by cases hentry) h

-- The output is the sorted tally.
def ordered (fused : List Fused) : List RawSearchHit :=
  ((fused.map fun entry => (entry.score, entry.best)).insertionSort fun a b => b.1 ≤ a.1).map Prod.snd

theorem fusedOf_nodup {lists : List (List RawSearchHit)} {k : Nat} {fused : List Fused}
    (h : fusedOf lists k = .ok fused) : (fused.map Fused.key).Nodup := by
  have hnodup := (fusedOf_tallied h).nodup
  rwa [List.map_map] at hnodup

-- The score of a hit that was fused is that of its entry.
theorem fusedScore_eq {fused : List Fused} (hkeyed : Keyed fused) (hnodup : (fused.map Fused.key).Nodup)
    {entry : Fused} (hentry : entry ∈ fused) : fusedScore fused entry.best = .ok entry.score := by
  unfold fusedScore
  rw [hkeyed entry hentry]
  simp only [bind, Except.bind]
  cases hfound : fused.find? fun other => other.key = entry.key with
  | none =>
    have hnone := List.find?_eq_none.mp hfound entry hentry
    exact absurd (decide_eq_true rfl) hnone
  | some other =>
    have hkey : other.key = entry.key := by simpa using List.find?_some hfound
    rw [List.inj_on_of_nodup_map hnodup (List.mem_of_find?_eq_some hfound) hentry hkey]
    rfl

def scoredEntry (fused : List Fused) (entry : Fused) : Except PyException (ℚ × RawSearchHit) := do
  let score ← fusedScore fused entry.best
  return (score, entry.best)

def sortScored (scored : List (ℚ × RawSearchHit)) : List RawSearchHit :=
  (scored.insertionSort fun a b => b.1 ≤ a.1).map Prod.snd

theorem fuseByRrf_unfold (lists : List (List RawSearchHit)) (k : Nat) :
    fuseByRrf lists k = fusedOf lists k >>= fun fused =>
      fused.mapM (scoredEntry fused) >>= fun scored => return sortScored scored := rfl

theorem fuseByRrf_eq (lists : List (List RawSearchHit)) (k : Nat) :
    fuseByRrf lists k = (fusedOf lists k).map ordered := by
  rw [fuseByRrf_unfold]
  cases hfused : fusedOf lists k with
  | error e => rfl
  | ok fused =>
    have hscored : fused.mapM (scoredEntry fused) =
        .ok (fused.map fun entry => (entry.score, entry.best)) := by
      refine mapM_eq_map fun entry hentry => ?_
      unfold scoredEntry
      rw [fusedScore_eq (fusedOf_keyed hfused) (fusedOf_nodup hfused) hentry]
      rfl
    change (fused.mapM (scoredEntry fused) >>= fun scored => return sortScored scored) = _
    rw [hscored]
    rfl

theorem fuseByRrf_fused {lists : List (List RawSearchHit)} (k : Nat)
    (hreturns : ∀ hits ∈ lists, ∀ hit ∈ hits, Returns (normalizeUrl hit.url)) :
    ∃ fused, fusedOf lists k = .ok fused ∧ fuseByRrf lists k = .ok (ordered fused) := by
  obtain ⟨output, houtput⟩ := (fuseByRrf_returns lists k).mpr fun hits hhits hit hhit =>
    (normalizeUrl_returns hit.url).mp (hreturns hits hhits hit hhit)
  rw [fuseByRrf_eq] at houtput ⊢
  cases hfused : fusedOf lists k with
  | error e =>
    rw [hfused] at houtput
    cases houtput
  | ok fused => exact ⟨fused, rfl, rfl⟩

omit [Unicode] in
theorem mem_ordered {fused : List Fused} {hit : RawSearchHit} :
    hit ∈ ordered fused ↔ ∃ entry ∈ fused, entry.best = hit := by
  unfold ordered
  rw [List.mem_map]
  constructor
  · rintro ⟨scored, hscored, rfl⟩
    obtain ⟨entry, hentry, rfl⟩ := List.mem_map.mp ((List.mem_insertionSort _).mp hscored)
    exact ⟨entry, hentry, rfl⟩
  · rintro ⟨entry, hentry, rfl⟩
    exact ⟨_, (List.mem_insertionSort _).mpr (List.mem_map_of_mem hentry), rfl⟩

-- The accumulated score of a canonical key.
def scoreOf (k : Nat) (lists : List (List RawSearchHit)) (key : String) : ℚ :=
  total (votesOf k lists) key

theorem keys_engineVotes (k first : Nat) (hits : List RawSearchHit) :
    (engineVotes k first hits).map Vote.key = keysOf hits := by
  have hfst := List.zipIdx_map_fst first hits
  unfold engineVotes keysOf
  conv_rhs => rw [← hfst]
  rw [List.map_map, List.map_map]
  simp only [Function.comp_def]

theorem keys_votesOf (k : Nat) (lists : List (List RawSearchHit)) :
    (votesOf k lists).map Vote.key = keysOf lists.flatten := by
  unfold votesOf
  rw [List.map_flatMap]
  unfold keysOf
  rw [List.map_flatten, List.flatMap_def]
  congr 1
  exact List.map_congr_left fun hits _ => keys_engineVotes k 1 hits

theorem fusedOf_keys {lists : List (List RawSearchHit)} {k : Nat} {fused : List Fused}
    (h : fusedOf lists k = .ok fused) (key : String) :
    key ∈ fused.map Fused.key ↔ key ∈ keysOf lists.flatten := by
  have hmem := (fusedOf_tallied h).mem key
  rwa [List.map_map, keys_votesOf] at hmem

theorem itemsOf_votesOf (k : Nat) (lists : List (List RawSearchHit)) (key : String) :
    itemsOf (votesOf k lists) key = lists.flatten.filter fun hit => canonical hit.url = key := by
  have hengine : ∀ hits : List RawSearchHit, itemsOf (engineVotes k 1 hits) key =
      hits.filter fun hit => canonical hit.url = key := by
    intro hits
    have hfst := List.zipIdx_map_fst 1 hits
    unfold itemsOf engineVotes
    conv_rhs => rw [← hfst]
    rw [List.filter_map, List.filter_map, List.map_map]
    simp only [Function.comp_def]
  induction lists with
  | nil => rfl
  | cons hits lists ih =>
    unfold votesOf at ih ⊢
    rw [List.flatMap_cons, itemsOf_append, hengine, ih, List.flatten_cons, List.filter_append]

-- What the output of the fusion holds.
structure Faithful (k : Nat) (lists : List (List RawSearchHit)) (output : List RawSearchHit) : Prop where
  distinct : (keysOf output).Nodup
  keys : ∀ key, key ∈ keysOf output ↔ key ∈ keysOf lists.flatten
  hits : ∀ hit ∈ output, hit ∈ lists.flatten
  dates : ∀ hit ∈ output, hit.publishedAt.isSome ↔
    ∃ other ∈ lists.flatten, canonical other.url = canonical hit.url ∧ other.publishedAt.isSome
  sorted : output.Pairwise fun a b =>
    scoreOf k lists (canonical b.url) ≤ scoreOf k lists (canonical a.url)

theorem canonical_best {fused : List Fused} (hkeyed : Keyed fused) {entry : Fused}
    (hentry : entry ∈ fused) : canonical entry.best.url = entry.key := by
  unfold canonical
  rw [hkeyed entry hentry]

theorem keysOf_ordered {fused : List Fused} (hkeyed : Keyed fused) :
    (keysOf (ordered fused)).Perm (fused.map Fused.key) := by
  have hkeys : keysOf (fused.map Fused.best) = fused.map Fused.key := by
    unfold keysOf
    rw [List.map_map]
    refine List.map_congr_left fun entry hentry => ?_
    rw [Function.comp_apply, canonical_best hkeyed hentry]
  have hbest : (ordered fused).Perm (fused.map Fused.best) := by
    have hsnd : (fused.map fun entry => (entry.score, entry.best)).map Prod.snd =
        fused.map Fused.best := by
      rw [List.map_map]
      rfl
    rw [← hsnd]
    exact (List.perm_insertionSort _ _).map Prod.snd
  rw [← hkeys]
  exact hbest.map _

omit [Unicode] in
-- The scored hits in their final order: by score, and as they were entered where
-- the scores are equal.
theorem sorted_stable {P : ℚ × RawSearchHit → ℚ × RawSearchHit → Prop}
    {scored : List (ℚ × RawSearchHit)} (h : scored.Pairwise P) :
    (scored.insertionSort fun a b => b.1 ≤ a.1).Pairwise
      fun a b => b.1 ≤ a.1 ∧ (a.1 ≤ b.1 → P a b) :=
  insertionSort_stable (r := fun a b => b.1 ≤ a.1) (fun a b => le_total b.1 a.1)
    (fun _ _ _ hab hbc => le_trans hbc hab) h

theorem ordered_faithful {lists : List (List RawSearchHit)} {k : Nat} {fused : List Fused}
    (h : fusedOf lists k = .ok fused) : Faithful k lists (ordered fused) := by
  have hkeyed := fusedOf_keyed h
  have htallied := fusedOf_tallied h
  have hchosen : ∀ entry ∈ fused,
      chosen dated (lists.flatten.filter fun hit => canonical hit.url = entry.key) =
        some entry.best := by
    intro entry hentry
    rw [← itemsOf_votesOf k]
    exact htallied.item entry.vote (List.mem_map_of_mem hentry)
  have hscore : ∀ entry ∈ fused, entry.score = scoreOf k lists entry.key := fun entry hentry =>
    htallied.weight entry.vote (List.mem_map_of_mem hentry)
  refine ⟨?_, fun key => ?_, fun hit hhit => ?_, fun hit hhit => ?_, ?_⟩
  · exact (keysOf_ordered hkeyed).nodup_iff.mpr (fusedOf_nodup h)
  · exact (keysOf_ordered hkeyed).mem_iff.trans (fusedOf_keys h key)
  · obtain ⟨entry, hentry, rfl⟩ := mem_ordered.mp hhit
    exact (List.mem_filter.mp (chosen_mem (hchosen entry hentry))).1
  · obtain ⟨entry, hentry, rfl⟩ := mem_ordered.mp hhit
    have hrich := chosen_rich (hchosen entry hentry)
    rw [canonical_best hkeyed hentry]
    constructor
    · intro hdated
      obtain ⟨other, hother, hrest⟩ := hrich.mp hdated
      obtain ⟨hmem, hkey⟩ := List.mem_filter.mp hother
      exact ⟨other, hmem, of_decide_eq_true hkey, hrest⟩
    · rintro ⟨other, hmem, hkey, hdated⟩
      exact hrich.mpr ⟨other, List.mem_filter.mpr ⟨hmem, decide_eq_true hkey⟩, hdated⟩
  · unfold ordered
    have hany : (fused.map fun entry => (entry.score, entry.best)).Pairwise fun _ _ => True :=
      List.pairwise_of_forall fun _ _ => trivial
    refine List.pairwise_map.mpr ((sorted_stable hany).imp_of_mem fun {a b} ha hb hle => ?_)
    obtain ⟨first, hfirst, rfl⟩ := List.mem_map.mp ((List.mem_insertionSort _).mp ha)
    obtain ⟨second, hsecond, rfl⟩ := List.mem_map.mp ((List.mem_insertionSort _).mp hb)
    dsimp only at hle ⊢
    rw [canonical_best hkeyed hfirst, canonical_best hkeyed hsecond, ← hscore first hfirst,
      ← hscore second hsecond]
    exact hle.1

-- The fusion of lists whose URLs are accepted loses and invents nothing.
theorem fuseByRrf_faithful (lists : List (List RawSearchHit)) (k : Nat)
    (hreturns : ∀ hits ∈ lists, ∀ hit ∈ hits, Returns (normalizeUrl hit.url)) :
    ∃ output, fuseByRrf lists k = .ok output ∧ Faithful k lists output := by
  obtain ⟨fused, hfused, houtput⟩ := fuseByRrf_fused k hreturns
  exact ⟨ordered fused, houtput, ordered_faithful hfused⟩

-- The best rank of a key in an engine's list, which starts at the rank `first`.
def bestRank (first : Nat) (hits : List RawSearchHit) (key : String) : Option Nat :=
  ((hits.zipIdx first).find? fun ranked => canonical ranked.1.url = key).map Prod.snd

-- What one engine's best rank is worth.
def engineVote (k first : Nat) (hits : List RawSearchHit) (key : String) : ℚ :=
  match bestRank first hits key with
  | some rank => 1 / (k + rank)
  | none => 0

def votedScore (k : Nat) (lists : List (List RawSearchHit)) (key : String) : ℚ :=
  (lists.map fun hits => engineVote k 1 hits key).sum

theorem weight_pos {k first : Nat} (hfirst : 0 < first) {hits : List RawSearchHit} :
    ∀ vote ∈ engineVotes k first hits, 0 < vote.weight := by
  intro vote hvote
  obtain ⟨ranked, hranked, rfl⟩ := List.mem_map.mp hvote
  have hrank : first ≤ ranked.2 := List.le_snd_of_mem_zipIdx hranked
  have hpos : (0 : ℚ) < k + ranked.2 := by
    have hnat : (0 : ℚ) < ranked.2 := by exact_mod_cast (by omega : 0 < ranked.2)
    have hk : (0 : ℚ) ≤ k := by exact_mod_cast Nat.zero_le k
    linarith
  exact one_div_pos.mpr hpos

theorem engineVotes_cons (k first : Nat) (hit : RawSearchHit) (hits : List RawSearchHit) :
    engineVotes k first (hit :: hits) =
      ⟨canonical hit.url, 1 / (k + first), hit⟩ :: engineVotes k (first + 1) hits := by
  unfold engineVotes
  rw [List.zipIdx_cons, List.map_cons]

theorem engineVote_cons (k first : Nat) (hit : RawSearchHit) (hits : List RawSearchHit) (key : String) :
    engineVote k first (hit :: hits) key =
      if canonical hit.url = key then (1 / (k + first) : ℚ) else engineVote k (first + 1) hits key := by
  unfold engineVote bestRank
  rw [List.zipIdx_cons]
  by_cases hkey : canonical hit.url = key
  · rw [if_pos hkey, List.find?_cons_of_pos (by simpa using hkey)]
    rfl
  · rw [if_neg hkey, List.find?_cons_of_neg (by simpa using hkey)]

-- An engine gives a key what its best rank is worth, and more exactly if it has the
-- key twice.
theorem engine_votes (k : Nat) {first : Nat} (hfirst : 0 < first) (hits : List RawSearchHit)
    (key : String) : engineVote k first hits key ≤ total (engineVotes k first hits) key ∧
      (total (engineVotes k first hits) key = engineVote k first hits key ↔
        (keysOf hits).count key ≤ 1) := by
  induction hits generalizing first with
  | nil => exact ⟨le_refl _, iff_of_true rfl (by simp [keysOf])⟩
  | cons hit hits ih =>
    have hkeys : keysOf (hit :: hits) = canonical hit.url :: keysOf hits := rfl
    rw [engineVotes_cons, engineVote_cons, total_cons, hkeys, List.count_cons]
    dsimp only
    by_cases hkey : canonical hit.url = key
    · have hpos := @weight_pos _ k _ (Nat.succ_pos first) hits
      have hnonneg := total_nonneg hpos key
      have hzero : total (engineVotes k first.succ hits) key = 0 ↔ _ := total_eq_zero hpos
      rw [keys_engineVotes, ← List.count_eq_zero] at hzero
      simp only [hkey, beq_self_eq_true, if_true]
      refine ⟨by linarith, ?_⟩
      constructor
      · intro heq
        have hnone := hzero.mp (by linarith)
        omega
      · intro hcount
        rw [hzero.mpr (by omega), add_zero]
    · simp only [hkey, beq_iff_eq, if_false, zero_add, Nat.add_zero]
      exact ih (Nat.succ_pos first)

theorem scoreOf_eq (k : Nat) (lists : List (List RawSearchHit)) (key : String) :
    scoreOf k lists key = (lists.map fun hits => total (engineVotes k 1 hits) key).sum := by
  unfold scoreOf votesOf
  induction lists with
  | nil => rfl
  | cons hits lists ih => rw [List.flatMap_cons, total_append, ih, List.map_cons, List.sum_cons]

-- A key has the score of its best ranks exactly if no engine has it twice.
theorem score_voted_iff {lists : List (List RawSearchHit)} {k : Nat} {fused : List Fused}
    (h : fusedOf lists k = .ok fused) {entry : Fused} (hentry : entry ∈ fused) :
    entry.score = votedScore k lists entry.key ↔
      ∀ hits ∈ lists, (keysOf hits).count entry.key ≤ 1 := by
  have hscore : entry.score = scoreOf k lists entry.key :=
    (fusedOf_tallied h).weight entry.vote (List.mem_map_of_mem hentry)
  unfold votedScore
  rw [hscore, scoreOf_eq, sum_eq_iff fun hits _ => (engine_votes k Nat.one_pos hits entry.key).1]
  exact forall₂_congr fun hits _ => (engine_votes k Nat.one_pos hits entry.key).2

-- Each engine votes once for each key, with its best rank.
def VotesOnce (k : Nat) (lists : List (List RawSearchHit)) : Prop :=
  ∃ fused, fusedOf lists k = .ok fused ∧ fuseByRrf lists k = .ok (ordered fused) ∧
    ∀ entry ∈ fused, entry.score = votedScore k lists entry.key

-- It does so exactly if no engine has two hits with one key.
theorem votesOnce_iff (lists : List (List RawSearchHit)) (k : Nat)
    (hreturns : ∀ hits ∈ lists, ∀ hit ∈ hits, Returns (normalizeUrl hit.url)) :
    VotesOnce k lists ↔ ∀ hits ∈ lists, (keysOf hits).Nodup := by
  obtain ⟨fused, hfused, houtput⟩ := fuseByRrf_fused k hreturns
  constructor
  · rintro ⟨other, hother, _, hscores⟩ hits hhits
    obtain rfl : fused = other := by
      rw [hfused] at hother
      exact Except.ok.inj hother
    refine List.nodup_iff_count_le_one.mpr fun key => ?_
    by_cases hkey : key ∈ keysOf hits
    · have hflat : key ∈ keysOf lists.flatten := by
        obtain ⟨hit, hhit, rfl⟩ := List.mem_map.mp hkey
        exact List.mem_map_of_mem (List.mem_flatten_of_mem hhits hhit)
      obtain ⟨entry, hentry, rfl⟩ := List.mem_map.mp ((fusedOf_keys hfused key).mpr hflat)
      exact (score_voted_iff hfused hentry).mp (hscores entry hentry) hits hhits
    · rw [List.count_eq_zero_of_not_mem hkey]
      exact Nat.zero_le 1
  · intro hnodup
    refine ⟨fused, hfused, houtput, fun entry hentry => ?_⟩
    exact (score_voted_iff hfused hentry).mpr fun hits hhits =>
      List.nodup_iff_count_le_one.mp (hnodup hits hhits) entry.key

end

section Sample

private def page : RawSearchHit := Sample.hit "https://ex.com/a"

-- The same page, spelled with a fragment.
private def pageAgain : RawSearchHit := Sample.hit "https://ex.com/a#x"

private theorem page_key :
    letI := Sample.unicode
    normalizeUrl page.url = .ok "https://ex.com/a" ∧ normalizeUrl pageAgain.url = .ok "https://ex.com/a" := by
  decide +kernel

private theorem pages_return {lists : List (List RawSearchHit)}
    (h : ∀ hits ∈ lists, ∀ hit ∈ hits, hit = page ∨ hit = pageAgain) :
    letI := Sample.unicode
    ∀ hits ∈ lists, ∀ hit ∈ hits, Returns (normalizeUrl hit.url) := by
  let := Sample.unicode
  intro hits hhits hit hhit
  obtain rfl | rfl := h hits hhits hit hhit
  · exact ⟨_, page_key.1⟩
  · exact ⟨_, page_key.2⟩

theorem fuseByRrf_faithful_pages :
    letI := Sample.unicode
    let lists := [[page, pageAgain], [page]]
    ∃ output, fuseByRrf lists = .ok output ∧ Faithful 60 lists output := by
  let := Sample.unicode
  exact fuseByRrf_faithful _ 60 (pages_return (by simp))

theorem votesOnce_pages :
    letI := Sample.unicode
    VotesOnce 60 [[page], [pageAgain]] := by
  let := Sample.unicode
  exact (votesOnce_iff _ 60 (pages_return (by simp))).mpr (by simp [keysOf])

-- One engine that has a page under two spellings.
theorem pages_vote_twice :
    letI := Sample.unicode
    let lists := [[page, pageAgain]]
    (∀ hits ∈ lists, ∀ hit ∈ hits, Returns (normalizeUrl hit.url)) ∧ ¬ VotesOnce 60 lists := by
  let := Sample.unicode
  have hreturns := @pages_return [[page, pageAgain]] (by simp)
  refine ⟨hreturns, ?_⟩
  rintro ⟨fused, hfused, _, hscores⟩
  have hcanonical : canonical page.url = "https://ex.com/a" ∧
      canonical pageAgain.url = "https://ex.com/a" := by
    unfold canonical
    rw [page_key.1, page_key.2]
    exact ⟨rfl, rfl⟩
  have hkeys : keysOf [page, pageAgain] = ["https://ex.com/a", "https://ex.com/a"] := by
    unfold keysOf
    rw [List.map_cons, List.map_singleton, hcanonical.1, hcanonical.2]
  have hmem : "https://ex.com/a" ∈ fused.map Fused.key := by
    refine (fusedOf_keys hfused _).mpr ?_
    change _ ∈ keysOf [page, pageAgain]
    rw [hkeys]
    exact List.mem_cons_self
  obtain ⟨entry, hentry, hkey⟩ := List.mem_map.mp hmem
  have hcount := (score_voted_iff hfused hentry).mp (hscores entry hentry) _ List.mem_cons_self
  rw [hkeys, hkey] at hcount
  exact absurd hcount (by decide)

end Sample

end AgentBoilerplate.Agent
