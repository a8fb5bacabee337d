import AgentBoilerplate.Collections.Ranking
import AgentBoilerplate.Job.Lemmas
import Mathlib.Data.List.Perm.Subperm

namespace AgentBoilerplate.Job

open Effects Collections

-- The stored results of the runs of a recurring search: the URL of each, and
-- when its run was created.
def deliveries (jobs : Jobs) (results : PerJob SearchResult) (recurringSearchId : Uuid) :
    List (String × Int) :=
  (jobs.rows.filter fun row => row.recurringSearchId = some recurringSearchId).flatMap fun job =>
    (results.of job.id).map fun result => (result.url, job.createdAt)

def deliveredUrls (jobs : Jobs) (results : PerJob SearchResult) (recurringSearchId : Uuid) :
    List String :=
  (deliveries jobs results recurringSearchId).map Prod.fst

-- When the most recent run that delivered the URL was created.
def lastDelivered (jobs : Jobs) (results : PerJob SearchResult) (recurringSearchId : Uuid)
    (url : String) : Int :=
  ((((deliveries jobs results recurringSearchId).filter fun entry => entry.1 = url).map
    Prod.snd).max?).getD 0

section Collecting

variable {time : String → Int} {limit : Nat} {entries before rest : List (String × Int)}
  {urls : List String}

theorem length_dedup {α : Type} [DecidableEq α] {l all : List α} (hdistinct : l.Nodup)
    (hmem : ∀ a, a ∈ l ↔ a ∈ all) : l.length = all.dedup.length := by
  have hperm : l.Perm all.dedup :=
    (List.perm_ext_iff_of_nodup hdistinct (List.nodup_dedup all)).mpr fun a =>
      (hmem a).trans List.mem_dedup.symm
  exact hperm.length_eq

-- The loop over the deliveries, newest first. `urls` are those of the deliveries
-- that have been read.
theorem collectUrls_mostRecent (hsorted : (before ++ rest).Pairwise fun a b => b.2 ≤ a.2)
    (hbound : ∀ entry ∈ before ++ rest, entry.2 ≤ time entry.1)
    (hattained : ∀ entry ∈ before ++ rest, (entry.1, time entry.1) ∈ before ++ rest)
    (hdistinct : urls.Nodup) (hbelow : urls.length < limit)
    (hread : ∀ url, url ∈ urls ↔ url ∈ before.map Prod.fst)
    (hordered : urls.Pairwise fun a b => time b ≤ time a)
    (hnewer : ∀ url ∈ urls, ∀ entry ∈ rest, entry.2 ≤ time url) :
    MostRecent time limit ((before ++ rest).map Prod.fst)
      (collectUrls limit urls (rest.map Prod.fst)) := by
  induction rest generalizing before urls with
  | nil =>
      rw [List.append_nil] at *
      have hlength := length_dedup hdistinct hread
      refine ⟨hdistinct, fun url hurl => (hread url).mp hurl, ?_, hordered, ?_⟩
      · show urls.length = _
        omega
      · intro a _ b hb hleft
        exact absurd ((hread b).mpr hb) hleft
  | cons entry rest ih =>
      obtain ⟨url, instant⟩ := entry
      have hsplit : before ++ (url, instant) :: rest = (before ++ [(url, instant)]) ++ rest := by
        simp
      have hrest : ∀ other ∈ rest, other.2 ≤ instant :=
        (List.pairwise_cons.mp (List.pairwise_append.mp hsorted).2.1).1
      rw [List.map_cons, collectUrls]
      by_cases hmem : url ∈ urls
      · rw [if_pos hmem]
        rw [hsplit] at hsorted hbound hattained ⊢
        refine ih hsorted hbound hattained hdistinct hbelow ?_ hordered ?_
        · intro other
          rw [hread, List.map_append, List.mem_append]
          constructor
          · exact Or.inl
          · intro hother
            rcases hother with hother | hother
            · exact hother
            · have heq : other = url := by simpa using hother
              rw [heq]
              exact (hread url).mp hmem
        · intro other hother entry hentry
          exact hnewer other hother entry (List.mem_cons_of_mem _ hentry)
      · -- the first delivery of a URL is the last one in time
        have htime : time url = instant := by
          have hle := hbound (url, instant) (by simp)
          have hlast := hattained (url, instant) (by simp)
          rcases List.mem_append.mp hlast with hbefore | hlater
          · exact absurd ((hread url).mpr (List.mem_map_of_mem hbefore)) hmem
          · rcases List.mem_cons.mp hlater with heq | hlater
            · exact congrArg Prod.snd heq
            · have hge := hrest _ hlater
              dsimp only at hle hge
              omega
        have hcollected : (urls ++ [url]).Nodup := by
          rw [List.nodup_append]
          refine ⟨hdistinct, List.nodup_singleton url, fun a ha b hb heq => hmem ?_⟩
          rw [List.mem_singleton.mp hb] at heq
          exact heq ▸ ha
        have hordered' : (urls ++ [url]).Pairwise fun a b => time b ≤ time a := by
          rw [List.pairwise_append]
          refine ⟨hordered, List.pairwise_singleton _ _, fun a ha b hb => ?_⟩
          rw [List.mem_singleton.mp hb, htime]
          exact hnewer a ha (url, instant) List.mem_cons_self
        have hnewer' : ∀ a ∈ urls ++ [url], ∀ entry ∈ rest, entry.2 ≤ time a := by
          intro a ha entry hentry
          rcases List.mem_append.mp ha with ha | ha
          · exact hnewer a ha entry (List.mem_cons_of_mem _ hentry)
          · rw [List.mem_singleton.mp ha, htime]
            exact hrest entry hentry
        have hread' : ∀ other, other ∈ urls ++ [url] ↔
            other ∈ (before ++ [(url, instant)]).map Prod.fst := by
          intro other
          rw [List.map_append, List.mem_append, List.mem_append, hread]
          simp
        rw [if_neg hmem]
        by_cases hfull : urls.length + 1 ≥ limit
        · rw [if_pos hfull]
          have hsubset : ∀ a ∈ urls ++ [url],
              a ∈ (before ++ (url, instant) :: rest).map Prod.fst := by
            intro a ha
            rw [hsplit, List.map_append, List.mem_append]
            exact Or.inl ((hread' a).mp ha)
          have hlength := (List.Nodup.subperm hcollected fun a ha =>
            List.mem_dedup.mpr (hsubset a ha)).length_le
          refine ⟨hcollected, hsubset, ?_, hordered', ?_⟩
          · rw [List.length_append, List.length_singleton] at hlength ⊢
            omega
          · intro a ha b hb hleft
            obtain ⟨entry, hentry, rfl⟩ := List.mem_map.mp hb
            have hlast := hattained entry hentry
            rw [hsplit, List.mem_append] at hlast
            rcases hlast with hlast | hlast
            · exact absurd ((hread' entry.1).mpr (List.mem_map.mpr ⟨_, hlast, rfl⟩)) hleft
            · exact hnewer' a ha _ hlast
        · rw [if_neg hfull]
          rw [hsplit] at hsorted hbound hattained ⊢
          refine ih hsorted hbound hattained hcollected ?_ hread' hordered' hnewer'
          rw [List.length_append, List.length_singleton]
          omega

end Collecting

theorem mostRecent_perm {time : String → Int} {limit : Nat} {all all' taken : List String}
    (hperm : all.Perm all') (h : MostRecent time limit all taken) :
    MostRecent time limit all' taken := by
  obtain ⟨hdistinct, hsubset, hlength, hordered, hrecent⟩ := h
  refine ⟨hdistinct, fun a ha => hperm.mem_iff.mp (hsubset a ha), ?_, hordered, ?_⟩
  · rw [hlength, hperm.dedup.length_eq]
  · intro a ha b hb hleft
    exact hrecent a ha b (hperm.mem_iff.mpr hb) hleft

section Recurring

variable {jobs : Jobs} {results : PerJob SearchResult} {recurringSearchId : Uuid}

-- The deliveries, those of the newest run first.
def newestFirst (jobs : Jobs) (results : PerJob SearchResult) (recurringSearchId : Uuid) :
    List (String × Int) :=
  (jobs.runsOf recurringSearchId).flatMap fun job =>
    (results.of job.id).map fun result => (result.url, job.createdAt)

theorem newestFirst_perm :
    (newestFirst jobs results recurringSearchId).Perm
      (deliveries jobs results recurringSearchId) := by
  unfold newestFirst deliveries Jobs.runsOf
  exact (List.perm_insertionSort _ _).flatMap_right _

theorem newestFirst_sorted :
    (newestFirst jobs results recurringSearchId).Pairwise fun a b => b.2 ≤ a.2 := by
  unfold newestFirst Jobs.runsOf
  generalize (jobs.rows.filter fun row => row.recurringSearchId = some recurringSearchId) = runs
  have htotal : Std.Total fun a b : ResearchJob => b.createdAt ≤ a.createdAt :=
    ⟨fun a b => Int.le_total b.createdAt a.createdAt⟩
  have htrans : IsTrans ResearchJob fun a b => b.createdAt ≤ a.createdAt :=
    ⟨fun a b c hab hbc => Int.le_trans hbc hab⟩
  have hsorted := List.pairwise_insertionSort
    (fun a b : ResearchJob => b.createdAt ≤ a.createdAt) runs
  rw [List.pairwise_flatMap]
  constructor
  · intro job _
    rw [List.pairwise_map]
    exact List.pairwise_of_forall fun _ _ => Int.le_refl _
  · refine hsorted.imp fun hab x hx y hy => ?_
    obtain ⟨_, -, rfl⟩ := List.mem_map.mp hx
    obtain ⟨_, -, rfl⟩ := List.mem_map.mp hy
    exact hab

theorem newestFirst_urls :
    (newestFirst jobs results recurringSearchId).map Prod.fst =
      (jobs.runsOf recurringSearchId).flatMap fun job =>
        (results.of job.id).map SearchResult.url := by
  rw [newestFirst, List.map_flatMap]
  simp only [List.map_map, Function.comp_def]

-- A delivered URL has a last delivery.
theorem lastDelivered_spec {entry : String × Int}
    (h : entry ∈ deliveries jobs results recurringSearchId) :
    (entry.1, lastDelivered jobs results recurringSearchId entry.1) ∈
        deliveries jobs results recurringSearchId ∧
      entry.2 ≤ lastDelivered jobs results recurringSearchId entry.1 := by
  unfold lastDelivered
  generalize hall : deliveries jobs results recurringSearchId = all at h
  have hentry : entry.2 ∈ (all.filter fun other => other.1 = entry.1).map Prod.snd :=
    List.mem_map_of_mem (List.mem_filter.mpr ⟨h, by simp⟩)
  cases hmax : ((all.filter fun other => other.1 = entry.1).map Prod.snd).max? with
  | none =>
      rw [List.max?_eq_none_iff] at hmax
      rw [hmax] at hentry
      cases hentry
  | some last =>
      obtain ⟨hlast, hbound⟩ := List.max?_eq_some_iff.mp hmax
      obtain ⟨other, hother, rfl⟩ := List.mem_map.mp hlast
      obtain ⟨hmem, hurl⟩ := List.mem_filter.mp hother
      have heq : other.1 = entry.1 := by simpa using hurl
      rw [Option.getD_some, ← heq]
      exact ⟨hmem, hbound _ hentry⟩

theorem inMemory_mostRecent {limit : Nat} (hlimit : 0 < limit) (collates : String → String → Bool) :
    MostRecent (lastDelivered jobs results recurringSearchId) limit
      (deliveredUrls jobs results recurringSearchId)
      (recentUrlsForRecurring .inMemory collates jobs results recurringSearchId limit) := by
  have hperm : (newestFirst jobs results recurringSearchId).Perm
      (deliveries jobs results recurringSearchId) := newestFirst_perm
  refine mostRecent_perm (hperm.map Prod.fst) ?_
  rw [recentUrlsForRecurring, ← newestFirst_urls]
  have hsorted : (([] : List (String × Int)) ++ newestFirst jobs results
      recurringSearchId).Pairwise fun a b => b.2 ≤ a.2 := newestFirst_sorted
  refine collectUrls_mostRecent hsorted ?_ ?_ List.nodup_nil hlimit
    (fun url => by simp) List.Pairwise.nil (fun url hurl => by cases hurl)
  · intro entry hentry
    exact (lastDelivered_spec (hperm.mem_iff.mp hentry)).2
  · intro entry hentry
    exact hperm.mem_iff.mpr (lastDelivered_spec (hperm.mem_iff.mp hentry)).1

-- The statement keeps the first URLs in the order of the collation, so it
-- answers with the most recent ones where that order agrees with the times.
theorem recentUrls_mostRecent (adapter : Adapter) {collates : String → String → Bool}
    (htotal : ∀ a b, collates a b = true ∨ collates b a = true)
    (htrans : ∀ a b c, collates a b = true → collates b c = true → collates a c = true)
    (hanti : ∀ a b, collates a b = true → collates b a = true → a = b)
    (jobs : Jobs) (results : PerJob SearchResult) (recurringSearchId : Uuid) {limit : Nat}
    (hlimit : 0 < limit) :
    MostRecent (lastDelivered jobs results recurringSearchId) limit
        (deliveredUrls jobs results recurringSearchId)
        (recentUrlsForRecurring adapter collates jobs results recurringSearchId limit) ↔
      (adapter = .postgres →
        ∀ a ∈ deliveredUrls jobs results recurringSearchId,
        ∀ b ∈ deliveredUrls jobs results recurringSearchId,
          collates a b = true → a ≠ b →
          rank collates (deliveredUrls jobs results recurringSearchId).dedup a < limit →
          lastDelivered jobs results recurringSearchId b ≤
            lastDelivered jobs results recurringSearchId a) := by
  cases adapter with
  | inMemory =>
      constructor
      · intro _ hadapter
        cases hadapter
      · intro _
        exact inMemory_mostRecent hlimit collates
  | postgres =>
      have htotal' : Std.Total fun a b => collates a b = true := ⟨htotal⟩
      have htrans' : IsTrans String fun a b => collates a b = true := ⟨htrans⟩
      have hurls : ((newestFirst jobs results recurringSearchId).map Prod.fst).dedup.Perm
          (deliveredUrls jobs results recurringSearchId).dedup :=
        (newestFirst_perm.map Prod.fst).dedup
      rw [recentUrlsForRecurring, ← newestFirst_urls]
      rw [mostRecent_take_iff hanti ((List.perm_insertionSort _ _).trans hurls)
        (List.pairwise_insertionSort (fun a b => collates a b = true) _)]
      constructor
      · intro h _
        exact h
      · intro h
        exact h rfl

end Recurring

-- Two daily runs of one search.
namespace Sample

def daily : Uuid := ⟨"2d9f4b50-6c1e-4a58-9d7b-0e8a35c1f642"⟩

def result (url : String) : SearchResult where
  title := "Lean 4.33"
  url := url
  snippet := ""
  publishedAt := none
  dateConfidence := .unknown
  eventType := .release
  summary := none
  isNew := true

def runs : Jobs :=
  (Table.empty.insert { job with id := uuid 1, recurringSearchId := some daily }).insert
    { job with
      id := uuid 2
      recurringSearchId := some daily
      createdAt := job.createdAt + 86400000000000 }

def deliveredEach (first second : String) : PerJob SearchResult :=
  (Table.empty.insert (uuid 1, [result first])).insert (uuid 2, [result second])

end Sample

theorem recentUrls_oldest :
    let results := Sample.deliveredEach "https://a.example/lean" "https://b.example/lean"
    ¬ MostRecent (lastDelivered Sample.runs results Sample.daily) 1
      (deliveredUrls Sample.runs results Sample.daily)
      (recentUrlsForRecurring .postgres (Sample.env .postgres).collates Sample.runs results
        Sample.daily 1) := by
  intro results h
  have hle := h.recent "https://a.example/lean" (by decide +kernel) "https://b.example/lean"
    (by decide +kernel) (by decide +kernel)
  exact absurd hle (by decide +kernel)

theorem recentUrls_newest :
    let results := Sample.deliveredEach "https://b.example/lean" "https://a.example/lean"
    MostRecent (lastDelivered Sample.runs results Sample.daily) 1
      (deliveredUrls Sample.runs results Sample.daily)
      (recentUrlsForRecurring .postgres (Sample.env .postgres).collates Sample.runs results
        Sample.daily 1) := by
  intro results
  refine (recentUrls_mostRecent .postgres ?_ ?_ ?_ Sample.runs results Sample.daily
    Nat.zero_lt_one).mpr fun _ => by decide +kernel
  · intro a b
    simpa only [Sample.env, decide_eq_true_eq] using String.le_total a b
  · intro a b c
    simpa only [Sample.env, decide_eq_true_eq] using String.le_trans
  · intro a b
    simpa only [Sample.env, decide_eq_true_eq] using String.le_antisymm

end AgentBoilerplate.Job
