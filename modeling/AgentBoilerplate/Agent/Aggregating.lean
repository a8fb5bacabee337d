import AgentBoilerplate.Agent.Scores
import Mathlib.Data.List.Pairwise

namespace AgentBoilerplate.Agent

open Python UrlParse Collections

-- A search engine with fixed answers, by the keyword.
abbrev SearchProvider := String → Except PyException (List RawSearchHit)

-- The constructor refuses an empty list.
structure AggregatingSearchProvider where
  providers : List SearchProvider
  nonempty : providers ≠ []

-- `done` holds the providers that answered in time, in the order in which the set
-- gives them: those that fail are logged and left out.
def AggregatingSearchProvider.search [Unicode] (self : AggregatingSearchProvider) (keyword : String)
    (done : List SearchProvider) : Except PyException (List RawSearchHit) :=
  let results := done.filterMap fun provider => (provider keyword).toOption
  if results = [] then
    throw ⟨"RuntimeError", s!"all {self.providers.length} search providers failed"⟩
  else
    fuseByRrf results

section

variable [Unicode]

-- The hit of a list that stands for its key in every fusion that begins with the
-- list: it is dated, or no list has a dated hit with the key.
def Leads (results : List (List RawSearchHit)) (hits : List RawSearchHit) (hit : RawSearchHit) : Prop :=
  chosen dated (hits.filter fun other => canonical other.url = canonical hit.url) = some hit ∧
    (dated hit ∨ ∀ other ∈ results.flatten, canonical other.url = canonical hit.url → ¬ dated other)

-- A key stands before another one in a list, which may lack the other.
def Before (hits : List RawSearchHit) (a b : String) : Prop := (keysOf hits).idxOf a < (keysOf hits).idxOf b

-- The lists agree on the hit of each key, and on the order of keys with equal scores.
structure Agree (k : Nat) (results : List (List RawSearchHit)) : Prop where
  hits : ∀ hits ∈ results, ∀ hits' ∈ results, ∀ hit hit', Leads results hits hit →
    Leads results hits' hit' → canonical hit.url = canonical hit'.url → hit = hit'
  ties : ∀ hits ∈ results, ∀ hits' ∈ results, ∀ a b, scoreOf k results a = scoreOf k results b →
    Before hits a b → ¬ Before hits' b a

theorem scoreOf_perm {k : Nat} {results results' : List (List RawSearchHit)}
    (h : results.Perm results') (key : String) : scoreOf k results key = scoreOf k results' key :=
  total_perm (h.flatMap_right _)

theorem leads_perm {results results' : List (List RawSearchHit)} (h : results.Perm results')
    (hits : List RawSearchHit) (hit : RawSearchHit) :
    Leads results hits hit ↔ Leads results' hits hit := by
  unfold Leads
  refine and_congr_right fun _ => or_congr_right ?_
  exact forall_congr' fun other => by rw [h.flatten.mem_iff]

theorem chosen_filter (results : List (List RawSearchHit)) (key : String) :
    results.flatten.filter (fun hit => canonical hit.url = key) =
      (results.map fun hits => hits.filter fun hit => canonical hit.url = key).flatten := by
  rw [List.filter_flatten]

-- Each hit of the output leads one of the lists.
theorem output_leads {results : List (List RawSearchHit)} {k : Nat} {fused : List Fused}
    (h : fusedOf results k = .ok fused) {hit : RawSearchHit} (hhit : hit ∈ ordered fused) :
    ∃ hits ∈ results, Leads results hits hit := by
  obtain ⟨entry, hentry, rfl⟩ := mem_ordered.mp hhit
  have hchosen := (fusedOf_tallied h).item entry.vote (List.mem_map_of_mem hentry)
  rw [itemsOf_votesOf, chosen_filter] at hchosen
  obtain ⟨items, hitems, hitem, hrich⟩ := chosen_flatten hchosen
  obtain ⟨hits, hhits, rfl⟩ := List.mem_map.mp hitems
  have hkey := canonical_best (fusedOf_keyed h) hentry
  refine ⟨hits, hhits, ?_, hrich.imp_right fun hpoor other hother hsame => ?_⟩
  · rw [hkey]
    exact hitem
  · rw [← chosen_filter] at hpoor
    refine hpoor other (List.mem_filter.mpr ⟨hother, decide_eq_true ?_⟩)
    rw [hsame, hkey]
    rfl

-- What leads the first list is in the output.
theorem first_leads {first : List RawSearchHit} {results : List (List RawSearchHit)} {k : Nat}
    {fused : List Fused} (h : fusedOf (first :: results) k = .ok fused) {hit : RawSearchHit}
    (hleads : Leads (first :: results) first hit) : hit ∈ ordered fused := by
  obtain ⟨hchosen, hrich⟩ := hleads
  have hmem := List.mem_filter.mp (chosen_mem hchosen)
  have hkey : canonical hit.url ∈ fused.map Fused.key := by
    refine (fusedOf_keys h _).mpr (List.mem_map_of_mem ?_)
    exact List.mem_flatten_of_mem List.mem_cons_self hmem.1
  obtain ⟨entry, hentry, hsame⟩ := List.mem_map.mp hkey
  have hitem := (fusedOf_tallied h).item entry.vote (List.mem_map_of_mem hentry)
  have hfirst : chosen dated (itemsOf (votesOf k (first :: results)) entry.key) = some hit := by
    rw [itemsOf_votesOf, chosen_filter, List.map_cons, List.flatten_cons, hsame]
    refine chosen_first hchosen (hrich.imp_right fun hpoor other hother => ?_)
    rw [← chosen_filter] at hother
    obtain ⟨hin, hcanonical⟩ := List.mem_filter.mp hother
    refine hpoor other ?_ (of_decide_eq_true hcanonical)
    rw [List.flatten_cons]
    exact List.mem_append_right first hin
  have hbest : entry.best = hit := Option.some.inj (hitem.symm.trans hfirst)
  exact mem_ordered.mpr ⟨entry, hentry, hbest⟩

-- The output stands in the order of the scores, and for equal scores in that of the
-- joined lists.
theorem ordered_pairwise {results : List (List RawSearchHit)} {k : Nat} {fused : List Fused}
    (h : fusedOf results k = .ok fused) :
    (keysOf (ordered fused)).Pairwise fun a b => scoreOf k results b ≤ scoreOf k results a ∧
      (scoreOf k results a ≤ scoreOf k results b → Before results.flatten a b) := by
  have hkeyed := fusedOf_keyed h
  have htallied := fusedOf_tallied h
  have hscore : ∀ entry ∈ fused, entry.score = scoreOf k results entry.key := fun entry hentry =>
    htallied.weight entry.vote (List.mem_map_of_mem hentry)
  have hplace : fused.Pairwise fun a b => Before results.flatten a.key b.key := by
    refine (List.pairwise_map.mp htallied.order).imp fun {a b} hlt => ?_
    unfold place at hlt
    rw [keys_votesOf] at hlt
    exact hlt
  have hscored : (fused.map fun entry => (entry.score, entry.best)).Pairwise fun a b =>
      Before results.flatten (canonical a.2.url) (canonical b.2.url) := by
    refine List.pairwise_map.mpr (hplace.imp_of_mem fun {a b} ha hb hbefore => ?_)
    dsimp only
    rw [canonical_best hkeyed ha, canonical_best hkeyed hb]
    exact hbefore
  unfold keysOf ordered
  rw [List.map_map]
  refine List.pairwise_map.mpr ((sorted_stable hscored).imp_of_mem fun {a b} ha hb hboth => ?_)
  obtain ⟨first, hfirst, rfl⟩ := List.mem_map.mp ((List.mem_insertionSort _).mp ha)
  obtain ⟨second, hsecond, rfl⟩ := List.mem_map.mp ((List.mem_insertionSort _).mp hb)
  dsimp only [Function.comp] at hboth ⊢
  rw [hscore first hfirst, hscore second hsecond] at hboth
  rw [canonical_best hkeyed hfirst, canonical_best hkeyed hsecond] at hboth ⊢
  exact hboth

theorem keysOf_flatten (results : List (List RawSearchHit)) :
    keysOf results.flatten = (results.map keysOf).flatten := List.map_flatten

theorem before_flatten {results : List (List RawSearchHit)} {a b : String}
    (h : Before results.flatten a b) : ∃ hits ∈ results, Before hits a b := by
  unfold Before at h
  rw [keysOf_flatten] at h
  obtain ⟨keys, hkeys, hlt⟩ := idxOf_flatten h
  obtain ⟨hits, hhits, rfl⟩ := List.mem_map.mp hkeys
  exact ⟨hits, hhits, hlt⟩

theorem before_first {first : List RawSearchHit} {a b : String} (h : Before first a b)
    (results : List (List RawSearchHit)) : Before (first :: results).flatten a b := by
  unfold Before
  rw [keysOf_flatten, List.map_cons, List.flatten_cons]
  exact idxOf_append_lt h _

theorem before_mem {hits : List RawSearchHit} {a b : String} (h : Before hits a b) :
    a ∈ keysOf hits := by
  by_contra hnot
  have hle := List.idxOf_le_length (a := b) (l := keysOf hits)
  unfold Before at h
  rw [List.idxOf_eq_length hnot] at h
  omega

theorem Agree.perm {k : Nat} {results results' : List (List RawSearchHit)} (h : Agree k results)
    (hperm : results.Perm results') : Agree k results' where
  hits hits hhits hits' hhits' hit hit' hleads hleads' :=
    h.hits hits (hperm.mem_iff.mpr hhits) hits' (hperm.mem_iff.mpr hhits') hit hit'
      ((leads_perm hperm hits hit).mpr hleads) ((leads_perm hperm hits' hit').mpr hleads')
  ties hits hhits hits' hhits' a b hscore := by
    rw [← scoreOf_perm hperm, ← scoreOf_perm hperm] at hscore
    exact h.ties hits (hperm.mem_iff.mpr hhits) hits' (hperm.mem_iff.mpr hhits') a b hscore

theorem ordered_subset {k : Nat} {results results' : List (List RawSearchHit)} {fused fused' : List Fused}
    (hagree : Agree k results) (hperm : results.Perm results') (h : fusedOf results k = .ok fused)
    (h' : fusedOf results' k = .ok fused') : ∀ hit ∈ ordered fused, hit ∈ ordered fused' := by
  intro hit hhit
  have hkey : canonical hit.url ∈ keysOf (ordered fused') := by
    refine ((ordered_faithful h').keys _).mpr ?_
    unfold keysOf
    rw [← (hperm.flatten.map _).mem_iff]
    exact ((ordered_faithful h).keys _).mp (List.mem_map_of_mem hhit)
  obtain ⟨hit', hhit', hsame⟩ := List.mem_map.mp hkey
  obtain ⟨hits, hhits, hleads⟩ := output_leads h hhit
  obtain ⟨hits', hhits', hleads'⟩ := output_leads h' hhit'
  have heq := hagree.hits hits hhits hits' (hperm.mem_iff.mpr hhits') hit hit' hleads
    ((leads_perm hperm hits' hit').mpr hleads') hsame.symm
  rw [heq]
  exact hhit'

-- Lists that agree give one output in every order.
theorem ordered_perm {k : Nat} {results results' : List (List RawSearchHit)} {fused fused' : List Fused}
    (hagree : Agree k results) (hperm : results.Perm results') (h : fusedOf results k = .ok fused)
    (h' : fusedOf results' k = .ok fused') : ordered fused = ordered fused' := by
  have hnodup := (ordered_faithful h).distinct.of_map
  have hnodup' := (ordered_faithful h').distinct.of_map
  have hmem : (ordered fused).Perm (ordered fused') :=
    (List.perm_ext_iff_of_nodup hnodup hnodup').mpr fun hit =>
      ⟨ordered_subset hagree hperm h h' hit, ordered_subset (hagree.perm hperm) hperm.symm h' h hit⟩
  let Precedes (a b : RawSearchHit) : Prop :=
    scoreOf k results (canonical b.url) ≤ scoreOf k results (canonical a.url) ∧
      (scoreOf k results (canonical a.url) ≤ scoreOf k results (canonical b.url) →
        ∃ hits ∈ results, Before hits (canonical a.url) (canonical b.url))
  have hfirst : (ordered fused).Pairwise Precedes :=
    (List.pairwise_map.mp (ordered_pairwise h)).imp fun hboth =>
      ⟨hboth.1, fun hle => before_flatten (hboth.2 hle)⟩
  have hsecond : (ordered fused').Pairwise Precedes := by
    refine (List.pairwise_map.mp (ordered_pairwise h')).imp fun hboth => ?_
    rw [← scoreOf_perm hperm, ← scoreOf_perm hperm] at hboth
    refine ⟨hboth.1, fun hle => ?_⟩
    obtain ⟨hits, hhits, hbefore⟩ := before_flatten (hboth.2 hle)
    exact ⟨hits, hperm.mem_iff.mpr hhits, hbefore⟩
  refine List.Perm.eq_of_pairwise (fun a b _ _ hab hba => ?_) hfirst hsecond hmem
  obtain ⟨hits, hhits, hbefore⟩ := hab.2 hba.1
  obtain ⟨hits', hhits', hbefore'⟩ := hba.2 hab.1
  exact absurd hbefore' (hagree.ties hits hhits hits' hhits' _ _ (le_antisymm hba.1 hab.1) hbefore)

-- Two keys with equal scores stand in the order of the first list that tells them
-- apart.
theorem output_before {first : List RawSearchHit} {results : List (List RawSearchHit)} {k : Nat}
    {fused : List Fused} (h : fusedOf (first :: results) k = .ok fused) {a b : String}
    (hscore : scoreOf k (first :: results) a = scoreOf k (first :: results) b)
    (hbefore : Before first a b) :
    (keysOf (ordered fused)).Pairwise fun x y => ¬ (x = b ∧ y = a) := by
  refine (ordered_pairwise h).imp fun {x y} hboth heq => ?_
  obtain ⟨rfl, rfl⟩ := heq
  have hflat := before_first hbefore results
  have hback := hboth.2 hscore.ge
  unfold Before at hflat hback
  omega

-- If the output does not depend on which list comes first, then the lists agree.
theorem agree_of_fronts {k : Nat} {results : List (List RawSearchHit)} {output : List RawSearchHit}
    (h : ∀ hits ∈ results, ∃ rest fused, results.Perm (hits :: rest) ∧
      fusedOf (hits :: rest) k = .ok fused ∧ ordered fused = output) : Agree k results where
  hits hits hhits hits' hhits' hit hit' hleads hleads' hsame := by
    obtain ⟨rest, fused, hperm, hfused, rfl⟩ := h hits hhits
    obtain ⟨rest', fused', hperm', hfused', heq⟩ := h hits' hhits'
    have hin := first_leads hfused ((leads_perm hperm hits hit).mp hleads)
    have hin' := first_leads hfused' ((leads_perm hperm' hits' hit').mp hleads')
    rw [heq] at hin'
    exact List.inj_on_of_nodup_map (ordered_faithful hfused).distinct hin hin' hsame
  ties hits hhits hits' hhits' a b hscore hbefore hbefore' := by
    obtain ⟨rest, fused, hperm, hfused, rfl⟩ := h hits hhits
    obtain ⟨rest', fused', hperm', hfused', heq⟩ := h hits' hhits'
    have hmem : ∀ hits ∈ results, ∀ key ∈ keysOf hits, key ∈ keysOf (ordered fused) := by
      intro hits hhits key hkey
      obtain ⟨hit, hhit, rfl⟩ := List.mem_map.mp hkey
      refine ((ordered_faithful hfused).keys _).mpr (List.mem_map_of_mem ?_)
      exact List.mem_flatten_of_mem (hperm.mem_iff.mp hhits) hhit
    have ha := hmem hits hhits a (before_mem hbefore)
    have hb := hmem hits' hhits' b (before_mem hbefore')
    have hne : a ≠ b := by
      rintro rfl
      exact Nat.lt_irrefl _ hbefore
    have hnotback := output_before hfused
      (by rw [← scoreOf_perm hperm, ← scoreOf_perm hperm, hscore]) hbefore
    have hnot := output_before hfused'
      (by rw [← scoreOf_perm hperm', ← scoreOf_perm hperm', hscore]) hbefore'
    rw [heq] at hnot
    -- One of the two keys stands before the other.
    have hsymm : Std.Symm fun x y : String => ¬ ((x = a ∧ y = b) ∨ (x = b ∧ y = a)) :=
      ⟨fun x y hxy hyx => hxy (hyx.symm.imp And.symm And.symm)⟩
    have hboth := (hnot.and hnotback).imp fun {x y} hxy =>
      (not_or.mpr hxy : ¬ ((x = a ∧ y = b) ∨ (x = b ∧ y = a)))
    exact hboth.forall ha hb hne (Or.inl ⟨rfl, rfl⟩)

-- The lists of the providers that do not fail.
def answers (keyword : String) (done : List SearchProvider) : List (List RawSearchHit) :=
  done.filterMap fun provider => (provider keyword).toOption

-- A search that returns has fused the answers.
theorem search_eq_ok {self : AggregatingSearchProvider} {keyword : String} {done : List SearchProvider}
    {output : List RawSearchHit} (h : self.search keyword done = .ok output) :
    ∃ fused, fusedOf (answers keyword done) 60 = .ok fused ∧ ordered fused = output := by
  have hfuse : fuseByRrf (answers keyword done) = .ok output := by
    unfold AggregatingSearchProvider.search at h
    dsimp only at h
    split at h
    · cases h
    · exact h
  rw [fuseByRrf_eq] at hfuse
  cases hfused : fusedOf (answers keyword done) 60 with
  | error e =>
    rw [hfused] at hfuse
    cases hfuse
  | ok fused =>
    rw [hfused] at hfuse
    exact ⟨fused, rfl, Except.ok.inj hfuse⟩

theorem search_of_answers (self : AggregatingSearchProvider) {keyword : String}
    {done : List SearchProvider} (h : answers keyword done ≠ []) :
    self.search keyword done = fuseByRrf (answers keyword done) := if_neg h

theorem search_fails (self : AggregatingSearchProvider) {keyword : String} {done : List SearchProvider}
    (h : answers keyword done = []) (output : List RawSearchHit) :
    self.search keyword done ≠ .ok output := by
  have hthrow : self.search keyword done =
      throw ⟨"RuntimeError", s!"all {self.providers.length} search providers failed"⟩ := if_pos h
  rw [hthrow]
  intro heq
  cases heq

-- The list that a search returns does not depend on the order in which the answers
-- of the providers are collected.
def AggregatingSearchProvider.Timeless (self : AggregatingSearchProvider) (keyword : String) : Prop :=
  ∀ done done', done.Perm self.providers → done'.Perm self.providers →
    ∀ output, self.search keyword done = .ok output → self.search keyword done' = .ok output

omit [Unicode] in
-- Every answer may be collected first.
theorem answers_front {keyword : String} {providers : List SearchProvider} {hits : List RawSearchHit}
    (h : hits ∈ answers keyword providers) :
    ∃ done, done.Perm providers ∧ ∃ rest, answers keyword done = hits :: rest := by
  obtain ⟨provider, hprovider, hanswer⟩ := List.mem_filterMap.mp h
  obtain ⟨before, after, rfl⟩ := List.append_of_mem hprovider
  refine ⟨provider :: (before ++ after), List.perm_middle.symm, answers keyword (before ++ after), ?_⟩
  exact List.filterMap_cons_some hanswer

-- The order does not matter exactly if a URL makes every search fail, or the answers
-- agree on the hits and on the ties.
theorem search_timeless_iff (self : AggregatingSearchProvider) (keyword : String) :
    self.Timeless keyword ↔
      ((∀ hits ∈ answers keyword self.providers, ∀ hit ∈ hits, Returns (normalizeUrl hit.url)) →
        Agree 60 (answers keyword self.providers)) := by
  constructor
  · intro htimeless hreturns
    by_cases hnone : answers keyword self.providers = []
    · rw [hnone]
      exact ⟨fun _ hhits => absurd hhits List.not_mem_nil, fun _ hhits => absurd hhits List.not_mem_nil⟩
    · obtain ⟨fused, hfused, houtput⟩ := fuseByRrf_fused 60 hreturns
      have hsearch : self.search keyword self.providers = .ok (ordered fused) := by
        rw [search_of_answers self hnone, houtput]
      refine @agree_of_fronts _ 60 _ (ordered fused) fun hits hhits => ?_
      obtain ⟨done, hdone, rest, hrest⟩ := answers_front hhits
      have hsame := htimeless _ done (List.Perm.refl _) hdone _ hsearch
      obtain ⟨fused', hfused', heq⟩ := search_eq_ok hsame
      rw [hrest] at hfused'
      refine ⟨rest, fused', ?_, hfused', heq⟩
      rw [← hrest]
      exact (hdone.filterMap _).symm
  · intro hagree done done' hdone hdone' output houtput
    obtain ⟨fused, hfused, rfl⟩ := search_eq_ok houtput
    have hperm : (answers keyword done).Perm (answers keyword self.providers) := hdone.filterMap _
    have hperm' : (answers keyword done').Perm (answers keyword self.providers) := hdone'.filterMap _
    have hnone : answers keyword done' ≠ [] := by
      intro hempty
      have hnil : answers keyword done = [] := by
        rw [hempty] at hperm'
        exact (hperm.trans hperm'.symm).eq_nil
      exact search_fails self hnil _ houtput
    have hported := (fuseByRrf_returns (answers keyword done) 60).mp
      ⟨ordered fused, by rw [fuseByRrf_eq, hfused]; rfl⟩
    have hreturns : ∀ hits ∈ answers keyword self.providers, ∀ hit ∈ hits,
        Returns (normalizeUrl hit.url) := fun hits hhits hit hhit =>
      (normalizeUrl_returns hit.url).mpr (hported hits (hperm.mem_iff.mpr hhits) hit hhit)
    obtain ⟨fused', hfused', hout'⟩ := @fuseByRrf_fused _ (answers keyword done') 60
      fun hits hhits => hreturns hits (hperm'.mem_iff.mp hhits)
    rw [search_of_answers self hnone, hout']
    have hsame := ordered_perm ((hagree hreturns).perm hperm.symm) (hperm.trans hperm'.symm) hfused hfused'
    rw [hsame]

end

section Sample

private def engine (url : String) : SearchProvider := fun _ => .ok [Sample.hit url]

private def engines : AggregatingSearchProvider where
  providers := [engine "https://a", engine "https://b"]
  nonempty := List.cons_ne_nil _ _

-- Two engines, each of which finds one page.
theorem search_not_timeless :
    letI := Sample.unicode
    ¬ engines.Timeless "lean" := by
  let := Sample.unicode
  intro htimeless
  have hswap : [engine "https://b", engine "https://a"].Perm engines.providers := List.Perm.swap _ _ _
  have hsearch : (engines.search "lean" engines.providers).map (List.map RawSearchHit.url) =
      .ok ["https://a", "https://b"] := by
    decide +kernel
  have hswapped : (engines.search "lean" [engine "https://b", engine "https://a"]).map
      (List.map RawSearchHit.url) = .ok ["https://b", "https://a"] := by
    decide +kernel
  cases houtput : engines.search "lean" engines.providers with
  | error e =>
    rw [houtput] at hsearch
    cases hsearch
  | ok output =>
    have hsame := htimeless _ _ (List.Perm.refl _) hswap _ houtput
    rw [houtput] at hsearch
    rw [hsame] at hswapped
    exact absurd (hsearch.symm.trans hswapped) (by decide)

end Sample

end AgentBoilerplate.Agent
