import AgentBoilerplate.Agent.Lemmas
import AgentBoilerplate.Collections.Keyed

namespace AgentBoilerplate.Agent

open Python Effects Collections

-- What the ports answer to a run: the hits of the search, the enrichments of a
-- list of hits, and the date that a page declares.
structure Findings where
  found : List RawSearchHit
  enrich : List RawSearchHit → List HitEnrichment
  matching : ∀ hits, (enrich hits).length = hits.length
  pageDate : String → Option DateTime

-- The ports of a job answer so; a delivery may fail.
structure Findings.Answer (findings : Findings) (jobId keyword : String)
    (oracle : Oracle AgentPorts) : Prop where
  started : ∀ past, oracle past (.markStarted jobId) = .ok ()
  searched : ∀ past, oracle past (.search keyword) = .ok findings.found
  enriched : ∀ past hits, oracle past (.enrichMany hits) = .ok (findings.enrich hits)
  fetched : ∀ past url, oracle past (.fetchPublishedDate url) = .ok (findings.pageDate url)

-- The pages that a run fetches, and what it delivers.
def fetches (events : List (Event AgentPorts)) : List String :=
  events.filterMap fun
    | ⟨.fetchPublishedDate url, _⟩ => some url
    | _ => none

def deliveries (events : List (Event AgentPorts)) : List (String × List ResearchResult) :=
  events.filterMap fun
    | ⟨.deliver jobId results, _⟩ => some (jobId, results)
    | _ => none

-- The first date of the cascade, and how sure it is.
def cascade (provider page guess : Option DateTime) : Option (DateTime × DateConfidence) :=
  (provider.map fun date => (date, .high)).or
    ((page.map fun date => (date, .high)).or (guess.map fun date => (date, .medium)))

def Findings.chosen (findings : Findings) (pageDates : Bool) (hit : RawSearchHit)
    (enrichment : HitEnrichment) : Option (DateTime × DateConfidence) :=
  cascade hit.publishedAt (if pageDates then findings.pageDate hit.url else none)
    enrichment.publishedAt

-- The pages of the hits that have no date.
def undatedUrls (pageDates : Bool) (hits : List RawSearchHit) : List String :=
  (hits.filter fun hit => hit.publishedAt = none ∧ pageDates).map RawSearchHit.url

theorem fetches_append (past events : List (Event AgentPorts)) :
    fetches (past ++ events) = fetches past ++ fetches events := List.filterMap_append

theorem deliveries_append (past events : List (Event AgentPorts)) :
    deliveries (past ++ events) = deliveries past ++ deliveries events := List.filterMap_append

theorem undatedUrls_cons (pageDates : Bool) (hit : RawSearchHit) (hits : List RawSearchHit) :
    undatedUrls pageDates (hit :: hits) = undatedUrls pageDates [hit] ++ undatedUrls pageDates hits := by
  unfold undatedUrls
  rw [← List.map_append, ← List.filter_append, List.singleton_append]

-- What a part of a run fetches; it delivers nothing.
structure Fetches (urls : List String) (past later : List (Event AgentPorts)) : Prop where
  fetched : fetches later = fetches past ++ urls
  undelivered : deliveries later = deliveries past

theorem fetches_none (past : List (Event AgentPorts)) : Fetches [] past past :=
  ⟨(List.append_nil _).symm, rfl⟩

theorem fetches_page (past : List (Event AgentPorts)) (url : String)
    (answer : Except PyException (Option DateTime)) :
    Fetches [url] past (past ++ [⟨.fetchPublishedDate url, answer⟩]) :=
  ⟨fetches_append _ _, (deliveries_append _ _).trans (List.append_nil _)⟩

theorem Fetches.trans {urls urls' : List String} {past later last : List (Event AgentPorts)}
    (h : Fetches urls past later) (h' : Fetches urls' later last) :
    Fetches (urls ++ urls') past last where
  fetched := by rw [h'.fetched, h.fetched, List.append_assoc]
  undelivered := h'.undelivered.trans h.undelivered

-- A call of a port that answers a value goes on with it.
theorem call_yields_bind {oracle : Oracle AgentPorts} {α β : Type} {past : List (Event AgentPorts)}
    {post : Except PyException β → List (Event AgentPorts) → Prop} {request : AgentCall}
    {result : request.Answer → Except PyException α} {value : α} {f : α → AgentRun β}
    (hanswer : result (oracle past request) = .ok value)
    (h : (f value).run.Yields oracle.handler post (past ++ [⟨request, oracle past request⟩])) :
    (raising (.call request fun answer => .done (result answer)) >>= f).run.Yields oracle.handler
      post past := by
  have hfirst : result (oracle.handler request past).1 = .ok value := hanswer
  rw [Fallible.run_raising_bind, Program.call_bind, Program.yields_call, hfirst]
  exact h

-- A dated result is before an undated one.
def NewestFirst (a b : ResearchResult) : Prop :=
  ∀ later ∈ b.publishedAt, ∃ date ∈ a.publishedAt, later.instant ≤ date.instant

theorem asUtc_eq {date : DateTime} (h : Representable date.instant) :
    asUtc date = .ok ⟨date.instant, some 0, h⟩ := by
  obtain ⟨wall, offset, hwall⟩ := date
  cases offset with
  | none =>
      have hnaive : DateTime.instant ⟨wall, none, hwall⟩ = wall := Int.sub_zero wall
      simp only [asUtc, DateTime.isNaive, DateTime.replaceUtc, hnaive, Option.isNone_none, if_true]
  | some offset =>
      simp only [asUtc, DateTime.isNaive, DateTime.astimezoneUtc, Option.isNone_some, dif_pos h]
      rfl

-- What the choice of a date makes of the cascade.
structure Chooses (choice : Option (DateTime × DateConfidence))
    (dated : Option DateTime × DateConfidence) : Prop where
  date : dated.1.map DateTime.instant = choice.map fun choice => choice.1.instant
  utc : ∀ date ∈ dated.1, date.offset = some 0
  confidence : dated.2 = (choice.map Prod.snd).getD .unknown
  undated : dated.1 = none ↔ dated.2 = .unknown

theorem chooses_some {date : DateTime} {confidence : DateConfidence}
    (h : Representable date.instant) (hknown : confidence ≠ .unknown) :
    ∃ dated, (do return (some (← asUtc date), confidence)) = Except.ok dated ∧
      Chooses (some (date, confidence)) dated := by
  refine ⟨(some ⟨date.instant, some 0, h⟩, confidence), ?_, ?_, fun other hother => ?_, rfl, ?_⟩
  · rw [asUtc_eq h]
    rfl
  · exact congrArg some (Int.sub_zero date.instant)
  · cases hother
    rfl
  · exact iff_of_false (fun hnone => by cases hnone) hknown

theorem chooseDate_eq {provider page guess : Option DateTime}
    (hdate : ∀ choice ∈ cascade provider page guess, Representable choice.1.instant) :
    ∃ dated, chooseDate provider page guess = .ok dated ∧
      Chooses (cascade provider page guess) dated := by
  cases provider with
  | some date => exact chooses_some (hdate (date, .high) rfl) (by decide)
  | none =>
      cases page with
      | some date => exact chooses_some (hdate (date, .high) rfl) (by decide)
      | none =>
          cases guess with
          | some date => exact chooses_some (hdate (date, .medium) rfl) (by decide)
          | none =>
              refine ⟨(none, .unknown), rfl, rfl, fun date hnone => ?_, rfl, iff_of_true rfl rfl⟩
              cases hnone

theorem newestFirst_iff (a b : ResearchResult) : NewestFirst a b ↔ keyLe (sortKey a) (sortKey b) := by
  unfold NewestFirst keyLe sortKey
  cases a.publishedAt with
  | none => cases b.publishedAt <;> simp
  | some date => cases b.publishedAt <;> simp

theorem sort_newestFirst (results : List ResearchResult) :
    (sortByPublicationDate results).Pairwise NewestFirst := by
  have htotal : Std.Total fun a b : ResearchResult => keyLe (sortKey a) (sortKey b) :=
    ⟨fun a b => by unfold keyLe; omega⟩
  have htrans : IsTrans ResearchResult fun a b => keyLe (sortKey a) (sortKey b) :=
    ⟨fun a b c hab hbc => by unfold keyLe at hab hbc ⊢; omega⟩
  refine (List.pairwise_insertionSort _ results).imp fun {a b} h => ?_
  exact (newestFirst_iff a b).mpr h

theorem sort_stable (results : List ResearchResult) (instant : Option Int) :
    ((sortByPublicationDate results).filter fun result =>
        result.publishedAt.map DateTime.instant = instant) =
      results.filter fun result => result.publishedAt.map DateTime.instant = instant := by
  refine filter_insertionSort results fun a b ha hb => ?_
  have hinstant := (of_decide_eq_true ha).trans (of_decide_eq_true hb).symm
  have hsame : sortKey a = sortKey b := by
    unfold sortKey
    revert hinstant
    cases a.publishedAt <;> cases b.publishedAt <;> simp
  unfold keyLe
  rw [hsame]
  omega

section

variable [Unicode]

-- The hits of a run: the first of each canonical URL.
def Findings.hits (findings : Findings) : List RawSearchHit :=
  firsts (fun hit => canonical hit.url) findings.found

-- What a run makes of a hit and its enrichment. Dates are compared as instants.
structure Resolves (findings : Findings) (pageDates : Bool) (seenUrls : Option (List String))
    (hit : RawSearchHit) (enrichment : HitEnrichment) (result : ResearchResult) : Prop where
  title : result.title = hit.title
  url : result.url = hit.url
  snippet : result.snippet = hit.snippet
  raw : result.raw = hit.raw
  eventType : result.eventType = enrichment.eventType
  summary : result.summary = enrichment.summary
  date : result.publishedAt.map DateTime.instant =
    (findings.chosen pageDates hit enrichment).map fun choice => choice.1.instant
  utc : ∀ date ∈ result.publishedAt, date.offset = some 0
  confidence : result.dateConfidence =
    ((findings.chosen pageDates hit enrichment).map Prod.snd).getD .unknown
  undated : result.publishedAt = none ↔ result.dateConfidence = .unknown
  isNew : result.isNew = true ↔
    ∀ seen ∈ seenUrls, canonical result.url ∉ seen.map canonical

-- The results of the hits, one by one.
def ResolvesHits (findings : Findings) (pageDates : Bool) (seenUrls : Option (List String))
    (results : List ResearchResult) : Prop :=
  List.Forall₂ (fun pair result => Resolves findings pageDates seenUrls pair.1 pair.2 result)
    (findings.hits.zip (findings.enrich findings.hits)) results

-- One result for each hit, the newest first; those of one instant, and those
-- without a date, are in the order of the hits.
structure Delivers (findings : Findings) (pageDates : Bool) (seenUrls : Option (List String))
    (delivered : List ResearchResult) : Prop where
  distinct : (delivered.map fun result => canonical result.url).Nodup
  covers : ∀ hit ∈ findings.found, ∃ result ∈ delivered, canonical result.url = canonical hit.url
  newestFirst : delivered.Pairwise NewestFirst
  resolved : ∃ resolved, ResolvesHits findings pageDates seenUrls resolved ∧
    delivered.Perm resolved ∧
    ∀ instant, (delivered.filter fun result => result.publishedAt.map DateTime.instant = instant) =
      resolved.filter fun result => result.publishedAt.map DateTime.instant = instant

theorem dedupeHit_eq (seen : List String) (kept : List RawSearchHit) {hit : RawSearchHit}
    (hurl : Returns (normalizeUrl hit.url)) :
    dedupeHit (seen, kept) hit = .ok (if canonical hit.url ∈ seen then (seen, kept)
      else (seen ++ [canonical hit.url], kept ++ [hit])) := by
  unfold dedupeHit
  rw [normalizeUrl_eq hurl]
  by_cases hseen : canonical hit.url ∈ seen
  · rw [if_pos hseen]
    exact if_neg (not_not_intro hseen)
  · rw [if_neg hseen]
    exact if_pos hseen

-- The keys seen are those of the hits kept.
theorem foldlM_dedupeHit (found : List RawSearchHit)
    (hurls : ∀ hit ∈ found, Returns (normalizeUrl hit.url)) (seen : List String)
    (kept : List RawSearchHit) : ∃ seen', found.foldlM dedupeHit (seen, kept) = .ok (seen',
      kept ++ firsts (fun hit => canonical hit.url)
        (found.filter fun hit => canonical hit.url ∉ seen)) := by
  induction found generalizing seen kept with
  | nil => exact ⟨seen, congrArg (fun hits => Except.ok (seen, hits)) (List.append_nil kept).symm⟩
  | cons hit rest ih =>
      obtain ⟨hurl, hrest⟩ := List.forall_mem_cons.mp hurls
      rw [List.foldlM_cons, dedupeHit_eq seen kept hurl]
      by_cases hseen : canonical hit.url ∈ seen
      · rw [if_pos hseen, List.filter_cons_of_neg (by simpa using hseen)]
        exact ih hrest seen kept
      · obtain ⟨seen', hfold⟩ := ih hrest (seen ++ [canonical hit.url]) (kept ++ [hit])
        have hfilter : (rest.filter fun other => canonical other.url ∉ seen ++ [canonical hit.url]) =
            (rest.filter fun other => canonical other.url ∉ seen).filter fun other =>
              canonical other.url ≠ canonical hit.url := by
          rw [List.filter_filter]
          refine List.filter_congr fun other _ => ?_
          simp [and_comm]
        rw [if_neg hseen, List.filter_cons_of_pos (by simpa using hseen), firsts_cons, ← hfilter]
        refine ⟨seen', hfold.trans ?_⟩
        rw [List.append_assoc, List.singleton_append]

theorem dedupeHits_eq {findings : Findings}
    (hurls : ∀ hit ∈ findings.found, Returns (normalizeUrl hit.url)) :
    dedupeHits findings.found = .ok findings.hits := by
  obtain ⟨seen, hfold⟩ := foldlM_dedupeHit findings.found hurls [] []
  unfold dedupeHits
  rw [hfold, Findings.hits]
  simp only [List.not_mem_nil, not_false_eq_true, decide_true, List.filter_true, List.nil_append]
  rfl

variable {findings : Findings} {jobId keyword : String} {oracle : Oracle AgentPorts}

theorem resolveHit_yields (hports : findings.Answer jobId keyword oracle) {pageDates : Bool}
    {hit : RawSearchHit} {enrichment : HitEnrichment}
    (hdate : ∀ choice ∈ findings.chosen pageDates hit enrichment, Representable choice.1.instant)
    (past : List (Event AgentPorts)) :
    (resolveHit pageDates hit enrichment).run.Yields oracle.handler
      (fun answer later => ∃ result, answer = .ok result ∧
        Resolves findings pageDates none hit enrichment result ∧
        Fetches (undatedUrls pageDates [hit]) past later) past := by
  have hresolved : ∀ pageDate, cascade hit.publishedAt pageDate enrichment.publishedAt =
      findings.chosen pageDates hit enrichment → ∃ dated,
        chooseDate hit.publishedAt pageDate enrichment.publishedAt = .ok dated ∧
        Resolves findings pageDates none hit enrichment {
          title := hit.title
          url := hit.url
          snippet := hit.snippet
          publishedAt := dated.1
          dateConfidence := dated.2
          eventType := enrichment.eventType
          summary := enrichment.summary
          raw := hit.raw } := by
    intro pageDate hchosen
    rw [← hchosen] at hdate
    obtain ⟨dated, hdated, hchooses⟩ := chooseDate_eq hdate
    rw [hchosen] at hchooses
    refine ⟨dated, hdated, rfl, rfl, rfl, rfl, rfl, rfl, hchooses.date, hchooses.utc,
      hchooses.confidence, hchooses.undated, iff_of_true rfl fun seen hseen => ?_⟩
    cases hseen
  unfold resolveHit
  by_cases hfetch : hit.publishedAt = none ∧ pageDates = true
  · rw [if_pos hfetch]
    obtain ⟨dated, hdated, hresult⟩ := hresolved (findings.pageDate hit.url) (by
      rw [Findings.chosen, hfetch.2, if_pos rfl])
    refine call_yields_bind (hports.fetched past hit.url) ?_
    beta_reduce
    rw [hdated, Fallible.orRaise_ok_bind]
    have hurls : undatedUrls pageDates [hit] = [hit.url] := by simp [undatedUrls, hfetch]
    rw [hurls]
    exact ⟨_, rfl, hresult, fetches_page past hit.url _⟩
  · rw [if_neg hfetch]
    obtain ⟨dated, hdated, hresult⟩ := hresolved none (by
      unfold Findings.chosen
      cases hprovider : hit.publishedAt with
      | some date => rfl
      | none =>
          have hoff : ¬ pageDates = true := fun hon => hfetch ⟨hprovider, hon⟩
          rw [if_neg hoff])
    rw [pure_bind]
    beta_reduce
    rw [hdated, Fallible.orRaise_ok_bind]
    have hurls : undatedUrls pageDates [hit] = [] := by
      rw [undatedUrls, List.filter_cons_of_neg (by simpa using hfetch)]
      rfl
    rw [hurls]
    exact ⟨_, rfl, hresult, fetches_none past⟩

theorem resolveZip_yields (hports : findings.Answer jobId keyword oracle) {pageDates : Bool}
    (hits : List RawSearchHit) (enrichments : List HitEnrichment)
    (hlength : enrichments.length = hits.length)
    (hdates : ∀ pair ∈ hits.zip enrichments, ∀ choice ∈ findings.chosen pageDates pair.1 pair.2,
      Representable choice.1.instant) (past : List (Event AgentPorts)) :
    (resolveZip pageDates hits enrichments).run.Yields oracle.handler
      (fun answer later => ∃ results, answer = .ok results ∧
        List.Forall₂ (fun pair result => Resolves findings pageDates none pair.1 pair.2 result)
          (hits.zip enrichments) results ∧
        Fetches (undatedUrls pageDates hits) past later) past := by
  induction hits generalizing enrichments past with
  | nil =>
      cases enrichments with
      | nil => exact ⟨[], rfl, .nil, fetches_none past⟩
      | cons enrichment rest => cases hlength
  | cons hit hits ih =>
      cases enrichments with
      | nil => cases hlength
      | cons enrichment enrichments =>
          obtain ⟨hdate, hdates⟩ := List.forall_mem_cons.mp hdates
          unfold resolveZip
          rw [ExceptT.run_bind, Program.yields_bind]
          refine (resolveHit_yields hports hdate past).mono fun answer later hanswer => ?_
          obtain ⟨result, rfl, hresult, hfetch⟩ := hanswer
          dsimp only
          rw [ExceptT.run_bind, Program.yields_bind]
          have hrest := ih enrichments (Nat.succ.inj hlength) hdates later
          refine hrest.mono fun answer last hanswer => ?_
          obtain ⟨results, rfl, hresults, hfetches⟩ := hanswer
          rw [undatedUrls_cons]
          exact ⟨_, rfl, .cons hresult hresults, hfetch.trans hfetches⟩

theorem resolveHits_yields (hports : findings.Answer jobId keyword oracle) {pageDates : Bool}
    (hdates : ∀ pair ∈ findings.hits.zip (findings.enrich findings.hits),
      ∀ choice ∈ findings.chosen pageDates pair.1 pair.2, Representable choice.1.instant)
    (past : List (Event AgentPorts)) :
    (resolveHits pageDates findings.hits).run.Yields oracle.handler
      (fun answer later => ∃ results, answer = .ok results ∧
        ResolvesHits findings pageDates none results ∧
        Fetches (undatedUrls pageDates findings.hits) past later) past := by
  refine call_yields_bind (hports.enriched past findings.hits) ?_
  have hzip := resolveZip_yields hports findings.hits _ (findings.matching findings.hits) hdates
    (past ++ [⟨.enrichMany findings.hits, oracle past (.enrichMany findings.hits)⟩])
  refine hzip.mono fun answer later hanswer => ?_
  obtain ⟨results, hok, hresults, hfetches⟩ := hanswer
  refine ⟨results, hok, hresults, ?_, ?_⟩
  · rw [hfetches.fetched, fetches_append]
    exact congrArg (· ++ undatedUrls pageDates findings.hits) (List.append_nil _)
  · rw [hfetches.undelivered, deliveries_append]
    exact List.append_nil _

-- What a run with known URLs makes of a result.
def flagged (seenUrls : Option (List String)) (result : ResearchResult) : ResearchResult :=
  match seenUrls with
  | none => result
  | some seen => { result with isNew := canonical result.url ∉ seen.map canonical }

theorem flagged_publishedAt (seenUrls : Option (List String)) (result : ResearchResult) :
    (flagged seenUrls result).publishedAt = result.publishedAt := by
  cases seenUrls <;> rfl

theorem Resolves.flag {pageDates : Bool} {hit : RawSearchHit} {enrichment : HitEnrichment}
    {result : ResearchResult} (h : Resolves findings pageDates none hit enrichment result)
    (seenUrls : Option (List String)) :
    Resolves findings pageDates seenUrls hit enrichment (flagged seenUrls result) := by
  cases seenUrls with
  | none => exact h
  | some seen =>
      refine { h with isNew := ?_ }
      simp only [flagged, decide_eq_true_eq, Option.mem_some_iff, forall_eq']

theorem flagNew_eq {results : List ResearchResult} {seen : List String}
    (hresults : ∀ result ∈ results, Returns (normalizeUrl result.url))
    (hseen : ∀ url ∈ seen, Returns (normalizeUrl url)) :
    flagNew results seen = .ok (results.map (flagged (some seen))) := by
  have hkeys : seen.mapM normalizeUrl = .ok (seen.map canonical) :=
    mapM_eq_map fun url hurl => normalizeUrl_eq (hseen url hurl)
  unfold flagNew
  rw [hkeys]
  refine mapM_eq_map fun result hresult => ?_
  rw [normalizeUrl_eq (hresults result hresult)]
  rfl

theorem ResolvesHits.urls {pageDates : Bool} {seenUrls : Option (List String)}
    {results : List ResearchResult} (h : ResolvesHits findings pageDates seenUrls results) :
    results.map ResearchResult.url = findings.hits.map RawSearchHit.url := by
  have hpairs : (findings.hits.zip (findings.enrich findings.hits)).map (fun pair => pair.1.url) =
      results.map ResearchResult.url := by
    rw [← List.forall₂_eq_eq_eq, List.forall₂_map_left_iff, List.forall₂_map_right_iff]
    exact h.imp fun pair result hresult => hresult.url.symm
  have hlength := (findings.matching findings.hits).ge
  have hhits := List.map_fst_zip hlength
  rw [← hpairs, ← congrArg (List.map RawSearchHit.url) hhits, List.map_map]
  rfl

theorem ResolvesHits.flag {pageDates : Bool} {results : List ResearchResult}
    (h : ResolvesHits findings pageDates none results) (seenUrls : Option (List String)) :
    ResolvesHits findings pageDates seenUrls (results.map (flagged seenUrls)) := by
  unfold ResolvesHits
  rw [List.forall₂_map_right_iff]
  exact h.imp fun pair result hresult => hresult.flag seenUrls

theorem ResolvesHits.delivers {pageDates : Bool} {results : List ResearchResult}
    (h : ResolvesHits findings pageDates none results) (seenUrls : Option (List String)) :
    Delivers findings pageDates seenUrls ((sortByPublicationDate results).map (flagged seenUrls)) := by
  have hperm : ((sortByPublicationDate results).map (flagged seenUrls)).Perm
      (results.map (flagged seenUrls)) := (List.perm_insertionSort _ results).map _
  have hkeys : ((results.map (flagged seenUrls)).map fun result => canonical result.url) =
      findings.hits.map fun hit => canonical hit.url := by
    have hurls := congrArg (List.map canonical) (h.flag seenUrls).urls
    simpa only [List.map_map, Function.comp_def] using hurls
  have hdelivered := hperm.map fun result => canonical result.url
  rw [hkeys] at hdelivered
  have hdistinct : (findings.hits.map fun hit => canonical hit.url).Nodup := by
    unfold Findings.hits
    exact firsts_nodup _ findings.found
  refine ⟨hdelivered.symm.nodup hdistinct, fun hit hhit => ?_, ?_,
    _, h.flag seenUrls, hperm, fun instant => ?_⟩
  · obtain ⟨first, hfirst, hsame⟩ := firsts_covers (fun hit => canonical hit.url) findings.found hit hhit
    have hmem : canonical first.url ∈ findings.hits.map fun hit => canonical hit.url :=
      List.mem_map.mpr ⟨first, hfirst, rfl⟩
    obtain ⟨result, hresult, hurl⟩ := List.mem_map.mp (hdelivered.mem_iff.mpr hmem)
    exact ⟨result, hresult, hurl.trans hsame⟩
  · refine List.pairwise_map.mpr ((sort_newestFirst results).imp fun {a b} hab => ?_)
    unfold NewestFirst at hab ⊢
    rw [flagged_publishedAt, flagged_publishedAt]
    exact hab
  · have hdates : (fun result : ResearchResult => decide (result.publishedAt.map DateTime.instant =
        instant)) ∘ flagged seenUrls = fun result =>
          decide (result.publishedAt.map DateTime.instant = instant) := by
      funext result
      simp only [Function.comp_apply, flagged_publishedAt]
    rw [List.filter_map, List.filter_map, hdates]
    exact congrArg (List.map (flagged seenUrls)) (sort_stable results instant)

omit [Unicode] in
theorem deliver_yields {past : List (Event AgentPorts)} {urls : List String}
    (delivered : List ResearchResult) (hpast : Fetches urls [] past) :
    (do
      raising (ask (.deliver jobId delivered))
      return delivered : AgentRun (List ResearchResult)).run.Yields oracle.handler
      (fun _ events => deliveries events = [(jobId, delivered)] ∧ fetches events = urls) past := by
  have hevents : ∀ answer : Except PyException Unit,
      deliveries (past ++ [⟨.deliver jobId delivered, answer⟩]) = [(jobId, delivered)] ∧
        fetches (past ++ [⟨.deliver jobId delivered, answer⟩]) = urls := by
    intro answer
    rw [deliveries_append, fetches_append, hpast.undelivered, hpast.fetched]
    exact ⟨rfl, List.append_nil urls⟩
  rw [Fallible.run_raising_bind, ask, Program.call_bind, Program.yields_call]
  cases (oracle.handler (.deliver jobId delivered) past).1 with
  | ok _ => exact hevents _
  | error e => exact hevents _

theorem research_yields (hports : findings.Answer jobId keyword oracle)
    {seenUrls : Option (List String)} {pageDates : Bool}
    (hurls : ∀ hit ∈ findings.found, Returns (normalizeUrl hit.url))
    (hseen : ∀ seen ∈ seenUrls, ∀ url ∈ seen, Returns (normalizeUrl url))
    (hdates : ∀ pair ∈ findings.hits.zip (findings.enrich findings.hits),
      ∀ choice ∈ findings.chosen pageDates pair.1 pair.2, Representable choice.1.instant) :
    (research jobId keyword seenUrls pageDates).run.Yields oracle.handler
      (fun _ events => ∃ delivered, deliveries events = [(jobId, delivered)] ∧
        Delivers findings pageDates seenUrls delivered ∧
        fetches events = undatedUrls pageDates findings.hits) [] := by
  unfold research
  refine call_yields_bind (hports.started []) (call_yields_bind (hports.searched _) ?_)
  rw [dedupeHits_eq hurls, Fallible.orRaise_ok_bind, map_eq_pure_bind, bind_assoc, ExceptT.run_bind,
    Program.yields_bind]
  refine (resolveHits_yields hports hdates _).mono fun answer later hanswer => ?_
  obtain ⟨results, rfl, hresults, hfetches⟩ := hanswer
  have hdelivers := hresults.delivers seenUrls
  have hreturned : ∀ result ∈ sortByPublicationDate results, Returns (normalizeUrl result.url) := by
    intro result hresult
    have hurl := List.mem_map_of_mem (f := ResearchResult.url)
      ((List.mem_insertionSort _).mp hresult)
    rw [hresults.urls] at hurl
    obtain ⟨hit, hhit, hsame⟩ := List.mem_map.mp hurl
    rw [← hsame]
    exact hurls hit ((firsts_sublist _ findings.found).subset hhit)
  have hstarted : Fetches [] [] [⟨.markStarted jobId, oracle [] (.markStarted jobId)⟩,
      ⟨.search keyword, oracle [⟨.markStarted jobId, oracle [] (.markStarted jobId)⟩]
        (.search keyword)⟩] := ⟨rfl, rfl⟩
  have hlater := hstarted.trans hfetches
  rw [List.nil_append] at hlater
  have hlast : ∀ delivered, Delivers findings pageDates seenUrls delivered →
      (do
        raising (ask (.deliver jobId delivered))
        return delivered : AgentRun (List ResearchResult)).run.Yields oracle.handler
        (fun _ events => ∃ delivered, deliveries events = [(jobId, delivered)] ∧
          Delivers findings pageDates seenUrls delivered ∧
          fetches events = undatedUrls pageDates findings.hits) later := by
    intro delivered hdelivers
    refine (deliver_yields delivered hlater).mono fun answer events hanswer => ?_
    exact ⟨delivered, hanswer.1, hdelivers, hanswer.2⟩
  cases seenUrls with
  | none =>
      have hsame : (sortByPublicationDate results).map (flagged none) =
        sortByPublicationDate results := List.map_id _
      rw [hsame] at hdelivers
      exact hlast _ hdelivers
  | some seen =>
      dsimp only
      rw [pure_bind, flagNew_eq hreturned (hseen seen rfl), Fallible.orRaise_ok_bind]
      exact hlast _ hdelivers

-- The workflow mode delivers once, and fetches the pages of the hits without a
-- date. The dates it chooses must have a UTC clock.
theorem runResearch_delivers (findings : Findings) (jobId keyword : String)
    (oracle : Oracle AgentPorts) (hports : findings.Answer jobId keyword oracle)
    (seenUrls : Option (List String)) (pageDates : Bool)
    (hurls : ∀ hit ∈ findings.found, Returns (normalizeUrl hit.url))
    (hseen : ∀ seen ∈ seenUrls, ∀ url ∈ seen, Returns (normalizeUrl url))
    (hdates : ∀ pair ∈ findings.hits.zip (findings.enrich findings.hits),
      ∀ choice ∈ findings.chosen pageDates pair.1 pair.2, Representable choice.1.instant) :
    ∃ delivered,
      deliveries ((runResearch jobId keyword seenUrls pageDates).execute oracle).2 =
        [(jobId, delivered)] ∧
      Delivers findings pageDates seenUrls delivered ∧
      fetches ((runResearch jobId keyword seenUrls pageDates).execute oracle).2 =
        undatedUrls pageDates findings.hits := by
  have hrun : (runResearch jobId keyword seenUrls pageDates).Yields oracle.handler
      (fun _ events => ∃ delivered, deliveries events = [(jobId, delivered)] ∧
        Delivers findings pageDates seenUrls delivered ∧
        fetches events = undatedUrls pageDates findings.hits) [] := by
    unfold runResearch reportingFailure
    rw [Program.yields_bind]
    refine (research_yields hports hurls hseen hdates).mono fun result events h => ?_
    cases result with
    | ok results => exact h
    | error e =>
        obtain ⟨delivered, hdelivered, hdelivers, hfetched⟩ := h
        refine ⟨delivered, ?_, hdelivers, ?_⟩
        · exact (deliveries_append _ _).trans ((List.append_nil _).trans hdelivered)
        · exact (fetches_append _ _).trans ((List.append_nil _).trans hfetched)
  exact hrun

end

namespace Sample

-- A search finds a page in two spellings, another one, and one with a date of
-- the first year, east of Greenwich.
def findings (dated : Option DateTime) : Findings where
  found := [hit "https://ex.com/a", hit "https://ex.com/a?utm_source=x",
    { hit "https://ex.com/b" with publishedAt := dated }]
  enrich hits := hits.map fun _ => {}
  matching _ := List.length_map _
  pageDate _ := none

-- A page with a date of its provider, one that declares its date, and one whose date the
-- model finds; the others have none.
def dated : Findings where
  found := [{ hit "https://ex.com/a" with publishedAt := some ⟨1767225600000000, some 0, by decide⟩ },
    hit "https://ex.com/a?utm_source=x", hit "https://ex.com/b", hit "https://ex.com/c",
    hit "https://ex.com/d"]
  enrich hits := hits.map fun hit =>
    if hit.url = "https://ex.com/c" then
      { publishedAt := some ⟨1767312000000000, none, by decide⟩, eventType := .release
        summary := some "Lean 4.33.0 is out." }
    else
      {}
  matching _ := List.length_map _
  pageDate url :=
    if url = "https://ex.com/b" then some ⟨1767398400000000, some 3600000000, by decide⟩ else none

def dates : Oracle AgentPorts
  | _, .search _ => .ok dated.found
  | _, .enrichMany hits => .ok (dated.enrich hits)
  | _, .fetchPublishedDate url => .ok (dated.pageDate url)
  | past, request => answers dated.found past request

theorem dates_answer (jobId keyword : String) : dated.Answer jobId keyword dates :=
  ⟨fun _ => rfl, fun _ => rfl, fun _ _ => rfl, fun _ _ => rfl⟩

def firstYear : DateTime := ⟨-62135596800000000, some 3600000000, by decide⟩

theorem findings_answer (dated : Option DateTime) (jobId keyword : String) :
    (findings dated).Answer jobId keyword (answers (findings dated).found) :=
  ⟨fun _ => rfl, fun _ => rfl, fun _ _ => rfl, fun _ _ => rfl⟩

end Sample

theorem runResearch_date_overflow :
    letI := Sample.unicode
    ¬ ∀ (findings : Findings) (jobId keyword : String) (oracle : Oracle AgentPorts)
      (seenUrls : Option (List String)) (pageDates : Bool),
      findings.Answer jobId keyword oracle →
      (∀ hit ∈ findings.found, Returns (normalizeUrl hit.url)) →
      (∀ seen ∈ seenUrls, ∀ url ∈ seen, Returns (normalizeUrl url)) →
      ∃ delivered, deliveries ((runResearch jobId keyword seenUrls pageDates).execute oracle).2 =
        [(jobId, delivered)] := by
  let := Sample.unicode
  intro h
  obtain ⟨delivered, hdelivered⟩ := h _ "job" "lean 4" _ none false
    (Sample.findings_answer (some Sample.firstYear) "job" "lean 4") (by decide +kernel)
    (by decide +kernel)
  have hnone : (deliveries ((runResearch "job" "lean 4" none false).execute
      (Sample.answers (Sample.findings (some Sample.firstYear)).found)).2).length = 0 := by
    decide +kernel
  rw [hdelivered] at hnone
  cases hnone

-- The newest page first, and the undated one last.
theorem runResearch_delivers_sample :
    letI := Sample.unicode
    let run := (runResearch "job" "lean 4" (some ["https://ex.com/a#top"]) true).execute Sample.dates
    ∃ delivered, deliveries run.2 = [("job", delivered)] ∧
      delivered.map (fun result => (result.url, result.dateConfidence, result.isNew)) =
        [("https://ex.com/b", .high, true), ("https://ex.com/c", .medium, true),
          ("https://ex.com/a", .high, false), ("https://ex.com/d", .unknown, true)] ∧
      Delivers Sample.dated true (some ["https://ex.com/a#top"]) delivered ∧
      fetches run.2 = undatedUrls true Sample.dated.hits := by
  let := Sample.unicode
  intro run
  obtain ⟨delivered, hdelivered, hdelivers, hfetched⟩ := runResearch_delivers Sample.dated "job"
    "lean 4" Sample.dates (Sample.dates_answer "job" "lean 4") (some ["https://ex.com/a#top"]) true
    (by decide +kernel) (by decide +kernel) (by decide +kernel)
  have hshown : (deliveries run.2).map (fun delivery => delivery.2.map fun result =>
      (result.url, result.dateConfidence, result.isNew)) =
        [[("https://ex.com/b", .high, true), ("https://ex.com/c", .medium, true),
          ("https://ex.com/a", .high, false), ("https://ex.com/d", .unknown, true)]] := by
    decide +kernel
  have hshown : [delivered.map fun result =>
      (result.url, result.dateConfidence, result.isNew)] = _ :=
    (congrArg _ hdelivered).symm.trans hshown
  exact ⟨delivered, hdelivered, List.singleton_inj.mp hshown, hdelivers, hfetched⟩

end AgentBoilerplate.Agent
