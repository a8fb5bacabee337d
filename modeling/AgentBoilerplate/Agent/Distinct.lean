import AgentBoilerplate.Agent.Numbering
import AgentBoilerplate.Agent.Outcomes
import AgentBoilerplate.Agent.Workflow
import AgentBoilerplate.Effects.Runs
import Mathlib.Data.List.Dedup

namespace AgentBoilerplate.Agent

open Python Effects Fallible Collections

-- The collection of a run as its marks tell it: the hits, and how many URLs the
-- last search added to them.
structure Collection where
  hits : List RawSearchHit
  added : Nat

section

variable [Unicode]

def urlKeys (hits : List RawSearchHit) : List String := hits.map fun hit => canonical hit.url

-- The hits of an answer whose URLs are not collected yet.
def fresh (hits found : List RawSearchHit) : List RawSearchHit :=
  found.filter fun hit => canonical hit.url ∉ urlKeys hits

def Collection.after (collection : Collection) : Mark → Collection
  | .searched (.ok found) =>
      ⟨collection.hits ++ fresh collection.hits found,
        (urlKeys (fresh collection.hits found)).dedup.length⟩
  | .critiqued (.ok verdict) => { collection with hits := verdict.kept collection.hits }
  | _ => collection

-- An answer does not repeat a URL that it adds; one with a URL that is not
-- accepted is not used.
def Collection.Apart (collection : Collection) : Mark → Prop
  | .searched (.ok found) => (∀ hit ∈ found, Returns (normalizeUrl hit.url)) →
      (urlKeys (fresh collection.hits found)).Nodup
  | _ => True

instance (collection : Collection) : (m : Mark) → Decidable (collection.Apart m)
  | .searched (.ok found) => inferInstanceAs (Decidable ((∀ hit ∈ found,
      Returns (normalizeUrl hit.url)) → (urlKeys (fresh collection.hits found)).Nodup))
  | .searched (.error _) | .decided | .critiqued _ | .asked | .recorded _ => isTrue trivial

-- A search step counts the URLs that its search added.
def Collection.Counts (collection : Collection) : Mark → Prop
  | .recorded step => step.kind = .search → step.newHits = collection.added
  | _ => True

-- The answers of the providers repeat no new URL.
def AnswersApart (hits : List RawSearchHit) (events : List (Event AgentPorts)) : Prop :=
  Permits Collection.after Collection.Apart ⟨hits, 0⟩ (marks events)

instance (hits : List RawSearchHit) (events : List (Event AgentPorts)) :
    Decidable (AnswersApart hits events) := by
  unfold AnswersApart
  infer_instance

-- What a run that starts from `hits` promises.
structure Unrepeated (hits : List RawSearchHit) (events : List (Event AgentPorts)) : Prop where
  delivered : ∀ delivery ∈ deliveries events,
    (delivery.2.map fun result => canonical result.url).Nodup
  counts : Permits Collection.after Collection.Counts ⟨hits, 0⟩ (marks events)

theorem newHits_eq_ok {collected : List String} {found new : List RawSearchHit}
    (h : newHits collected found = .ok new) :
    (∀ hit ∈ found, Returns (normalizeUrl hit.url)) ∧
      new = found.filter fun hit => canonical hit.url ∉ collected := by
  induction found generalizing new with
  | nil =>
      cases h
      refine ⟨fun hit hhit => ?_, rfl⟩
      cases hhit
  | cons hit found ih =>
      unfold newHits at h
      cases hkey : normalizeUrl hit.url with
      | error e =>
          rw [hkey] at h
          cases h
      | ok key =>
          cases hrest : newHits collected found with
          | error e =>
              rw [hkey, hrest] at h
              cases h
          | ok rest =>
              rw [hkey, hrest] at h
              obtain ⟨hurls, hnew⟩ := ih hrest
              have hcanonical : canonical hit.url = key := by
                unfold canonical
                rw [hkey]
              refine ⟨List.forall_mem_cons.mpr ⟨⟨key, hkey⟩, hurls⟩, ?_⟩
              cases h
              rw [List.filter_cons, hcanonical, hnew]
              simp only [decide_eq_true_eq]

theorem hitKeys_eq_ok {hits : List RawSearchHit} {keys : List String} (h : hitKeys hits = .ok keys) :
    keys = urlKeys hits := by
  have hkeys := (mapM_eq_ok _ hits keys).mp h
  rw [← List.forall₂_eq_eq_eq, urlKeys, List.forall₂_map_right_iff]
  refine hkeys.flip.imp fun key hit hkey => ?_
  unfold canonical
  rw [hkey]

theorem fresh_distinct {hits found : List RawSearchHit} (hhits : (urlKeys hits).Nodup)
    (hfresh : (urlKeys (fresh hits found)).Nodup) : (urlKeys (hits ++ fresh hits found)).Nodup := by
  unfold urlKeys at *
  rw [List.map_append, List.nodup_append]
  refine ⟨hhits, hfresh, fun key hkey other hother hsame => ?_⟩
  obtain ⟨hit, hhit, rfl⟩ := List.mem_map.mp hother
  have hnew := of_decide_eq_true (List.mem_filter.mp hhit).2
  rw [hsame] at hkey
  exact hnew hkey

theorem kept_distinct {hits : List RawSearchHit} (verdict : Critique) (h : (urlKeys hits).Nodup) :
    (urlKeys (verdict.kept hits)).Nodup :=
  h.sublist (List.filter_sublist.map _)

-- A part of a run that raises or pauses counts its hits right.
def Counted (hits : List RawSearchHit) (trace : List Mark) : Prop :=
  ∀ added, Permits Collection.after Collection.Apart ⟨hits, added⟩ trace →
    Permits Collection.after Collection.Counts ⟨hits, added⟩ trace

-- One that goes on collects `later`, and repeats no URL if it had none twice.
structure Gathers (hits : List RawSearchHit) (trace : List Mark) (later : List RawSearchHit) :
    Prop where
  counted : Counted hits trace
  collects : ∀ added, (trace.foldl Collection.after ⟨hits, added⟩).hits = later
  distinct : ∀ added, Permits Collection.after Collection.Apart ⟨hits, added⟩ trace →
    (urlKeys hits).Nodup → (urlKeys later).Nodup

theorem Gathers.counted_append {hits later : List RawSearchHit} {trace trace' : List Mark}
    (h : Gathers hits trace later) (h' : Counted later trace') : Counted hits (trace ++ trace') := by
  intro added hapart
  obtain ⟨hfirst, hrest⟩ := permits_append.mp hapart
  refine permits_append.mpr ⟨h.counted added hfirst, ?_⟩
  have hlater : trace.foldl Collection.after ⟨hits, added⟩ =
      ⟨later, (trace.foldl Collection.after ⟨hits, added⟩).added⟩ := by
    rw [← h.collects added]
  rw [hlater] at hrest ⊢
  exact h' _ hrest

theorem Gathers.distinct_append {hits later last : List RawSearchHit} {trace trace' : List Mark}
    (h : Gathers hits trace later)
    (h' : ∀ added, Permits Collection.after Collection.Apart ⟨later, added⟩ trace' →
      (urlKeys later).Nodup → (urlKeys last).Nodup) {added : Nat}
    (hapart : Permits Collection.after Collection.Apart ⟨hits, added⟩ (trace ++ trace'))
    (hdistinct : (urlKeys hits).Nodup) : (urlKeys last).Nodup := by
  obtain ⟨hfirst, hrest⟩ := permits_append.mp hapart
  have hlater : trace.foldl Collection.after ⟨hits, added⟩ =
      ⟨later, (trace.foldl Collection.after ⟨hits, added⟩).added⟩ := by
    rw [← h.collects added]
  rw [hlater] at hrest
  exact h' _ hrest (h.distinct added hfirst hdistinct)

theorem Gathers.trans {hits later last : List RawSearchHit} {trace trace' : List Mark}
    (h : Gathers hits trace later) (h' : Gathers later trace' last) :
    Gathers hits (trace ++ trace') last where
  counted := h.counted_append h'.counted
  collects added := by
    rw [List.foldl_append, ← h'.collects (trace.foldl Collection.after ⟨hits, added⟩).added,
      ← h.collects added]
  distinct _ := h.distinct_append h'.distinct

-- Marks of a part that neither searches nor reviews.
def Quiet (trace : List Mark) : Prop :=
  ∀ m ∈ trace, ∀ collection : Collection, collection.after m = collection ∧ collection.Counts m

theorem Quiet.permits {trace : List Mark} (h : Quiet trace) (collection : Collection) :
    trace.foldl Collection.after collection = collection ∧
      Permits Collection.after Collection.Counts collection trace := by
  induction trace with
  | nil => exact ⟨rfl, trivial⟩
  | cons m trace ih =>
      obtain ⟨hm, hrest⟩ := List.forall_mem_cons.mp h
      obtain ⟨hsame, hcounts⟩ := hm collection
      obtain ⟨hfold, hpermits⟩ := ih hrest
      rw [List.foldl_cons, Permits, hsame]
      exact ⟨hfold, hcounts, hpermits⟩

theorem quiet_nil : Quiet [] := by
  intro m hm
  cases hm

theorem quiet_singleton {m : Mark} (h : ∀ collection : Collection,
    collection.after m = collection ∧ collection.Counts m) : Quiet [m] := by
  intro m' hm'
  cases List.mem_singleton.mp hm'
  exact h

theorem quiet_unsearched (step : AgentStep) (hkind : step.kind ≠ .search) :
    Quiet [.recorded step] :=
  quiet_singleton fun _ => ⟨rfl, fun hsearch => absurd hsearch hkind⟩

theorem Quiet.gathers {trace : List Mark} (h : Quiet trace) (hits : List RawSearchHit) :
    Gathers hits trace hits where
  counted added _ := (h.permits _).2
  collects added := by rw [(h.permits _).1]
  distinct _ _ hdistinct := hdistinct

theorem Counted.append_quiet {hits : List RawSearchHit} {trace trace' : List Mark}
    (h : Counted hits trace) (h' : Quiet trace') : Counted hits (trace ++ trace') := fun added hapart =>
  permits_append.mpr ⟨h added (permits_append.mp hapart).1, (h'.permits _).2⟩

theorem gathers_nothing (hits : List RawSearchHit) : Gathers hits [] hits := quiet_nil.gathers hits

theorem gathers_unsearched (hits : List RawSearchHit) (step : AgentStep)
    (hkind : step.kind ≠ .search) : Gathers hits [.recorded step] hits :=
  (quiet_unsearched step hkind).gathers hits

theorem gathers_decided (hits : List RawSearchHit) : Gathers hits [.decided] hits :=
  (quiet_singleton fun _ => ⟨rfl, trivial⟩ : Quiet [.decided]).gathers hits

-- A search whose step is recorded.
theorem gathers_found {hits found new : List RawSearchHit} {step : AgentStep}
    (hnew : newHits (urlKeys hits) found = .ok new) (hcount : step.newHits = new.length) :
    Gathers hits [.searched (.ok found), .recorded step] (hits ++ new) := by
  obtain ⟨hurls, hfresh⟩ := newHits_eq_ok hnew
  have hsame : new = fresh hits found := hfresh
  have hlength : (urlKeys (fresh hits found)).length = step.newHits := by
    rw [hcount, hsame]
    exact List.length_map _
  refine ⟨fun added hapart => ⟨trivial, fun _ => ?_, trivial⟩, fun added => ?_, fun added hapart hdistinct => ?_⟩
  · have hnodup := hapart.1 hurls
    change step.newHits = (urlKeys (fresh hits found)).dedup.length
    rw [List.Nodup.dedup hnodup, hlength]
  · rw [hsame]
    rfl
  · rw [hsame]
    exact fresh_distinct hdistinct (hapart.1 hurls)

theorem Searches.gathers {collected : List String} {hits : List RawSearchHit} {recorded : Nat}
    {trace : List Mark} {found : List RawSearchHit × List String × AgentStep}
    (h : Searches collected recorded trace (.ok found)) (hcollected : collected = urlKeys hits) :
    Gathers hits trace (hits ++ found.1) ∧ collected ++ found.2.1 = urlKeys (hits ++ found.1) := by
  cases h with
  | found hnew hkeys hseq hkind hcount =>
      rw [hcollected] at hnew
      refine ⟨gathers_found hnew hcount, ?_⟩
      rw [hcollected, hitKeys_eq_ok hkeys]
      exact List.map_append.symm

theorem Searches.counted {collected : List String} {recorded : Nat} {trace : List Mark}
    {e : PyException} (h : Searches collected recorded trace (.error e)) (hits : List RawSearchHit) :
    Counted hits trace := by
  cases h with
  | failed => exact fun added _ => ⟨trivial, trivial⟩

theorem gathers_reviewed (hits : List RawSearchHit) (verdict : Critique) (step : AgentStep)
    (hkind : step.kind ≠ .search) :
    Gathers hits [.critiqued (.ok verdict), .recorded step] (verdict.kept hits) where
  counted _ _ := ⟨trivial, fun hsearch => absurd hsearch hkind, trivial⟩
  collects _ := rfl
  distinct _ _ := kept_distinct verdict

theorem Reviews.gathers {repairs : Prop} {hits : List RawSearchHit} {recorded : Nat}
    {trace : List Mark} {reviewed : List RawSearchHit × List AgentStep}
    (h : Reviews repairs hits recorded trace (.ok reviewed)) : Gathers hits trace reviewed.1 := by
  cases h with
  | skipped => exact gathers_nothing hits
  | reviewed hseq hkind => exact gathers_reviewed hits _ _ (by simp [hkind])
  | @repaired verdict step _ _ _ hkind _ _ _ hkeys hnew _ _ hcount =>
      rw [hitKeys_eq_ok hkeys] at hnew
      have hreviewed := gathers_reviewed hits verdict step (by simp [hkind])
      exact hreviewed.trans (gathers_found hnew hcount)

theorem Reviews.counted {repairs : Prop} {hits : List RawSearchHit} {recorded : Nat}
    {trace : List Mark} {e : PyException} (h : Reviews repairs hits recorded trace (.error e)) :
    Counted hits trace := by
  cases h with
  | failed => exact fun added _ => ⟨trivial, trivial⟩
  | @repairFailed verdict step _ _ hkind =>
      have hreviewed := gathers_reviewed hits verdict step (by simp [hkind])
      exact hreviewed.counted_append fun added _ => ⟨trivial, trivial⟩

omit [Unicode] in
def GraphState.rawHits (state : GraphState) : List RawSearchHit := state.hits.map hitFromDict

-- The collected keys are those of the hits.
def GraphState.Tracks (state : GraphState) : Prop := state.collected = urlKeys state.rawHits

-- What a node does to the collection. No search follows the node "critique".
def Collects (node : Node) (state : GraphState) (trace : List Mark) :
    Except PyException (NodeResult GraphState String) → Prop
  | .ok (.update next) =>
      Gathers state.rawHits trace next.rawHits ∧ (node ≠ .critique → next.Tracks)
  | .ok (.interrupt _) => Counted state.rawHits trace
  | .error _ => Counted state.rawHits trace

variable {task : AgentTask} {past : List (Event AgentPorts)} {state : GraphState}

theorem node_collects (node : Node) (resume : Option String) (hdue : Due task state node)
    (htracks : state.Tracks) :
    ((buildGraph task).node node resume state).run.Ends (fun events result => ∃ trace,
      marks events = marks past ++ trace ∧ Collects node state trace result) past := by
  cases node with
  | decide =>
      refine (runDecide_ends state).mono fun events result hresult => ?_
      obtain ⟨trace, hevents, hcases⟩ := hresult
      have hquiet : Gathers state.rawHits trace state.rawHits := by
        rcases hcases with ⟨rfl, -⟩ | ⟨rfl, -, -⟩
        · exact gathers_nothing _
        · exact gathers_decided _
      refine ⟨trace, hevents, ?_⟩
      cases result with
      | error e => exact hquiet.counted
      | ok value =>
          have hkept : ∃ action, value = .update { state with next := actionToDict action } := by
            rcases hcases with ⟨-, hfinish⟩ | ⟨-, -, hupdate⟩
            · obtain ⟨reason, hfinish⟩ := hfinish value rfl
              exact ⟨_, hfinish⟩
            · obtain ⟨action, -, hupdate⟩ := hupdate value rfl
              exact ⟨action, hupdate⟩
          obtain ⟨action, rfl⟩ := hkept
          exact ⟨hquiet, fun _ => htracks⟩
  | search =>
      obtain ⟨-, query, reason, hnext⟩ := hdue
      have hstate : state = { state with next := actionToDict (.search query reason) } := by
        rw [← hnext]
      rw [hstate]
      refine (runSearch_ends state query reason).mono fun events result hresult => ?_
      obtain ⟨trace, outcome, hevents, hsearches, rfl⟩ := hresult
      refine ⟨trace, hevents, ?_⟩
      cases outcome with
      | error e => exact hsearches.counted _
      | ok found =>
          obtain ⟨hgathers, hcollected⟩ := hsearches.gathers htracks
          have hhits : (state.searched found.1 found.2.1 found.2.2).rawHits =
              state.rawHits ++ found.1 := by
            simp only [GraphState.rawHits, GraphState.searched, List.map_append, hits_roundtrip]
          refine ⟨?_, fun _ => hcollected.trans (congrArg urlKeys hhits.symm)⟩
          change Gathers state.rawHits trace (state.searched found.1 found.2.1 found.2.2).rawHits
          rw [hhits]
          exact hgathers
  | ask =>
      obtain ⟨question, reason, hnext⟩ := hdue
      have hquestion : state.next.get "question" = .ok question := by
        rw [hnext]
        rfl
      change (Node.runAsk resume state).run.Ends _ past
      unfold Node.runAsk
      rw [hquestion, Fallible.orRaise_ok_bind]
      have hnothing := gathers_nothing state.rawHits
      cases resume with
      | none => exact ⟨[], (List.append_nil _).symm, hnothing.counted⟩
      | some answer => exact ⟨[], (List.append_nil _).symm, hnothing, fun _ => htracks⟩
  | finalize =>
      obtain ⟨reason, hnext⟩ := hdue
      have hstate : state = { state with next := actionToDict (.finish reason) } := by
        rw [← hnext]
      rw [hstate]
      refine (runFinalize_ends state reason).mono fun events result hresult => ?_
      obtain ⟨step, hseq, hkind, hevents, rfl⟩ := hresult
      have hquiet := gathers_unsearched state.rawHits step (by simp [hkind])
      exact ⟨_, hevents, hquiet, fun _ => htracks⟩
  | critique =>
      refine (runCritique_ends state).mono fun events result hresult => ?_
      obtain ⟨trace, outcome, hevents, hreviews, rfl⟩ := hresult
      refine ⟨trace, hevents, ?_⟩
      cases outcome with
      | error e => exact hreviews.counted
      | ok reviewed =>
          refine ⟨?_, fun hnode => absurd rfl hnode⟩
          have hhits : (state.reviewed reviewed.1 reviewed.2).rawHits = reviewed.1 :=
            hits_roundtrip reviewed.1
          rw [hhits]
          exact hreviews.gathers

-- What a run of the graph leaves: hits that repeat no URL, and the keys of
-- them while a node is due.
structure LeavesDistinct (hits : List RawSearchHit) (trace : List Mark)
    (invocation : GraphInvocation) : Prop where
  counted : Counted hits trace
  distinct : ∀ added, Permits Collection.after Collection.Apart ⟨hits, added⟩ trace →
    (urlKeys hits).Nodup → (urlKeys invocation.state.rawHits).Nodup
  tracks : invocation.due ≠ none → invocation.state.Tracks

theorem invoke_distinct {node : Node} {resume : Option String} {limit : Nat} (executed : List Node)
    (hdue : Due task state node) (htracks : state.Tracks) :
    ((buildGraph task).invoke limit executed node resume state).Ends
      (fun events invocation => ∃ trace, marks events = marks past ++ trace ∧
        LeavesDistinct state.rawHits trace invocation) past := by
  induction limit generalizing executed node resume state past with
  | zero =>
      have hnothing := gathers_nothing state.rawHits
      exact ⟨[], (List.append_nil _).symm, hnothing.counted, hnothing.distinct, fun _ => htracks⟩
  | succ limit ih =>
      unfold StateGraph.invoke
      rw [Program.ends_bind]
      refine ((node_staysWithin node resume hdue).and (node_collects node resume hdue htracks)).mono
        fun events result hresult => ?_
      obtain ⟨⟨trace, hevents, hwithin⟩, trace', hevents', hcollects⟩ := hresult
      have hsame : trace' = trace := List.append_cancel_left (hevents'.symm.trans hevents)
      subst hsame
      cases result with
      | error e => exact ⟨trace', hevents', hcollects, fun _ _ h => h, fun _ => htracks⟩
      | ok value =>
          cases value with
          | interrupt question =>
              exact ⟨trace', hevents', hcollects, fun _ _ h => h, fun _ => htracks⟩
          | update state' =>
              obtain ⟨hgathers, hkeeps⟩ := hcollects
              obtain ⟨next, hnext, hwithin⟩ := hwithin
              dsimp only
              rw [hnext]
              cases next with
              | none =>
                  exact ⟨trace', hevents', hgathers.counted, hgathers.distinct, fun h => absurd rfl h⟩
              | some node' =>
                  have hnode : node ≠ .critique := by
                    intro heq
                    rw [heq] at hnext
                    cases hnext
                  refine (ih _ hwithin.1 (hkeeps hnode)).mono fun later invocation hlater => ?_
                  obtain ⟨rest, hrest, hleaves⟩ := hlater
                  refine ⟨trace' ++ rest, ?_, hgathers.counted_append hleaves.counted,
                    fun _ => hgathers.distinct_append hleaves.distinct, hleaves.tracks⟩
                  rw [hrest, hevents', List.append_assoc]

-- A result keeps the URL of its hit.
omit [Unicode] in
theorem resolveHit_url (pageDates : Bool) (hit : RawSearchHit) (enrichment : HitEnrichment) :
    (resolveHit pageDates hit enrichment).run.Ends
      (fun _ result => ∀ value, result = .ok value → value.url = hit.url) past := by
  have hchosen : ∀ pageDate events, ((orRaise (chooseDate hit.publishedAt pageDate
      enrichment.publishedAt) >>= fun chosen => pure {
        title := hit.title
        url := hit.url
        snippet := hit.snippet
        publishedAt := chosen.1
        dateConfidence := chosen.2
        eventType := enrichment.eventType
        summary := enrichment.summary
        raw := hit.raw }) : AgentRun ResearchResult).run.Ends
      (fun _ result => ∀ value, result = .ok value → value.url = hit.url) events := by
    intro pageDate events
    cases chooseDate hit.publishedAt pageDate enrichment.publishedAt with
    | error e =>
        intro value heq
        cases heq
    | ok chosen =>
        intro value heq
        cases heq
        rfl
  unfold resolveHit
  by_cases hfetch : hit.publishedAt = none ∧ pageDates = true
  · rw [if_pos hfetch, Fallible.run_raising_bind]
    intro answer
    cases answer with
    | error e =>
        intro value heq
        cases heq
    | ok pageDate => exact hchosen pageDate _
  · rw [if_neg hfetch]
    exact hchosen none past

omit [Unicode] in
theorem resolveZip_urls (pageDates : Bool) (hits : List RawSearchHit)
    (enrichments : List HitEnrichment) :
    (resolveZip pageDates hits enrichments).run.Ends (fun _ result => ∀ results,
      result = .ok results → results.map ResearchResult.url = hits.map RawSearchHit.url) past := by
  induction hits generalizing enrichments past with
  | nil =>
      cases enrichments with
      | nil =>
          intro results heq
          cases heq
          rfl
      | cons enrichment enrichments =>
          intro results heq
          cases heq
  | cons hit hits ih =>
      cases enrichments with
      | nil =>
          intro results heq
          cases heq
      | cons enrichment enrichments =>
          unfold resolveZip
          rw [ExceptT.run_bind, Program.ends_bind]
          refine (resolveHit_url pageDates hit enrichment).mono fun events result hresult => ?_
          cases result with
          | error e =>
              intro results heq
              cases heq
          | ok value =>
              dsimp only
              rw [ExceptT.run_bind, Program.ends_bind]
              refine (ih enrichments).mono fun later result hresults => ?_
              cases result with
              | error e =>
                  intro results heq
                  cases heq
              | ok rest =>
                  intro results heq
                  cases heq
                  rw [List.map_cons, List.map_cons, hresult value rfl, hresults rest rfl]

omit [Unicode] in
theorem sorted_urls (pageDates : Bool) (hits : List RawSearchHit) :
    (sortByPublicationDate <$> resolveHits pageDates hits).run.Ends (fun _ result => ∀ results,
      result = .ok results → (results.map ResearchResult.url).Perm (hits.map RawSearchHit.url))
      past := by
  rw [map_eq_pure_bind]
  unfold resolveHits
  rw [bind_assoc, Fallible.run_raising_bind]
  intro answer
  cases answer with
  | error e =>
      intro results heq
      cases heq
  | ok enrichments =>
      change (resolveZip pageDates hits enrichments >>= _).run.Ends _ _
      rw [ExceptT.run_bind, Program.ends_bind]
      refine (resolveZip_urls pageDates hits enrichments).mono fun events result hresult => ?_
      cases result with
      | error e =>
          intro results heq
          cases heq
      | ok resolved =>
          intro results heq
          cases heq
          rw [← hresult resolved rfl]
          exact (List.perm_insertionSort _ resolved).map _

theorem flagNew_urls {results flagged : List ResearchResult} {seenUrls : List String}
    (h : flagNew results seenUrls = .ok flagged) :
    flagged.map ResearchResult.url = results.map ResearchResult.url := by
  unfold flagNew at h
  cases hkeys : seenUrls.mapM normalizeUrl with
  | error e =>
      rw [hkeys] at h
      cases h
  | ok seenKeys =>
      rw [hkeys] at h
      have hflagged := (mapM_eq_ok _ results flagged).mp h
      rw [← List.forall₂_eq_eq_eq, List.forall₂_map_left_iff, List.forall₂_map_right_iff]
      refine hflagged.flip.imp fun marked result hmarked => ?_
      cases hkey : normalizeUrl result.url with
      | error e =>
          rw [hkey] at hmarked
          cases hmarked
      | ok key =>
          rw [hkey] at hmarked
          cases hmarked
          rfl

-- A delivery delivers the hits.
def DeliversUrls (hits : List RawSearchHit) (delivered : List (String × List ResearchResult)) : Prop :=
  ∀ delivery ∈ delivered,
    (delivery.2.map ResearchResult.url).Perm (hits.map RawSearchHit.url)

theorem DeliversUrls.distinct {hits : List RawSearchHit}
    {delivered : List (String × List ResearchResult)} (h : DeliversUrls hits delivered)
    (hdistinct : (urlKeys hits).Nodup) :
    ∀ delivery ∈ delivered, (delivery.2.map fun result => canonical result.url).Nodup := by
  intro delivery hdelivery
  have hperm := (h delivery hdelivery).map canonical
  simp only [List.map_map, Function.comp_def] at hperm
  exact hperm.symm.nodup hdistinct

omit [Unicode] in
theorem deliversUrls_none (hits : List RawSearchHit) : DeliversUrls hits [] := by
  intro delivery hdelivery
  cases hdelivery

omit [Unicode] in
theorem undelivered_ends {α : Type} {failed : PyException → α → Prop} {p : Program AgentPorts α}
    (h : p.Keeps undelivered failed) (past : List (Event AgentPorts)) :
    p.Ends (fun events _ => deliveries events = deliveries past) past := by
  refine (h.ends past).mono fun events value hvalue => ?_
  obtain ⟨new, rfl, hnew, -⟩ := hvalue
  have hnone : deliveries new = [] := by
    refine List.filterMap_eq_nil_iff.mpr fun event hevent => ?_
    obtain ⟨call, answer⟩ := event
    cases call with
    | deliver => exact absurd trivial (hnew _ hevent)
    | _ => rfl
  rw [deliveries_append, hnone, List.append_nil]

omit [Unicode] in
theorem deliverCall_urls {hits : List RawSearchHit} {jobId : String} {results : List ResearchResult}
    (hresults : (results.map ResearchResult.url).Perm (hits.map RawSearchHit.url)) :
    (do
      raising (ask (.deliver jobId results))
      return results : AgentRun (List ResearchResult)).run.Ends (fun events _ => ∃ delivered,
        deliveries events = deliveries past ++ delivered ∧ DeliversUrls hits delivered) past := by
  rw [Fallible.run_raising_bind]
  intro answer
  have hanswer : deliveries (past ++ [⟨.deliver jobId results, answer⟩]) =
      deliveries past ++ [(jobId, results)] := deliveries_append _ _
  have hurls : DeliversUrls hits [(jobId, results)] := by
    intro delivery hdelivery
    cases List.mem_singleton.mp hdelivery
    exact hresults
  cases answer <;> exact ⟨_, hanswer, hurls⟩

theorem flagged_urls {hits : List RawSearchHit} {results : List ResearchResult}
    (hsorted : (results.map ResearchResult.url).Perm (hits.map RawSearchHit.url))
    (seenUrls : List String) (report : List ResearchResult → AgentStep) :
    (do
      let results ← orRaise (flagNew results seenUrls)
      Agent.report task.jobId (report results)
      raising (ask (.deliver task.jobId results))
      return results : AgentRun (List ResearchResult)).run.Ends (fun events _ => ∃ delivered,
        deliveries events = deliveries past ++ delivered ∧ DeliversUrls hits delivered) past := by
  cases hflag : flagNew results seenUrls with
  | error e => exact ⟨[], (List.append_nil _).symm, deliversUrls_none hits⟩
  | ok flagged =>
      have hflagged := flagNew_urls hflag
      have hreport := (report_keeps task.jobId (report flagged)).mono undecided_undelivered
      rw [Fallible.orRaise_ok_bind, Fallible.run_lift_bind, Program.ends_bind]
      refine (undelivered_ends hreport past).mono fun later _ hlater => ?_
      rw [← hlater]
      exact deliverCall_urls (hflagged ▸ hsorted)

theorem deliver_urls (hits : List RawSearchHit) (seq : Nat) :
    (deliver task hits seq).run.Ends (fun events _ => ∃ delivered,
      deliveries events = deliveries past ++ delivered ∧ DeliversUrls hits delivered) past := by
  unfold deliver
  rw [ExceptT.run_bind, Program.ends_bind]
  have hkeeps := (sorted_keeps task.pageDates hits).mono undecided_undelivered
  refine ((undelivered_ends hkeeps past).and (sorted_urls task.pageDates hits)).mono
    fun events result hresult => ?_
  obtain ⟨hevents, hurls⟩ := hresult
  cases result with
  | error e => exact ⟨[], by rw [hevents, List.append_nil], deliversUrls_none hits⟩
  | ok results =>
      rw [← hevents]
      cases hseen : task.seenUrls with
      | none => exact deliverCall_urls (hurls results rfl)
      | some seenUrls => exact flagged_urls (hurls results rfl) seenUrls _

-- What a part of a run promises that starts from `hits`.
structure Promises (hits : List RawSearchHit) (trace : List Mark)
    (delivered : List (String × List ResearchResult)) : Prop where
  counted : Counted hits trace
  distinct : ∀ added, Permits Collection.after Collection.Apart ⟨hits, added⟩ trace →
    (urlKeys hits).Nodup → ∀ delivery ∈ delivered,
      (delivery.2.map fun result => canonical result.url).Nodup

theorem Gathers.promises {hits later : List RawSearchHit} {trace : List Mark}
    {delivered : List (String × List ResearchResult)} (h : Gathers hits trace later)
    (hurls : DeliversUrls later delivered) : Promises hits trace delivered where
  counted := h.counted
  distinct added hapart hhits := hurls.distinct (h.distinct added hapart hhits)

theorem Gathers.promises_append {hits later : List RawSearchHit} {trace trace' : List Mark}
    {delivered : List (String × List ResearchResult)} (h : Gathers hits trace later)
    (h' : Promises later trace' delivered) : Promises hits (trace ++ trace') delivered := by
  refine ⟨h.counted_append h'.counted, fun added hapart hhits => ?_⟩
  obtain ⟨hfirst, hrest⟩ := permits_append.mp hapart
  have hlater : trace.foldl Collection.after ⟨hits, added⟩ =
      ⟨later, (trace.foldl Collection.after ⟨hits, added⟩).added⟩ := by
    rw [← h.collects added]
  rw [hlater] at hrest
  exact h'.distinct _ hrest (h.distinct added hfirst hhits)

theorem Counted.promises {hits : List RawSearchHit} {trace : List Mark} (h : Counted hits trace) :
    Promises hits trace [] := by
  refine ⟨h, fun _ _ _ delivery hdelivery => ?_⟩
  cases hdelivery

-- The loop keeps the keys of its hits.
def LoopState.Tracks (loop : LoopState) : Prop := loop.collectedUrls = urlKeys loop.hits

def LoopGathers (hits : List RawSearchHit) (trace : List Mark) :
    Except PyException (Option LoopState) → Prop
  | .ok (some later) => Gathers hits trace later.hits
  | .ok none => Counted hits trace
  | .error _ => Counted hits trace

theorem LoopGathers.after {hits later : List RawSearchHit} {trace trace' : List Mark}
    {result : Except PyException (Option LoopState)} (h : Gathers hits trace later)
    (h' : LoopGathers later trace' result) : LoopGathers hits (trace ++ trace') result := by
  cases result with
  | error e => exact h.counted_append h'
  | ok loop =>
      cases loop with
      | none => exact h.counted_append h'
      | some loop => exact h.trans h'

theorem decisionLoop_gathers (turns : Nat) (loop : LoopState) (htracks : loop.Tracks) :
    (decisionLoop task (List.range' (loop.steps.length + 1) turns) loop).run.Ends
      (fun events result => ∃ trace, marks events = marks past ++ trace ∧
        LoopGathers loop.hits trace result) past := by
  induction turns generalizing loop past with
  | zero =>
      refine loopRecord_ends_bind task _ _ fun events hevents => ?_
      exact ⟨_, hevents, gathers_unsearched _ _ (by simp)⟩
  | succ turns ih =>
      rw [List.range'_succ, decisionLoop_cons, ExceptT.run_bind, Program.ends_bind]
      refine (chooseAction_ends loop).mono fun events result hevents => ?_
      have hchosen : ∃ trace, marks events = marks past ++ trace ∧
          Gathers loop.hits trace loop.hits := by
        rcases hevents with hfree | hdecided
        · exact ⟨[], by rw [hfree, List.append_nil], gathers_nothing _⟩
        · exact ⟨_, hdecided, gathers_decided _⟩
      obtain ⟨trace, htrace, hquiet⟩ := hchosen
      cases result with
      | error e => exact ⟨trace, htrace, hquiet.counted⟩
      | ok action =>
          cases action with
          | ask question reason =>
              dsimp only
              rw [Fallible.run_raising_bind]
              intro answer
              have hmark : mark ⟨.requestClarification task.jobId question, answer⟩ =
                some .asked := rfl
              have hasked := marks_marked events hmark
              rw [htrace, List.append_assoc] at hasked
              have hcounted : Counted loop.hits (trace ++ [.asked]) :=
                hquiet.counted_append fun _ _ => ⟨trivial, trivial⟩
              cases answer <;> exact ⟨_, hasked, hcounted⟩
          | finish reason =>
              refine loopRecord_ends_bind task _ _ fun later hlater => ?_
              rw [htrace, List.append_assoc] at hlater
              exact ⟨_, hlater, hquiet.trans (gathers_unsearched _ _ (by simp))⟩
          | search query reason =>
              dsimp only
              rw [ExceptT.run_bind, Program.ends_bind]
              refine (searchStep_ends loop query reason).mono fun later result hresult => ?_
              obtain ⟨trace', outcome, hlater, hsearched, rfl⟩ := hresult
              rw [htrace, List.append_assoc] at hlater
              cases outcome with
              | error e => exact ⟨_, hlater, hquiet.counted_append (hsearched.counted _)⟩
              | ok found =>
                  obtain ⟨hgathers, hcollected⟩ := hsearched.gathers htracks
                  have hlength : (loop.searched found.1 found.2.1 found.2.2).steps.length =
                      loop.steps.length + 1 := List.length_append
                  have hrest := @ih later (loop.searched found.1 found.2.1 found.2.2) hcollected
                  rw [hlength] at hrest
                  refine hrest.mono fun last result hlast => ?_
                  obtain ⟨rest, hmarks, hloop⟩ := hlast
                  rw [hlater, List.append_assoc] at hmarks
                  exact ⟨_, hmarks, LoopGathers.after (hquiet.trans hgathers) hloop⟩

theorem conclude_promises (loop : LoopState) (hnumbered : Numbered loop.steps) :
    (conclude task loop).run.Ends (fun events _ => ∃ trace delivered,
      marks events = marks past ++ trace ∧ deliveries events = deliveries past ++ delivered ∧
        Promises loop.hits trace delivered) past := by
  unfold conclude
  rw [ExceptT.run_bind, Program.ends_bind]
  have hkeeps : (review task loop).run.Keeps undelivered _ :=
    (review_keeps task loop).mono undecided_undelivered
  refine ((review_ends loop hnumbered).and (undelivered_ends hkeeps past)).mono
    fun events result hresult => ?_
  obtain ⟨⟨trace, outcome, hevents, hreviews, rfl⟩, hnone⟩ := hresult
  cases outcome with
  | error e =>
      exact ⟨trace, [], hevents, by rw [hnone, List.append_nil], hreviews.counted.promises⟩
  | ok reviewed =>
      dsimp only [Except.map]
      rw [map_eq_pure_bind, ExceptT.run_bind, Program.ends_bind]
      refine ((deliver_ends task _ _).and (deliver_urls _ _)).mono fun later result hlater => ?_
      obtain ⟨hmarks, delivered, hdelivered, hurls⟩ := hlater
      rw [hnone] at hdelivered
      have hgathers := hreviews.gathers
      have hpromises : ∃ trace delivered, marks later = marks past ++ trace ∧
          deliveries later = deliveries past ++ delivered ∧ Promises loop.hits trace delivered := by
        rcases hmarks with hsame | ⟨step, hseq, hkind, hreport⟩
        · exact ⟨trace, delivered, hsame.trans hevents, hdelivered, hgathers.promises hurls⟩
        · rw [hevents, List.append_assoc] at hreport
          have hreported := hgathers.trans (gathers_unsearched _ step (by simp [hkind]))
          exact ⟨_, delivered, hreport, hdelivered, hreported.promises hurls⟩
      cases result <;> exact hpromises

omit [Unicode] in
theorem reportResult_deliveries {α : Type} (jobId : String) (result : Except PyException α) :
    (reportResult jobId result).Ends (fun events _ => deliveries events = deliveries past) past := by
  cases result with
  | ok value => rfl
  | error e => exact fun answer => (deliveries_append _ _).trans (List.append_nil _)

theorem runAgentResearch_promises :
    (runAgentResearch task).Ends (fun events _ => ∃ trace delivered,
      marks events = marks past ++ trace ∧ deliveries events = deliveries past ++ delivered ∧
        Promises [] trace delivered) past := by
  unfold runAgentResearch reportingFailure
  rw [Program.ends_bind]
  have hrun : (agentResearch task).run.Ends (fun events _ => ∃ trace delivered,
      marks events = marks past ++ trace ∧ deliveries events = deliveries past ++ delivered ∧
        Promises [] trace delivered) past := by
    unfold agentResearch
    rw [Fallible.run_raising_bind]
    intro answer
    have hmarks := @marks_unmarked past ⟨.markStarted task.jobId, answer⟩ rfl
    have hnone : deliveries (past ++ [⟨.markStarted task.jobId, answer⟩]) = deliveries past :=
      (deliveries_append _ _).trans (List.append_nil _)
    cases answer with
    | error e =>
        refine ⟨[], [], ?_, ?_, (gathers_nothing []).counted.promises⟩
        · rw [hmarks, List.append_nil]
        · rw [hnone, List.append_nil]
    | ok _ =>
        change (decisionLoop task _ _ >>= _).run.Ends _ _
        rw [ExceptT.run_bind, Program.ends_bind]
        have hkeeps : (decisionLoop task (List.range' 1 task.maxSteps) ⟨[], [], []⟩).run.Keeps
          undelivered _ := decisionLoop_keeps task _ _
        have hcontinues := @decisionLoop_continues _ task
          (past ++ [⟨.markStarted task.jobId, .ok ()⟩]) task.maxSteps ⟨[], [], []⟩ rfl
          (Nat.zero_add _)
        have hgathers := @decisionLoop_gathers _ task (past ++ [⟨.markStarted task.jobId, .ok ()⟩])
          task.maxSteps ⟨[], [], []⟩ rfl
        refine ((hgathers.and hcontinues).and (undelivered_ends hkeeps _)).mono
          fun later result hresult => ?_
        obtain ⟨⟨⟨trace, hlater, hloop⟩, _, -, -, hreports⟩, hsame⟩ := hresult
        rw [hmarks] at hlater
        rw [hnone] at hsame
        have hstopped : Counted [] trace → ∃ trace delivered, marks later = marks past ++ trace ∧
            deliveries later = deliveries past ++ delivered ∧ Promises [] trace delivered :=
          fun hcounted => ⟨trace, [], hlater, by rw [hsame, List.append_nil], hcounted.promises⟩
        cases result with
        | error e => exact hstopped hloop
        | ok loop =>
            cases loop with
            | none => exact hstopped hloop
            | some loop =>
                refine (conclude_promises loop hreports.2).mono fun last result hlast => ?_
                obtain ⟨rest, delivered, hrest, hdelivered, hpromises⟩ := hlast
                rw [hlater, List.append_assoc] at hrest
                rw [hsame] at hdelivered
                exact ⟨_, delivered, hrest, hdelivered,
                  Gathers.promises_append (show Gathers [] trace loop.hits from hloop) hpromises⟩
  refine hrun.mono fun events result hresult => ?_
  obtain ⟨trace, delivered, hmarks, hdelivered, hpromises⟩ := hresult
  refine ((reportResult_ends task.jobId result).and (reportResult_deliveries _ _)).mono
    fun later value hlater => ?_
  exact ⟨trace, delivered, hlater.1.2.trans hmarks, hlater.2.trans hdelivered, hpromises⟩

-- The hits of the thread that a task resumes.
omit [Unicode] in
def taskHits (checkpoint : Option Checkpoint) (resumeAnswer : Option String) : List RawSearchHit :=
  match resumeAnswer, checkpoint with
  | some _, some ⟨state, _⟩ => state.rawHits
  | _, _ => []

-- A checkpoint whose hits repeat no URL, with their keys while a node is due.
structure Checkpoint.Distinct (checkpoint : Checkpoint) : Prop where
  distinct : (urlKeys checkpoint.state.rawHits).Nodup
  tracks : checkpoint.due ≠ none → checkpoint.state.Tracks

variable {limit : Nat} {checkpoint : Option Checkpoint} {resumeAnswer : Option String}

theorem startGraph_distinct (hsound : ∀ c, checkpoint = some c → c.Sound task)
    (hkeys : ∀ c, checkpoint = some c → c.due ≠ none → c.state.Tracks) :
    (startGraph task limit checkpoint resumeAnswer).Ends
      (fun events invocation => ∃ trace, marks events = marks past ++ trace ∧
        LeavesDistinct (taskHits checkpoint resumeAnswer) trace invocation) past := by
  have hdecide : Due task (initialState task resumeAnswer) .decide := trivial
  have htracks : (initialState task resumeAnswer).Tracks := rfl
  unfold startGraph taskHits
  cases resumeAnswer with
  | none => exact invoke_distinct [] hdecide htracks
  | some answer =>
      cases checkpoint with
      | none => exact invoke_distinct [] hdecide htracks
      | some checkpoint =>
          have hcheckpoint := hkeys checkpoint rfl
          obtain ⟨state, due⟩ := checkpoint
          cases due with
          | some due =>
              exact invoke_distinct [] (hsound _ rfl due rfl) (hcheckpoint (by simp))
          | none =>
              have hnothing := gathers_nothing state.rawHits
              exact ⟨[], (List.append_nil _).symm, hnothing.counted, hnothing.distinct,
                fun h => absurd rfl h⟩

theorem taskHits_distinct (hdistinct : ∀ c, checkpoint = some c → c.Distinct) :
    (urlKeys (taskHits checkpoint resumeAnswer)).Nodup := by
  unfold taskHits
  cases resumeAnswer with
  | none => exact List.nodup_nil
  | some answer =>
      cases checkpoint with
      | none => exact List.nodup_nil
      | some checkpoint => exact (hdistinct checkpoint rfl).distinct

-- What follows the graph delivers its hits.
theorem settle_urls (invocation : GraphInvocation) :
    (settle task limit invocation).run.Ends (fun events _ => ∃ delivered,
      deliveries events = deliveries past ++ delivered ∧
        DeliversUrls invocation.state.rawHits delivered) past := by
  have hnone : ∃ delivered, deliveries past = deliveries past ++ delivered ∧
      DeliversUrls invocation.state.rawHits delivered :=
    ⟨[], (List.append_nil _).symm, deliversUrls_none _⟩
  unfold settle
  cases hending : invocation.ending with
  | raised e => exact hnone
  | outOfSteps => exact hnone
  | interrupted question =>
      dsimp only
      by_cases hclarifier : task.clarifier = true
      · rw [if_pos hclarifier, Fallible.run_raising_bind]
        intro answer
        have hasked : deliveries (past ++ [⟨.requestClarification task.jobId question, answer⟩]) =
            deliveries past ++ [] := deliveries_append _ _
        cases answer <;> exact ⟨[], hasked, deliversUrls_none _⟩
      · rw [if_neg hclarifier]
        exact hnone
  | finished =>
      dsimp only
      rw [map_eq_pure_bind, ExceptT.run_bind, Program.ends_bind]
      refine (deliver_urls invocation.state.rawHits _).mono fun events result hresult => ?_
      cases result <;> exact hresult

-- What a task promises, and the checkpoint that it leaves.
structure TaskPromises (hits : List RawSearchHit) (trace : List Mark)
    (delivered : List (String × List ResearchResult)) (run : GraphRun) : Prop where
  promises : Promises hits trace delivered
  leaves : ∀ invocation, run.invocation = some invocation → ∀ added,
    Permits Collection.after Collection.Apart ⟨hits, added⟩ trace → (urlKeys hits).Nodup →
      Checkpoint.Distinct ⟨invocation.state, invocation.due⟩

theorem runAgentGraph_promises (hsound : ∀ c, checkpoint = some c → c.Sound task)
    (hkeys : ∀ c, checkpoint = some c → c.due ≠ none → c.state.Tracks) :
    (runAgentGraph task limit checkpoint resumeAnswer).Ends
      (fun events run => ∃ trace delivered, marks events = marks past ++ trace ∧
        deliveries events = deliveries past ++ delivered ∧
        TaskPromises (taskHits checkpoint resumeAnswer) trace delivered run) past := by
  have hstarted : ∀ answer, marks (past ++ [⟨.markStarted task.jobId, answer⟩]) = marks past :=
    fun answer => marks_unmarked past rfl
  have hnone : ∀ answer, deliveries (past ++ [⟨.markStarted task.jobId, answer⟩]) = deliveries past :=
    fun answer => (deliveries_append _ _).trans (List.append_nil _)
  unfold runAgentGraph
  intro answer
  cases answer with
  | error e =>
      intro reported
      have hnothing := gathers_nothing (taskHits checkpoint resumeAnswer)
      refine ⟨[], [], ?_, ?_, hnothing.counted.promises, fun invocation heq => ?_⟩
      · rw [marks_unmarked _ rfl, hstarted, List.append_nil]
      · rw [deliveries_append, hnone]
        rfl
      · cases heq
  | ok _ =>
      change (startGraph task limit checkpoint resumeAnswer >>= _).Ends _ _
      rw [Program.ends_bind]
      have hkeeps := (startGraph_keeps task limit checkpoint resumeAnswer).mono
        undecided_undelivered
      refine ((startGraph_distinct hsound hkeys).and (undelivered_ends hkeeps _)).mono
        fun events invocation h => ?_
      obtain ⟨⟨trace, hevents, hleaves⟩, hsame⟩ := h
      rw [hstarted] at hevents
      rw [hnone] at hsame
      unfold reportingFailure
      rw [bind_assoc, Program.ends_bind]
      refine ((settle_ends task limit invocation).and (settle_urls invocation)).mono
        fun settled result hsettled => ?_
      obtain ⟨hmarks, delivered, hdelivered, hurls⟩ := hsettled
      rw [hsame] at hdelivered
      rw [Program.ends_bind]
      refine ((reportResult_ends task.jobId result).and (reportResult_deliveries _ _)).mono
        fun last value hlast => ?_
      have hquiet : ∃ rest, marks settled = marks events ++ rest ∧ Quiet rest := by
        rcases hmarks with hnothing | ⟨step, -, hkind, -, hreported⟩ | ⟨-, hasked⟩
        · exact ⟨[], by rw [hnothing, List.append_nil], quiet_nil⟩
        · exact ⟨_, hreported, quiet_unsearched step (by simp [hkind])⟩
        · exact ⟨_, hasked, quiet_singleton fun _ => ⟨rfl, trivial⟩⟩
      obtain ⟨rest, hrest, hquiet⟩ := hquiet
      refine ⟨trace ++ rest, delivered, ?_, hlast.2.trans hdelivered, ⟨?_, ?_⟩, ?_⟩
      · rw [hlast.1.2, hrest, hevents, List.append_assoc]
      · exact hleaves.counted.append_quiet hquiet
      · intro added hapart hhits
        exact hurls.distinct (hleaves.distinct added (permits_append.mp hapart).1 hhits)
      · intro other heq added hapart hhits
        cases heq
        exact ⟨hleaves.distinct added (permits_append.mp hapart).1 hhits, hleaves.tracks⟩

-- The checkpoints that tasks leave on a thread whose answers repeat no new URL.
inductive Gathered (maxSteps : Nat) : Option Checkpoint → Prop
  | fresh : Gathered maxSteps none
  | left {task : AgentTask} {limit : Nat} {checkpoint : Option Checkpoint}
      {resumeAnswer : Option String} {oracle : Oracle AgentPorts} {invocation : GraphInvocation}
      (h : Gathered maxSteps checkpoint) (hsteps : task.maxSteps = maxSteps)
      (hrun : ((runAgentGraph task limit checkpoint resumeAnswer).execute oracle).1.invocation =
        some invocation)
      (hapart : AnswersApart (taskHits checkpoint resumeAnswer)
        ((runAgentGraph task limit checkpoint resumeAnswer).execute oracle).2) :
      Gathered maxSteps (some ⟨invocation.state, invocation.due⟩)

theorem Gathered.reached {maxSteps : Nat} (h : Gathered maxSteps checkpoint) :
    Reached maxSteps checkpoint := by
  induction h with
  | fresh => exact .fresh
  | left h hsteps hrun hapart ih => exact .left ih hsteps hrun

theorem Gathered.distinct {maxSteps : Nat} (h : Gathered maxSteps checkpoint) (c : Checkpoint)
    (heq : checkpoint = some c) : c.Distinct := by
  induction h generalizing c with
  | fresh => cases heq
  | @left task limit checkpoint resumeAnswer oracle invocation h hsteps hrun hapart ih =>
      cases heq
      have hreached := h.reached
      rw [← hsteps] at hreached
      have hends := @runAgentGraph_promises _ task [] limit checkpoint resumeAnswer hreached.sound
        fun c heq => (ih c heq).tracks
      obtain ⟨trace, delivered, hmarks, -, hpromises⟩ := hends.execute oracle
      unfold AnswersApart at hapart
      rw [hmarks] at hapart
      exact hpromises.leaves invocation hrun 0 hapart (taskHits_distinct ih)

-- A run of the agent mode, in either orchestrator, whose search answers repeat
-- no URL that they add, delivers no URL twice and counts what it adds.
theorem deliveries_distinct (task : AgentTask) (limit : Nat) {checkpoint : Option Checkpoint}
    (hgathered : Gathered task.maxSteps checkpoint) (resumeAnswer : Option String)
    (oracle : Oracle AgentPorts) :
    let loop := ((runAgentResearch task).execute oracle).2
    let graph := ((runAgentGraph task limit checkpoint resumeAnswer).execute oracle).2
    (AnswersApart [] loop → Unrepeated [] loop) ∧
      (AnswersApart (taskHits checkpoint resumeAnswer) graph →
        Unrepeated (taskHits checkpoint resumeAnswer) graph) := by
  intro loop graph
  refine ⟨fun hapart => ?_, fun hapart => ?_⟩
  · have hends := @runAgentResearch_promises _ task []
    obtain ⟨trace, delivered, hmarks, hdelivered, hpromises⟩ := hends.execute oracle
    have hloop : marks loop = trace := hmarks
    unfold AnswersApart at hapart
    rw [hloop] at hapart
    refine ⟨fun delivery hdelivery => ?_, ?_⟩
    · rw [hdelivered] at hdelivery
      exact hpromises.distinct 0 hapart List.nodup_nil delivery hdelivery
    · rw [hloop]
      exact hpromises.counted 0 hapart
  · have hends := @runAgentGraph_promises _ task [] limit checkpoint resumeAnswer
      hgathered.reached.sound fun c heq => (hgathered.distinct c heq).tracks
    obtain ⟨trace, delivered, hmarks, hdelivered, hpromises⟩ := hends.execute oracle
    have hgraph : marks graph = trace := hmarks
    unfold AnswersApart at hapart
    rw [hgraph] at hapart
    refine ⟨fun delivery hdelivery => ?_, ?_⟩
    · rw [hdelivered] at hdelivery
      exact hpromises.promises.distinct 0 hapart (taskHits_distinct hgathered.distinct) delivery
        hdelivery
    · rw [hgraph]
      exact hpromises.promises.counted 0 hapart

end

-- Two spellings of one URL in one answer.
def Sample.respelled : Oracle AgentPorts :=
  answers [hit "https://ex.com/a", hit "https://ex.com/a#top"]

theorem deliveries_repeated :
    letI := Sample.unicode
    ¬ Unrepeated [] ((runAgentResearch Sample.task).execute Sample.respelled).2 ∧
      ¬ Unrepeated [] ((runAgentGraph Sample.task 25 none none).execute Sample.respelled).2 := by
  let := Sample.unicode
  have hrepeats : ∀ events, (deliveries events).map (fun delivery =>
      delivery.2.map fun result => canonical result.url) = [["https://ex.com/a", "https://ex.com/a"]] →
      ¬ Unrepeated [] events := by
    intro events hevents hunrepeated
    have hmem : ["https://ex.com/a", "https://ex.com/a"] ∈ (deliveries events).map (fun delivery =>
        delivery.2.map fun result => canonical result.url) := by simp [hevents]
    obtain ⟨delivery, hdelivery, hurls⟩ := List.mem_map.mp hmem
    have hnodup := hunrepeated.delivered delivery hdelivery
    rw [hurls] at hnodup
    exact absurd hnodup (by decide)
  exact ⟨hrepeats _ (by decide +kernel), hrepeats _ (by decide +kernel)⟩

theorem deliveries_distinct_sample :
    letI := Sample.unicode
    Unrepeated [] ((runAgentResearch Sample.task).execute Sample.oracle).2 ∧
      Unrepeated [] ((runAgentGraph Sample.task 25 none none).execute Sample.oracle).2 := by
  let := Sample.unicode
  have hdistinct := deliveries_distinct Sample.task 25 .fresh none Sample.oracle
  exact ⟨hdistinct.1 (by decide +kernel), hdistinct.2 (by decide +kernel)⟩

end AgentBoilerplate.Agent
