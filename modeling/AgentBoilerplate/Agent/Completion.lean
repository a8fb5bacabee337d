import AgentBoilerplate.Agent.Verdicts
import AgentBoilerplate.Effects.Triples

namespace AgentBoilerplate.Agent

open Python Effects Fallible Collections

def ResearchResult.source (result : ResearchResult) :
    String × String × String × List (String × Json) :=
  (result.title, result.url, result.snippet, result.raw)

def RawSearchHit.source (hit : RawSearchHit) : String × String × String × List (String × Json) :=
  (hit.title, hit.url, hit.snippet, hit.raw)

-- The page with this URL was fetched, and declares no date.
def undated (events : List (Event AgentPorts)) (url : String) : Bool :=
  events.any fun
    | ⟨.fetchPublishedDate other, .ok none⟩ => other = url
    | _ => false

-- No port of the run failed; the reporters may.
def NoneFails (events : List (Event AgentPorts)) : Prop := ∀ event ∈ events, raised event = none

instance (events : List (Event AgentPorts)) : Decidable (NoneFails events) :=
  inferInstanceAs (Decidable (∀ event ∈ events, raised event = none))

def finishes (steps : List StepDict) : Nat :=
  steps.countP fun step => step.kind = AgentStepKind.finish.value

section

variable [Unicode]

-- `normalize_url` takes the URLs of the hits.
def Usable (hits : List RawSearchHit) : Prop := ∀ hit ∈ hits, Returns (normalizeUrl hit.url)

-- `as_utc` takes the dates that may be chosen for a hit: the one of the provider,
-- and the guess where there is no other.
def DatesAccepted (task : AgentTask) (events : List (Event AgentPorts)) (hit : RawSearchHit)
    (enrichment : HitEnrichment) : Prop :=
  (∀ date ∈ hit.publishedAt, Returns (asUtc date)) ∧
    (hit.publishedAt = none → (task.pageDates = true → undated events hit.url = true) →
      ∀ date ∈ enrichment.publishedAt, Returns (asUtc date))

-- The answers that the run can use: URLs and dates that it can convert, and one
-- enrichment for each hit. The URLs seen before are looked at after the enrichment.
def Accepted (task : AgentTask) (events : List (Event AgentPorts)) : Event AgentPorts → Prop
  | ⟨.search _, .ok found⟩ => Usable found
  | ⟨.enrichMany hits, .ok enrichments⟩ => enrichments.length = hits.length ∧
      (∀ pair ∈ hits.zip enrichments, DatesAccepted task events pair.1 pair.2) ∧
      ∀ seenUrls ∈ task.seenUrls, ∀ url ∈ seenUrls, Returns (normalizeUrl url)
  | ⟨.fetchPublishedDate _, .ok (some date)⟩ => Returns (asUtc date)
  | _ => True

instance (task : AgentTask) (events : List (Event AgentPorts)) (hit : RawSearchHit)
    (enrichment : HitEnrichment) : Decidable (DatesAccepted task events hit enrichment) :=
  inferInstanceAs (Decidable (_ ∧ _))

instance (task : AgentTask) (events : List (Event AgentPorts)) :
    (event : Event AgentPorts) → Decidable (Accepted task events event)
  | ⟨.search _, .ok found⟩ =>
      inferInstanceAs (Decidable (∀ hit ∈ found, Returns (normalizeUrl hit.url)))
  | ⟨.enrichMany hits, .ok enrichments⟩ =>
      inferInstanceAs (Decidable (enrichments.length = hits.length ∧
        (∀ pair ∈ hits.zip enrichments, DatesAccepted task events pair.1 pair.2) ∧
        ∀ seenUrls ∈ task.seenUrls, ∀ url ∈ seenUrls, Returns (normalizeUrl url)))
  | ⟨.fetchPublishedDate _, .ok (some date)⟩ => inferInstanceAs (Decidable (Returns (asUtc date)))
  | ⟨.search _, .error _⟩ | ⟨.enrichMany _, .error _⟩ | ⟨.fetchPublishedDate _, .error _⟩
  | ⟨.fetchPublishedDate _, .ok none⟩ | ⟨.markStarted _, _⟩ | ⟨.decide _ _ _, _⟩
  | ⟨.critique _ _, _⟩ | ⟨.requestClarification _ _, _⟩ | ⟨.reportStep _ _, _⟩ | ⟨.deliver _ _, _⟩
  | ⟨.reportFailure _ _, _⟩ | ⟨.snapshot, _⟩ => isTrue trivial

def AllAccepted (task : AgentTask) (events : List (Event AgentPorts)) : Prop :=
  ∀ event ∈ events, Accepted task events event

instance (task : AgentTask) (events : List (Event AgentPorts)) : Decidable (AllAccepted task events) :=
  inferInstanceAs (Decidable (∀ event ∈ events, Accepted task events event))

-- The hits of a run, by what its searches and its critic answered.
def collected (hits : List RawSearchHit) (events : List (Event AgentPorts)) : List RawSearchHit :=
  ((marks events).foldl Collection.after ⟨hits, 0⟩).hits

-- How a run ends that nothing stops: on its question, or with one finish in its
-- journal and a delivery of what it collected.
inductive Finishes (task : AgentTask) (hits : List RawSearchHit) (steps : List StepDict)
    (events : List (Event AgentPorts)) : Except PyException (Option (List ResearchResult)) → Prop
  | paused (question : String) (hasked : outcomes events = [.asked task.jobId question (.ok ())]) :
      Finishes task hits steps events (.ok none)
  | delivered (results : List ResearchResult)
      (hdelivered : outcomes events = [.delivered task.jobId results (.ok ())])
      (hfinish : finishes (steps ++ (reports (marks events)).map stepToDict) = 1)
      (hresults : (results.map ResearchResult.source).Perm
        ((collected hits events).map RawSearchHit.source)) :
      Finishes task hits steps events (.ok (some results))

def Smooth (task : AgentTask) (events : List (Event AgentPorts)) : Prop :=
  NoneFails events ∧ AllAccepted task events

-- What holds as long as nothing goes wrong.
def Smoothly (task : AgentTask) (P : Assertion AgentPorts) : Assertion AgentPorts :=
  fun events => Smooth task events → P events

-- Code that raises only after something went wrong.
abbrev Succeeds {α : Type} (task : AgentTask) (P : Assertion AgentPorts) (x : AgentRun α)
    (Q : α → Assertion AgentPorts) : Prop :=
  Triple (Smoothly task P) x (fun value => Smoothly task (Q value)) fun _ events => ¬ Smooth task events

section Rules

variable {task : AgentTask} {α β : Type} {P : Assertion AgentPorts} {Q : α → Assertion AgentPorts}

theorem Accepted.earlier {past later : List (Event AgentPorts)} (hle : past <+: later)
    {event : Event AgentPorts} (h : Accepted task later event) : Accepted task past event := by
  have hundated : ∀ url, undated past url = true → undated later url = true := by
    intro url hurl
    obtain ⟨rest, rfl⟩ := hle
    unfold undated at hurl ⊢
    rw [List.any_append, hurl, Bool.true_or]
  obtain ⟨call, answer⟩ := event
  cases call with
  | enrichMany hits =>
      cases answer with
      | error e => exact h
      | ok enrichments =>
          obtain ⟨hlength, hdates, hseen⟩ := h
          refine ⟨hlength, fun pair hpair => ?_, hseen⟩
          obtain ⟨hprovider, hguess⟩ := hdates pair hpair
          exact ⟨hprovider, fun hnone hpage => hguess hnone fun hon => hundated _ (hpage hon)⟩
  | search query => cases answer <;> exact h
  | fetchPublishedDate url =>
      cases answer with
      | error e => exact h
      | ok date => cases date <;> exact h
  | _ => exact h

theorem Smooth.earlier {past later : List (Event AgentPorts)} (hle : past <+: later)
    (h : Smooth task later) : Smooth task past :=
  ⟨fun event hevent => h.1 event (hle.subset hevent),
    fun event hevent => (h.2 event (hle.subset hevent)).earlier hle⟩

theorem Smooth.last {past : List (Event AgentPorts)} {event : Event AgentPorts}
    (h : Smooth task (past ++ [event])) :
    raised event = none ∧ Accepted task (past ++ [event]) event :=
  ⟨h.1 event (List.mem_concat_self), h.2 event (List.mem_concat_self)⟩

-- A call whose exceptions are those of its port.
theorem succeeds_call {request : AgentCall} {result : request.Answer → Except PyException α}
    (hraised : ∀ answer e, result answer = .error e → raised ⟨request, answer⟩ = some e)
    (h : ∀ past answer value, result answer = .ok value → P past →
      Accepted task (past ++ [⟨request, answer⟩]) ⟨request, answer⟩ →
        Q value (past ++ [⟨request, answer⟩])) :
    Succeeds task P (raising (.call request fun answer => .done (result answer))) Q := by
  refine triple_call fun past answer hpast => ?_
  cases hresult : result answer with
  | error e =>
      intro hsmooth
      have hnone := hsmooth.last.1
      rw [hraised answer e hresult] at hnone
      cases hnone
  | ok value =>
      intro hsmooth
      have hbefore := hpast (hsmooth.earlier (List.prefix_append past _))
      exact h past answer value hresult hbefore hsmooth.last.2

theorem succeeds_orRaise {x : Except PyException α} (h : ∀ past, P past → ∃ value, x = .ok value ∧ Q value past) :
    Succeeds task P (orRaise x) Q := by
  refine triple_orRaise (fun value hvalue past hpast hsmooth => ?_) fun e he past hpast hsmooth => ?_
  · obtain ⟨other, hother, hQ⟩ := h past (hpast hsmooth)
    cases hvalue.symm.trans hother
    exact hQ
  · obtain ⟨other, hother, -⟩ := h past (hpast hsmooth)
    cases he.symm.trans hother

theorem succeeds_pure {value : α} (h : ∀ past, P past → Q value past) :
    Succeeds task P (pure value : AgentRun α) Q :=
  triple_pure fun past hpast hsmooth => h past (hpast hsmooth)

theorem Succeeds.frame {x : AgentRun α} (h : Succeeds task P x Q) {S : Assertion AgentPorts}
    (hstable : ∀ past later, past <+: later → S past → S later) :
    Succeeds task (fun past => P past ∧ S past) x fun value events => Q value events ∧ S events := by
  have hsmoothly : ∀ past later, past <+: later → Smoothly task S past → Smoothly task S later :=
    fun past later hle hpast hsmooth => hstable past later hle (hpast (hsmooth.earlier hle))
  refine (Triple.frame h hsmoothly).mono (fun past hpast => ?_) (fun value events hvalue => ?_) ?_
  · exact ⟨fun hsmooth => (hpast hsmooth).1, fun hsmooth => (hpast hsmooth).2⟩
  · exact fun hsmooth => ⟨hvalue.1 hsmooth, hvalue.2 hsmooth⟩
  · exact fun e events hraised => hraised

-- Where something is known to have gone wrong, nothing is asked of the code.
theorem succeeds_of {x : AgentRun α} {c : Prop} (h : c → Succeeds task P x Q) :
    Succeeds task (fun events => c ∧ P events) x Q := by
  by_cases hc : c
  · exact (h hc).before fun past hpast hsmooth => (hpast hsmooth).2
  · intro past hpast
    have hnot : ¬ Smooth task past := fun hsmooth => hc (hpast hsmooth).1
    refine (Program.ends_extends _ past).mono fun events result hle => ?_
    have hlater : ¬ Smooth task events := fun hsmooth => hnot (hsmooth.earlier hle)
    cases result with
    | error e => exact hlater
    | ok value => exact fun hsmooth => absurd hsmooth hlater

omit [Unicode] in
theorem raisedOf_error {answer : Except PyException α} {e : PyException} (h : answer = .error e) :
    raisedOf answer = some e := by
  rw [h]
  rfl

end Rules

section Delivery

variable {task : AgentTask}

omit [Unicode] in
theorem chooseDate_returns {provider page guess : Option DateTime}
    (hprovider : ∀ date ∈ provider, Returns (asUtc date)) (hpage : ∀ date ∈ page, Returns (asUtc date))
    (hguess : provider = none → page = none → ∀ date ∈ guess, Returns (asUtc date)) :
    Returns (chooseDate provider page guess) := by
  have hconverted : ∀ (date : DateTime) (confidence : DateConfidence), Returns (asUtc date) →
      Returns (do return (some (← asUtc date), confidence) : Except PyException _) := by
    intro date confidence hdate
    obtain ⟨utc, hutc⟩ := hdate
    exact (returns_bind _ _).mpr ⟨utc, hutc, returns_ok _⟩
  cases provider with
  | some date => exact hconverted date .high (hprovider date rfl)
  | none =>
      cases page with
      | some date => exact hconverted date .high (hpage date rfl)
      | none =>
          cases guess with
          | some date => exact hconverted date .medium (hguess rfl rfl date rfl)
          | none => exact returns_ok _

omit [Unicode] in
-- The hit was enriched with this.
def Enriched (hit : RawSearchHit) (enrichment : HitEnrichment) : Assertion AgentPorts :=
  fun events => ∃ hits enrichments,
    (⟨.enrichMany hits, .ok enrichments⟩ : Event AgentPorts) ∈ events ∧
      (hit, enrichment) ∈ hits.zip enrichments

omit [Unicode] in
theorem Enriched.later {hit : RawSearchHit} {enrichment : HitEnrichment}
    {past later : List (Event AgentPorts)} (h : Enriched hit enrichment past) (hle : past <+: later) :
    Enriched hit enrichment later := by
  obtain ⟨hits, enrichments, hevent, hpair⟩ := h
  exact ⟨hits, enrichments, hle.subset hevent, hpair⟩

theorem Enriched.dates {hit : RawSearchHit} {enrichment : HitEnrichment}
    {events : List (Event AgentPorts)} (h : Enriched hit enrichment events)
    (hsmooth : Smooth task events) : DatesAccepted task events hit enrichment := by
  obtain ⟨hits, enrichments, hevent, hpair⟩ := h
  exact (hsmooth.2 _ hevent).2.1 _ hpair

theorem resolveHit_succeeds (hit : RawSearchHit) (enrichment : HitEnrichment) :
    Succeeds task (Enriched hit enrichment) (resolveHit task.pageDates hit enrichment)
      fun result _ => result.source = hit.source := by
  have hchosen : ∀ pageDate, Triple
      (Smoothly task fun _ => Returns (chooseDate hit.publishedAt pageDate enrichment.publishedAt))
      (orRaise (chooseDate hit.publishedAt pageDate enrichment.publishedAt) >>= fun chosen => pure {
        title := hit.title
        url := hit.url
        snippet := hit.snippet
        publishedAt := chosen.1
        dateConfidence := chosen.2
        eventType := enrichment.eventType
        summary := enrichment.summary
        raw := hit.raw })
      (fun result : ResearchResult => Smoothly task fun _ => result.source = hit.source)
      fun _ events => ¬ Smooth task events := by
    intro pageDate
    have hraise : Succeeds task
        (fun _ => Returns (chooseDate hit.publishedAt pageDate enrichment.publishedAt))
        (orRaise (chooseDate hit.publishedAt pageDate enrichment.publishedAt)) fun _ _ => True :=
      succeeds_orRaise fun past hreturns => hreturns.imp fun value hvalue => ⟨hvalue, trivial⟩
    exact hraise.bind fun chosen => succeeds_pure fun past _ => rfl
  unfold resolveHit
  refine triple_ite (fun hfetch => ?_) fun hfetch => ?_
  · have hfetched : Succeeds task (Enriched hit enrichment)
        (raising (ask (.fetchPublishedDate hit.url))) fun pageDate _ =>
          Returns (chooseDate hit.publishedAt pageDate enrichment.publishedAt) := by
      refine triple_call fun past answer hpast => ?_
      cases answer with
      | error e =>
          intro hsmooth
          cases hsmooth.last.1
      | ok page =>
          intro hsmooth
          have hle := List.prefix_append past [⟨.fetchPublishedDate hit.url, .ok page⟩]
          have hdates := ((hpast (hsmooth.earlier hle)).later hle).dates hsmooth
          have haccepted := hsmooth.last.2
          cases page with
          | some date =>
              refine chooseDate_returns hdates.1 (fun other hother => ?_) fun _ hnone => by cases hnone
              cases hother
              exact haccepted
          | none =>
              refine chooseDate_returns hdates.1 (fun date hdate => by cases hdate) fun hnone _ => ?_
              refine hdates.2 hnone fun _ => List.any_eq_true.mpr ⟨_, List.mem_concat_self, ?_⟩
              exact decide_eq_true rfl
    exact hfetched.bind hchosen
  · refine Triple.bind (triple_pure fun past hpast hsmooth => ?_) hchosen
    have hdates := (hpast hsmooth).dates hsmooth
    refine chooseDate_returns hdates.1 (fun date hdate => by cases hdate) fun hnone _ => ?_
    exact hdates.2 hnone fun hpage => absurd ⟨hnone, hpage⟩ hfetch

theorem resolveZip_succeeds (hits : List RawSearchHit) (enrichments : List HitEnrichment)
    (hlength : enrichments.length = hits.length) :
    Succeeds task (fun events => ∀ pair ∈ hits.zip enrichments, Enriched pair.1 pair.2 events)
      (resolveZip task.pageDates hits enrichments) fun results _ =>
        results.map ResearchResult.source = hits.map RawSearchHit.source := by
  induction hits generalizing enrichments with
  | nil =>
      cases enrichments with
      | nil => exact succeeds_pure fun past _ => rfl
      | cons enrichment enrichments => cases hlength
  | cons hit hits ih =>
      cases enrichments with
      | nil => cases hlength
      | cons enrichment enrichments =>
          have hfirst := (@resolveHit_succeeds _ task hit enrichment).frame
            (S := fun events => ∀ pair ∈ hits.zip enrichments, Enriched pair.1 pair.2 events)
            fun past later hle hpast pair hpair => (hpast pair hpair).later hle
          refine (hfirst.before fun past hpast hsmooth => ?_).bind fun result => ?_
          · exact List.forall_mem_cons.mp (hpast hsmooth)
          · have hrest := (ih enrichments (Nat.succ.inj hlength)).frame
              (S := fun _ => result.source = hit.source) fun past later hle hsource => hsource
            refine (hrest.before fun past hpast hsmooth => (hpast hsmooth).symm).bind fun results => ?_
            refine succeeds_pure fun past hpast => ?_
            rw [List.map_cons, List.map_cons, hpast.1, hpast.2]

-- What is delivered, and that the URLs seen before can be compared with it.
def Resolved (task : AgentTask) (hits : List RawSearchHit) (results : List ResearchResult) : Prop :=
  (results.map ResearchResult.source).Perm (hits.map RawSearchHit.source) ∧
    ∀ seenUrls ∈ task.seenUrls, ∀ url ∈ seenUrls, Returns (normalizeUrl url)

theorem sorted_succeeds (hits : List RawSearchHit) :
    Succeeds task (fun _ => True) (sortByPublicationDate <$> resolveHits task.pageDates hits)
      fun results _ => Resolved task hits results := by
  rw [map_eq_pure_bind]
  unfold resolveHits
  rw [bind_assoc]
  have hanswered : Succeeds task (fun _ => True) (raising (ask (.enrichMany hits)))
      fun enrichments events => enrichments.length = hits.length ∧
        (∀ pair ∈ hits.zip enrichments, Enriched pair.1 pair.2 events) ∧
        ∀ seenUrls ∈ task.seenUrls, ∀ url ∈ seenUrls, Returns (normalizeUrl url) := by
    refine succeeds_call (fun answer e => raisedOf_error) fun past answer enrichments hanswer _ haccepted => ?_
    cases hanswer
    refine ⟨haccepted.1, fun pair hpair => ?_, haccepted.2.2⟩
    exact ⟨hits, enrichments, List.mem_concat_self, hpair⟩
  refine hanswered.bind fun enrichments => succeeds_of fun hlength => ?_
  have hzip := (@resolveZip_succeeds _ task hits enrichments hlength).frame
    (S := fun _ => ∀ seenUrls ∈ task.seenUrls, ∀ url ∈ seenUrls, Returns (normalizeUrl url))
    fun past later hle hseen => hseen
  refine hzip.bind fun results => succeeds_pure fun past hpast => ⟨?_, hpast.2⟩
  rw [← hpast.1]
  exact (List.perm_insertionSort _ results).map _

theorem Resolved.usable {hits : List RawSearchHit} {results : List ResearchResult}
    (h : Resolved task hits results) (husable : Usable hits) :
    ∀ result ∈ results, Returns (normalizeUrl result.url) := by
  intro result hresult
  obtain ⟨hit, hhit, hsource⟩ := List.mem_map.mp (h.1.mem_iff.mp (List.mem_map_of_mem hresult))
  have hurl : hit.url = result.url := congrArg (fun source => source.2.1) hsource
  rw [← hurl]
  exact husable hit hhit

-- With URLs that can be compared, the delivery is of all the hits.
theorem deliver_succeeds (hits : List RawSearchHit) (seq : Nat) (husable : Usable hits) :
    Succeeds task (fun _ => True) (deliver task hits seq) fun results _ =>
      (results.map ResearchResult.source).Perm (hits.map RawSearchHit.source) := by
  have hdelivered : ∀ results : List ResearchResult, Succeeds task
      (fun _ => (results.map ResearchResult.source).Perm (hits.map RawSearchHit.source))
      (do
        raising (ask (.deliver task.jobId results))
        return results)
      fun results _ => (results.map ResearchResult.source).Perm (hits.map RawSearchHit.source) := by
    intro results
    have hcall : Succeeds task
        (fun _ => (results.map ResearchResult.source).Perm (hits.map RawSearchHit.source))
        (raising (ask (.deliver task.jobId results))) fun _ _ =>
          (results.map ResearchResult.source).Perm (hits.map RawSearchHit.source) :=
      succeeds_call (fun answer e => raisedOf_error) fun past answer _ _ hperm _ => hperm
    exact hcall.bind fun _ => succeeds_pure fun past hperm => hperm
  unfold deliver
  refine (sorted_succeeds hits).bind fun results => ?_
  cases hseen : task.seenUrls with
  | none => exact (hdelivered results).before fun past hpast hsmooth => (hpast hsmooth).1
  | some seenUrls =>
      have hflagged : Succeeds task (fun _ => Resolved task hits results)
          (orRaise (flagNew results seenUrls)) fun flagged _ =>
            (flagged.map ResearchResult.source).Perm (hits.map RawSearchHit.source) := by
        refine succeeds_orRaise fun past hpast => ?_
        refine ⟨_, flagNew_eq (hpast.usable husable) (hpast.2 seenUrls hseen), ?_⟩
        rw [List.map_map]
        exact hpast.1
      refine hflagged.bind fun flagged => ?_
      have hreported : Succeeds task
          (fun _ => (flagged.map ResearchResult.source).Perm (hits.map RawSearchHit.source))
          (liftM (report task.jobId {
            seq := seq
            kind := .report
            detail := ""
            reason := newReason (flagged.countP fun result => result.isNew)
            newHits := flagged.countP fun result => result.isNew }) : AgentRun Unit) fun _ _ =>
              (flagged.map ResearchResult.source).Perm (hits.map RawSearchHit.source) :=
        triple_lift fun past hpast answer hsmooth =>
          hpast (hsmooth.earlier (List.prefix_append past _))
      exact hreported.bind fun _ => hdelivered flagged

end Delivery

end

end AgentBoilerplate.Agent
