import AgentBoilerplate.Agent.Distinct

namespace AgentBoilerplate.Agent

open Python Effects Fallible

-- The hits of a run as its marks tell them, and the URLs that the critic rejected.
structure Judged where
  hits : List RawSearchHit
  rejected : List String

def rejectedBy : Mark → List String
  | .critiqued (.ok verdict) => verdict.irrelevantUrls
  | _ => []

-- The URLs of every verdict of a run.
def rejectedUrls (events : List (Event AgentPorts)) : List String := (marks events).flatMap rejectedBy

-- No result that a run delivers has a URL that its critic rejected.
def Respected (events : List (Event AgentPorts)) : Prop :=
  ∀ delivery ∈ deliveries events, ∀ result ∈ delivery.2, result.url ∉ rejectedUrls events

section

variable [Unicode]

def Judged.after (judged : Judged) : Mark → Judged
  | .searched (.ok found) => { judged with hits := judged.hits ++ fresh judged.hits found }
  | .critiqued (.ok verdict) => ⟨verdict.kept judged.hits, judged.rejected ++ verdict.irrelevantUrls⟩
  | _ => judged

-- A search finds no URL that was rejected, one apart whose key is kept.
def Judged.Apart (judged : Judged) : Mark → Prop
  | .searched (.ok found) => ∀ hit ∈ fresh judged.hits found, hit.url ∉ judged.rejected
  | _ => True

instance (judged : Judged) : (m : Mark) → Decidable (judged.Apart m)
  | .searched (.ok found) =>
      inferInstanceAs (Decidable (∀ hit ∈ fresh judged.hits found, hit.url ∉ judged.rejected))
  | .searched (.error _) | .decided | .critiqued _ | .asked | .recorded _ => isTrue trivial

-- The repair searches of a run find nothing that the critic rejected.
def RepairsApart (hits : List RawSearchHit) (events : List (Event AgentPorts)) : Prop :=
  Permits Judged.after Judged.Apart ⟨hits, []⟩ (marks events)

instance (hits : List RawSearchHit) (events : List (Event AgentPorts)) :
    Decidable (RepairsApart hits events) := by
  unfold RepairsApart
  infer_instance

theorem judged_hits (trace : List Mark) (judged : Judged) (added : Nat) :
    (trace.foldl Judged.after judged).hits =
      (trace.foldl Collection.after ⟨judged.hits, added⟩).hits := by
  induction trace generalizing judged added with
  | nil => rfl
  | cons m trace ih =>
      have hsame : Collection.after ⟨judged.hits, added⟩ m =
          ⟨(judged.after m).hits, (Collection.after ⟨judged.hits, added⟩ m).added⟩ := by
        cases m with
        | searched answer => cases answer <;> rfl
        | critiqued answer => cases answer <;> rfl
        | decided | asked | recorded => rfl
      rw [List.foldl_cons, List.foldl_cons, hsame]
      exact ih _ _

theorem judged_rejected (trace : List Mark) (judged : Judged) :
    (trace.foldl Judged.after judged).rejected =
      judged.rejected ++ trace.flatMap rejectedBy := by
  induction trace generalizing judged with
  | nil => exact (List.append_nil _).symm
  | cons m trace ih =>
      rw [List.foldl_cons, ih, List.flatMap_cons, ← List.append_assoc]
      congr 1
      cases m with
      | searched answer => cases answer <;> exact (List.append_nil _).symm
      | critiqued answer =>
          cases answer with
          | error e => exact (List.append_nil _).symm
          | ok verdict => rfl
      | decided | asked | recorded => exact (List.append_nil _).symm

-- A part of a run without a review.
def Unjudged (trace : List Mark) : Prop := ∀ m ∈ trace, m.isCritiqued = false

omit [Unicode] in
theorem Unjudged.append {trace trace' : List Mark} (h : Unjudged trace) (h' : Unjudged trace') :
    Unjudged (trace ++ trace') := fun m hm => (List.mem_append.mp hm).elim (h m) (h' m)

omit [Unicode] in
theorem unjudged_of_count {trace : List Mark} (h : trace.countP Mark.isCritiqued = 0) :
    Unjudged trace := by
  intro m hm
  have hnot := List.countP_eq_zero.mp h m hm
  exact Bool.eq_false_iff.mpr hnot

omit [Unicode] in
theorem Unjudged.rejected {trace : List Mark} (h : Unjudged trace) :
    trace.flatMap rejectedBy = [] := by
  refine List.flatMap_eq_nil_iff.mpr fun m hm => ?_
  cases m with
  | critiqued answer => cases h _ hm
  | searched | decided | asked | recorded => rfl

-- Nothing is rejected before the review, so every search is allowed.
theorem Unjudged.permits {trace : List Mark} (h : Unjudged trace) (hits : List RawSearchHit) :
    Permits Judged.after Judged.Apart ⟨hits, []⟩ trace := by
  induction trace generalizing hits with
  | nil => trivial
  | cons m trace ih =>
      obtain ⟨hm, hrest⟩ := List.forall_mem_cons.mp h
      cases m with
      | critiqued answer => cases hm
      | searched answer =>
          cases answer with
          | error e => exact ⟨trivial, ih hrest hits⟩
          | ok found => exact ⟨fun hit hhit => List.not_mem_nil, ih hrest _⟩
      | decided | asked | recorded => exact ⟨trivial, ih hrest hits⟩

-- The searches of a part of a run are allowed if it ends without a rejected hit.
def Judges (hits : List RawSearchHit) (trace : List Mark) (later : List RawSearchHit) : Prop :=
  Permits Judged.after Judged.Apart ⟨hits, []⟩ trace ↔
    ∀ hit ∈ later, hit.url ∉ trace.flatMap rejectedBy

theorem Unjudged.judges {trace : List Mark} (h : Unjudged trace) (hits later : List RawSearchHit) :
    Judges hits trace later := by
  unfold Judges
  rw [h.rejected]
  exact iff_of_true (h.permits hits) fun _ _ => List.not_mem_nil

-- What comes before the review makes no difference to it.
theorem Judges.after {hits later last : List RawSearchHit} {trace trace' : List Mark}
    (h' : Judges later trace' last) (h : Unjudged trace) (hgathers : Gathers hits trace later) :
    Judges hits (trace ++ trace') last := by
  have hstate : trace.foldl Judged.after ⟨hits, []⟩ = ⟨later, []⟩ := by
    have hhits := (judged_hits trace ⟨hits, []⟩ 0).trans (hgathers.collects 0)
    have hrejected := (judged_rejected trace ⟨hits, []⟩).trans h.rejected
    generalize trace.foldl Judged.after ⟨hits, []⟩ = judged at *
    obtain ⟨hits', rejected⟩ := judged
    dsimp only at hhits hrejected
    rw [hhits, hrejected]
  unfold Judges at h' ⊢
  rw [permits_append, hstate, h', List.flatMap_append, h.rejected]
  exact and_iff_right (h.permits hits)

-- A step that is recorded at the end rejects nothing.
theorem Judges.recorded {hits later : List RawSearchHit} {trace : List Mark}
    (h : Judges hits trace later) (step : AgentStep) :
    Judges hits (trace ++ [.recorded step]) later := by
  have hsame : [Mark.recorded step].flatMap rejectedBy = [] := rfl
  unfold Judges at h ⊢
  rw [permits_append, List.flatMap_append, hsame, List.append_nil, ← h]
  exact and_iff_left ⟨trivial, trivial⟩

omit [Unicode] in
theorem kept_accepted (verdict : Critique) (hits : List RawSearchHit) :
    ∀ hit ∈ verdict.kept hits, hit.url ∉ verdict.irrelevantUrls := fun _ hhit =>
  of_decide_eq_true (List.mem_filter.mp hhit).2

theorem Reviews.judges {repairs : Prop} {hits : List RawSearchHit} {recorded : Nat}
    {trace : List Mark} {reviewed : List RawSearchHit × List AgentStep}
    (h : Reviews repairs hits recorded trace (.ok reviewed)) : Judges hits trace reviewed.1 := by
  unfold Judges
  cases h with
  | skipped => exact iff_of_true trivial fun _ _ => List.not_mem_nil
  | @reviewed verdict step hseq hkind =>
      have hrejected : [Mark.critiqued (.ok verdict), .recorded step].flatMap rejectedBy =
          verdict.irrelevantUrls := List.append_nil _
      rw [hrejected]
      exact iff_of_true ⟨trivial, trivial, trivial⟩ (kept_accepted verdict hits)
  | @repaired verdict step repair _ _ _ found new keys hkeys hnew =>
      rw [hitKeys_eq_ok hkeys] at hnew
      have hfresh : new = fresh (verdict.kept hits) found := (newHits_eq_ok hnew).2
      have hrejected : [Mark.critiqued (.ok verdict), .recorded step, .searched (.ok found),
          .recorded repair].flatMap rejectedBy = verdict.irrelevantUrls := List.append_nil _
      rw [hrejected, hfresh, List.forall_mem_append]
      constructor
      · intro hpermits
        exact ⟨kept_accepted verdict hits, hpermits.2.2.1⟩
      · intro hhits
        exact ⟨trivial, trivial, hhits.2, trivial, trivial⟩

variable {task : AgentTask} {past : List (Event AgentPorts)} {state : GraphState}

-- What a node judges: nothing, or all that it leaves.
structure NodeJudges (node : Node) (state : GraphState) (trace : List Mark)
    (result : Except PyException (NodeResult GraphState String)) : Prop where
  before : node ≠ .critique → Unjudged trace
  judges : ∀ next : GraphState, result = .ok (.update next) →
    Judges state.rawHits trace next.rawHits

theorem Unjudged.node {trace : List Mark} (h : Unjudged trace) (node : Node) (state : GraphState)
    (result : Except PyException (NodeResult GraphState String)) :
    NodeJudges node state trace result := ⟨fun _ => h, fun _ _ => h.judges _ _⟩

theorem node_judges (node : Node) (resume : Option String) (hdue : Due task state node) :
    ((buildGraph task).node node resume state).run.Ends (fun events result => ∃ trace,
      marks events = marks past ++ trace ∧ NodeJudges node state trace result) past := by
  cases node with
  | decide =>
      refine (runDecide_ends state).mono fun events result hresult => ?_
      obtain ⟨trace, hevents, hcases⟩ := hresult
      have htrace : Unjudged trace := by
        rcases hcases with ⟨rfl, -⟩ | ⟨rfl, -, -⟩
        · exact unjudged_of_count rfl
        · exact unjudged_of_count rfl
      exact ⟨trace, hevents, htrace.node _ _ _⟩
  | search =>
      obtain ⟨-, query, reason, hnext⟩ := hdue
      have hstate : state = { state with next := actionToDict (.search query reason) } := by
        rw [← hnext]
      rw [hstate]
      refine (runSearch_ends state query reason).mono fun events result hresult => ?_
      obtain ⟨trace, outcome, hevents, hsearches, -⟩ := hresult
      have htrace : Unjudged trace := by
        cases hsearches with
        | failed => exact unjudged_of_count rfl
        | found => exact unjudged_of_count rfl
      exact ⟨trace, hevents, htrace.node _ _ _⟩
  | ask =>
      obtain ⟨question, reason, hnext⟩ := hdue
      have hquestion : state.next.get "question" = .ok question := by
        rw [hnext]
        rfl
      change (Node.runAsk resume state).run.Ends _ past
      unfold Node.runAsk
      rw [hquestion, Fallible.orRaise_ok_bind]
      have hnothing : Unjudged [] := unjudged_of_count rfl
      cases resume <;> exact ⟨[], (List.append_nil _).symm, hnothing.node _ _ _⟩
  | finalize =>
      obtain ⟨reason, hnext⟩ := hdue
      have hstate : state = { state with next := actionToDict (.finish reason) } := by
        rw [← hnext]
      rw [hstate]
      refine (runFinalize_ends state reason).mono fun events result hresult => ?_
      obtain ⟨step, -, -, hevents, -⟩ := hresult
      have htrace : Unjudged [.recorded step] := unjudged_of_count rfl
      exact ⟨_, hevents, htrace.node _ _ _⟩
  | critique =>
      refine (runCritique_ends state).mono fun events result hresult => ?_
      obtain ⟨trace, outcome, hevents, hreviews, rfl⟩ := hresult
      refine ⟨trace, hevents, fun hnode => absurd rfl hnode, fun next hnext => ?_⟩
      cases outcome with
      | error e => cases hnext
      | ok reviewed =>
          cases hnext
          have hhits : (state.reviewed reviewed.1 reviewed.2).rawHits = reviewed.1 :=
            hits_roundtrip reviewed.1
          rw [hhits]
          exact hreviews.judges

-- The review is the last node of a graph that finishes.
theorem invoke_judges {node : Node} {resume : Option String} {limit : Nat} (executed : List Node)
    (hdue : Due task state node) (htracks : state.Tracks) :
    ((buildGraph task).invoke limit executed node resume state).Ends
      (fun events invocation => ∃ trace, marks events = marks past ++ trace ∧
        (invocation.ending = .finished → Judges state.rawHits trace invocation.state.rawHits))
      past := by
  induction limit generalizing executed node resume state past with
  | zero =>
      refine ⟨[], (List.append_nil _).symm, fun hending => ?_⟩
      cases hending
  | succ limit ih =>
      unfold StateGraph.invoke
      rw [Program.ends_bind]
      refine (((node_staysWithin node resume hdue).and (node_collects node resume hdue htracks)).and
        (node_judges node resume hdue)).mono fun events result hresult => ?_
      obtain ⟨⟨⟨trace, hevents, hwithin⟩, trace', hevents', hcollects⟩, trace'', hevents'', hjudges⟩ :=
        hresult
      have hsame' : trace' = trace := List.append_cancel_left (hevents'.symm.trans hevents)
      have hsame'' : trace'' = trace := List.append_cancel_left (hevents''.symm.trans hevents)
      rw [hsame'] at hcollects
      rw [hsame''] at hjudges
      cases result with
      | error e =>
          refine ⟨_, hevents, fun hending => ?_⟩
          cases hending
      | ok value =>
          cases value with
          | interrupt question =>
              refine ⟨_, hevents, fun hending => ?_⟩
              cases hending
          | update state' =>
              obtain ⟨hgathers, hkeeps⟩ := hcollects
              obtain ⟨next, hnext, hwithin⟩ := hwithin
              dsimp only
              rw [hnext]
              cases next with
              | none => exact ⟨_, hevents, fun _ => hjudges.judges state' rfl⟩
              | some node' =>
                  have hbefore : node ≠ .critique := by
                    intro heq
                    rw [heq] at hnext
                    cases hnext
                  refine (ih _ hwithin.1 (hkeeps hbefore)).mono fun later invocation hlater => ?_
                  obtain ⟨rest, hrest, hfinished⟩ := hlater
                  refine ⟨trace ++ rest, ?_, fun hending => ?_⟩
                  · rw [hrest, hevents, List.append_assoc]
                  · exact (hfinished hending).after (hjudges.before hbefore) hgathers

-- What a part of a run delivers, if anything: its hits, as its searches left them.
def Verdict (hits : List RawSearchHit) (trace : List Mark)
    (delivered : List (String × List ResearchResult)) : Prop :=
  delivered = [] ∨ ∃ later, DeliversUrls later delivered ∧ Judges hits trace later

theorem Verdict.after {hits later : List RawSearchHit} {trace trace' : List Mark}
    {delivered : List (String × List ResearchResult)} (h' : Verdict later trace' delivered)
    (h : Unjudged trace) (hgathers : Gathers hits trace later) :
    Verdict hits (trace ++ trace') delivered := by
  rcases h' with hnone | ⟨last, hurls, hjudges⟩
  · exact Or.inl hnone
  · exact Or.inr ⟨last, hurls, hjudges.after h hgathers⟩

theorem Verdict.respected {hits : List RawSearchHit} {events : List (Event AgentPorts)}
    (h : Verdict hits (marks events) (deliveries events)) :
    Respected events ↔ (deliveries events ≠ [] → RepairsApart hits events) := by
  rcases h with hnone | ⟨later, hurls, hjudges⟩
  · refine iff_of_true (fun delivery hdelivery => ?_) fun hsome => absurd hnone hsome
    rw [hnone] at hdelivery
    cases hdelivery
  · constructor
    · intro hrespected hsome
      obtain ⟨delivery, hdelivery⟩ := List.exists_mem_of_ne_nil _ hsome
      refine hjudges.mpr fun hit hhit => ?_
      have hurl : hit.url ∈ delivery.2.map ResearchResult.url :=
        (hurls delivery hdelivery).mem_iff.mpr (List.mem_map_of_mem hhit)
      obtain ⟨result, hresult, hsame⟩ := List.mem_map.mp hurl
      rw [← hsame]
      exact hrespected delivery hdelivery result hresult
    · intro hpermits delivery hdelivery result hresult
      have happlies := hjudges.mp (hpermits (List.ne_nil_of_mem hdelivery))
      have hurl : result.url ∈ later.map RawSearchHit.url :=
        (hurls delivery hdelivery).mem_iff.mp (List.mem_map_of_mem hresult)
      obtain ⟨hit, hhit, hsame⟩ := List.mem_map.mp hurl
      rw [← hsame]
      exact happlies hit hhit

theorem conclude_judges (loop : LoopState) (hnumbered : Numbered loop.steps) :
    (conclude task loop).run.Ends (fun events _ => ∃ trace delivered,
      marks events = marks past ++ trace ∧ deliveries events = deliveries past ++ delivered ∧
        Verdict loop.hits trace delivered) past := by
  unfold conclude
  rw [ExceptT.run_bind, Program.ends_bind]
  have hkeeps : (review task loop).run.Keeps undelivered _ :=
    (review_keeps task loop).mono undecided_undelivered
  refine ((review_ends loop hnumbered).and (undelivered_ends hkeeps past)).mono
    fun events result hresult => ?_
  obtain ⟨⟨trace, outcome, hevents, hreviews, rfl⟩, hnone⟩ := hresult
  cases outcome with
  | error e => exact ⟨trace, [], hevents, by rw [hnone, List.append_nil], Or.inl rfl⟩
  | ok reviewed =>
      dsimp only [Except.map]
      rw [map_eq_pure_bind, ExceptT.run_bind, Program.ends_bind]
      refine ((deliver_ends task _ _).and (deliver_urls _ _)).mono fun later result hlater => ?_
      obtain ⟨hmarks, delivered, hdelivered, hurls⟩ := hlater
      rw [hnone] at hdelivered
      have hjudges := hreviews.judges
      have hverdict : ∃ trace delivered, marks later = marks past ++ trace ∧
          deliveries later = deliveries past ++ delivered ∧ Verdict loop.hits trace delivered := by
        rcases hmarks with hsame | ⟨step, -, -, hreport⟩
        · exact ⟨trace, delivered, hsame.trans hevents, hdelivered, Or.inr ⟨_, hurls, hjudges⟩⟩
        · rw [hevents, List.append_assoc] at hreport
          exact ⟨_, delivered, hreport, hdelivered, Or.inr ⟨_, hurls, hjudges.recorded step⟩⟩
      cases result <;> exact hverdict

theorem runAgentResearch_judges :
    (runAgentResearch task).Ends (fun events _ => ∃ trace delivered,
      marks events = marks past ++ trace ∧ deliveries events = deliveries past ++ delivered ∧
        Verdict [] trace delivered) past := by
  unfold runAgentResearch reportingFailure
  rw [Program.ends_bind]
  have hrun : (agentResearch task).run.Ends (fun events _ => ∃ trace delivered,
      marks events = marks past ++ trace ∧ deliveries events = deliveries past ++ delivered ∧
        Verdict [] trace delivered) past := by
    unfold agentResearch
    rw [Fallible.run_raising_bind]
    intro answer
    have hmarks := @marks_unmarked past ⟨.markStarted task.jobId, answer⟩ rfl
    have hnone : deliveries (past ++ [⟨.markStarted task.jobId, answer⟩]) = deliveries past :=
      (deliveries_append _ _).trans (List.append_nil _)
    cases answer with
    | error e =>
        refine ⟨[], [], ?_, ?_, Or.inl rfl⟩
        · rw [hmarks, List.append_nil]
        · rw [hnone, List.append_nil]
    | ok _ =>
        change (decisionLoop task _ _ >>= _).run.Ends _ _
        rw [ExceptT.run_bind, Program.ends_bind]
        have hkeeps : (decisionLoop task (List.range' 1 task.maxSteps) ⟨[], [], []⟩).run.Keeps
          undelivered _ := decisionLoop_keeps task _ _
        have hleaves := @decisionLoop_leaves _ task (past ++ [⟨.markStarted task.jobId, .ok ()⟩])
          task.maxSteps ⟨[], [], []⟩ rfl rfl (Nat.zero_add _)
        have hgathers := @decisionLoop_gathers _ task (past ++ [⟨.markStarted task.jobId, .ok ()⟩])
          task.maxSteps ⟨[], [], []⟩ rfl
        refine ((hgathers.and hleaves).and (undelivered_ends hkeeps _)).mono
          fun later result hresult => ?_
        obtain ⟨⟨⟨trace, hlater, hloop⟩, trace', hlater', hleaves⟩, hsame⟩ := hresult
        have htrace : trace' = trace := List.append_cancel_left (hlater'.symm.trans hlater)
        rw [htrace] at hleaves
        rw [hmarks] at hlater
        rw [hnone] at hsame
        have hstopped : ∃ trace delivered, marks later = marks past ++ trace ∧
            deliveries later = deliveries past ++ delivered ∧ Verdict [] trace delivered :=
          ⟨trace, [], hlater, by rw [hsame, List.append_nil], Or.inl rfl⟩
        cases result with
        | error e => exact hstopped
        | ok loop =>
            cases loop with
            | none => exact hstopped
            | some loop =>
                obtain ⟨hnumbered, hcovers⟩ := hleaves
                -- the loop leaves the one review of its allowance
                have hcount : trace.countP Mark.isCritiqued = 0 := by
                  have hcritiques := hcovers.critiques
                  simp only [spent, loopAllowance] at hcritiques
                  omega
                refine (conclude_judges loop hnumbered).mono fun last result hlast => ?_
                obtain ⟨rest, delivered, hrest, hdelivered, hverdict⟩ := hlast
                rw [hlater, List.append_assoc] at hrest
                rw [hsame] at hdelivered
                exact ⟨_, delivered, hrest, hdelivered,
                  hverdict.after (unjudged_of_count hcount) (show Gathers [] trace loop.hits from hloop)⟩
  refine hrun.mono fun events result hresult => ?_
  obtain ⟨trace, delivered, hmarks, hdelivered, hverdict⟩ := hresult
  refine ((reportResult_ends task.jobId result).and (reportResult_deliveries _ _)).mono
    fun later value hlater => ?_
  exact ⟨trace, delivered, hlater.1.2.trans hmarks, hlater.2.trans hdelivered, hverdict⟩

variable {limit : Nat} {checkpoint : Option Checkpoint} {resumeAnswer : Option String}

theorem startGraph_judges (hsound : ∀ c, checkpoint = some c → c.Sound task)
    (hkeys : ∀ c, checkpoint = some c → c.due ≠ none → c.state.Tracks) :
    (startGraph task limit checkpoint resumeAnswer).Ends
      (fun events invocation => ∃ trace, marks events = marks past ++ trace ∧
        (invocation.ending = .finished →
          Judges (taskHits checkpoint resumeAnswer) trace invocation.state.rawHits)) past := by
  have hdecide : Due task (initialState task resumeAnswer) .decide := trivial
  have htracks : (initialState task resumeAnswer).Tracks := rfl
  unfold startGraph taskHits
  cases resumeAnswer with
  | none => exact invoke_judges [] hdecide htracks
  | some answer =>
      cases checkpoint with
      | none => exact invoke_judges [] hdecide htracks
      | some checkpoint =>
          have hcheckpoint := hkeys checkpoint rfl
          obtain ⟨state, due⟩ := checkpoint
          cases due with
          | some due =>
              exact invoke_judges [] (hsound _ rfl due rfl) (hcheckpoint (by simp))
          | none =>
              have hnothing : Unjudged [] := unjudged_of_count rfl
              exact ⟨[], (List.append_nil _).symm, fun _ => hnothing.judges _ _⟩

theorem settle_judges {hits : List RawSearchHit} {trace : List Mark}
    {before : List (Event AgentPorts)} (invocation : GraphInvocation)
    (hevents : marks past = marks before ++ trace) (hsame : deliveries past = deliveries before)
    (hjudges : invocation.ending = .finished → Judges hits trace invocation.state.rawHits) :
    (settle task limit invocation).run.Ends (fun events _ => ∃ trace delivered,
      marks events = marks before ++ trace ∧ deliveries events = deliveries before ++ delivered ∧
        Verdict hits trace delivered) past := by
  have hnone : ∀ events trace', marks events = marks past ++ trace' →
      deliveries events = deliveries past → ∃ trace delivered,
        marks events = marks before ++ trace ∧ deliveries events = deliveries before ++ delivered ∧
          Verdict hits trace delivered := by
    intro events trace' hmarks hdeliveries
    refine ⟨trace ++ trace', [], ?_, ?_, Or.inl rfl⟩
    · rw [hmarks, hevents, List.append_assoc]
    · rw [hdeliveries, hsame, List.append_nil]
  have hstopped := hnone past [] (List.append_nil _).symm rfl
  unfold settle
  cases hending : invocation.ending with
  | raised e => exact hstopped
  | outOfSteps => exact hstopped
  | interrupted question =>
      dsimp only
      by_cases hclarifier : task.clarifier = true
      · rw [if_pos hclarifier, Fallible.run_raising_bind]
        intro answer
        have hmark : mark ⟨.requestClarification task.jobId question, answer⟩ = some .asked := rfl
        have hasked : deliveries (past ++ [⟨.requestClarification task.jobId question, answer⟩]) =
            deliveries past := (deliveries_append _ _).trans (List.append_nil _)
        cases answer <;> exact hnone _ _ (marks_marked past hmark) hasked
      · rw [if_neg hclarifier]
        exact hstopped
  | finished =>
      dsimp only
      rw [map_eq_pure_bind, ExceptT.run_bind, Program.ends_bind]
      refine ((deliver_ends task _ _).and (deliver_urls invocation.state.rawHits _)).mono
        fun later result hlater => ?_
      obtain ⟨hmarks, delivered, hdelivered, hurls⟩ := hlater
      have hfinished := hjudges hending
      rw [hsame] at hdelivered
      have hverdict : ∃ trace delivered, marks later = marks before ++ trace ∧
          deliveries later = deliveries before ++ delivered ∧ Verdict hits trace delivered := by
        rcases hmarks with hquiet | ⟨step, -, -, hreport⟩
        · exact ⟨trace, delivered, hquiet.trans hevents, hdelivered, Or.inr ⟨_, hurls, hfinished⟩⟩
        · rw [hevents, List.append_assoc] at hreport
          exact ⟨_, delivered, hreport, hdelivered, Or.inr ⟨_, hurls, hfinished.recorded step⟩⟩
      cases result <;> exact hverdict

theorem runAgentGraph_judges (hsound : ∀ c, checkpoint = some c → c.Sound task)
    (hkeys : ∀ c, checkpoint = some c → c.due ≠ none → c.state.Tracks) :
    (runAgentGraph task limit checkpoint resumeAnswer).Ends
      (fun events _ => ∃ trace delivered, marks events = marks past ++ trace ∧
        deliveries events = deliveries past ++ delivered ∧
        Verdict (taskHits checkpoint resumeAnswer) trace delivered) past := by
  have hstarted : ∀ answer, marks (past ++ [⟨.markStarted task.jobId, answer⟩]) = marks past :=
    fun answer => marks_unmarked past rfl
  have hnone : ∀ answer, deliveries (past ++ [⟨.markStarted task.jobId, answer⟩]) = deliveries past :=
    fun answer => (deliveries_append _ _).trans (List.append_nil _)
  unfold runAgentGraph
  intro answer
  cases answer with
  | error e =>
      intro reported
      refine ⟨[], [], ?_, ?_, Or.inl rfl⟩
      · rw [marks_unmarked _ rfl, hstarted, List.append_nil]
      · rw [deliveries_append, hnone]
        rfl
  | ok _ =>
      change (startGraph task limit checkpoint resumeAnswer >>= _).Ends _ _
      rw [Program.ends_bind]
      have hkeeps := (startGraph_keeps task limit checkpoint resumeAnswer).mono
        undecided_undelivered
      refine ((startGraph_judges hsound hkeys).and (undelivered_ends hkeeps _)).mono
        fun events invocation h => ?_
      obtain ⟨⟨trace, hevents, hjudges⟩, hsame⟩ := h
      rw [hstarted] at hevents
      rw [hnone] at hsame
      unfold reportingFailure
      rw [bind_assoc, Program.ends_bind]
      refine (settle_judges invocation hevents hsame hjudges).mono fun settled result hsettled => ?_
      obtain ⟨trace, delivered, hmarks, hdelivered, hverdict⟩ := hsettled
      rw [Program.ends_bind]
      refine ((reportResult_ends task.jobId result).and (reportResult_deliveries _ _)).mono
        fun last value hlast => ?_
      exact ⟨trace, delivered, hlast.1.2.trans hmarks, hlast.2.trans hdelivered, hverdict⟩

-- A checkpoint that a task leaves is the one that its graph leaves.
theorem runAgentGraph_tracks (hsound : ∀ c, checkpoint = some c → c.Sound task)
    (hkeys : ∀ c, checkpoint = some c → c.due ≠ none → c.state.Tracks) :
    (runAgentGraph task limit checkpoint resumeAnswer).Ends
      (fun _ run => ∀ invocation, run.invocation = some invocation → invocation.due ≠ none →
        invocation.state.Tracks) past := by
  unfold runAgentGraph
  intro answer
  cases answer with
  | error e =>
      intro reported invocation heq
      cases heq
  | ok _ =>
      change (startGraph task limit checkpoint resumeAnswer >>= _).Ends _ _
      rw [Program.ends_bind]
      refine (startGraph_distinct hsound hkeys).mono fun events invocation h => ?_
      obtain ⟨trace, -, hleaves⟩ := h
      rw [Program.ends_bind]
      refine (Program.ends_extends _ _).mono fun settled result _ other heq => ?_
      cases heq
      exact hleaves.tracks

theorem Reached.tracks {maxSteps : Nat} (h : Reached maxSteps checkpoint) (c : Checkpoint)
    (heq : checkpoint = some c) : c.due ≠ none → c.state.Tracks := by
  induction h generalizing c with
  | fresh => cases heq
  | @left task limit checkpoint resumeAnswer oracle invocation h hsteps hrun ih =>
      cases heq
      rw [← hsteps] at h
      have hends := @runAgentGraph_tracks _ task [] limit checkpoint resumeAnswer h.sound ih
      exact hends.execute oracle invocation hrun

-- A run of the agent mode, in either orchestrator, delivers no result whose URL
-- its critic rejected, exactly if its repair search does not find one again.
theorem verdict_respected (task : AgentTask) (limit : Nat) {checkpoint : Option Checkpoint}
    (hreached : Reached task.maxSteps checkpoint) (resumeAnswer : Option String)
    (oracle : Oracle AgentPorts) :
    let loop := ((runAgentResearch task).execute oracle).2
    let graph := ((runAgentGraph task limit checkpoint resumeAnswer).execute oracle).2
    (Respected loop ↔ (deliveries loop ≠ [] → RepairsApart [] loop)) ∧
      (Respected graph ↔
        (deliveries graph ≠ [] → RepairsApart (taskHits checkpoint resumeAnswer) graph)) := by
  intro loop graph
  refine ⟨Verdict.respected ?_, Verdict.respected ?_⟩
  · have hends := @runAgentResearch_judges _ task []
    obtain ⟨trace, delivered, hmarks, hdelivered, hverdict⟩ := hends.execute oracle
    have htrace : marks loop = trace := hmarks
    have hdeliveries : deliveries loop = delivered := hdelivered
    rw [htrace, hdeliveries]
    exact hverdict
  · have hends := @runAgentGraph_judges _ task [] limit checkpoint resumeAnswer hreached.sound
      hreached.tracks
    obtain ⟨trace, delivered, hmarks, hdelivered, hverdict⟩ := hends.execute oracle
    have htrace : marks graph = trace := hmarks
    have hdeliveries : deliveries graph = delivered := hdelivered
    rw [htrace, hdeliveries]
    exact hverdict

end

-- A critic that rejects a URL and names a gap, with what is found for the gap.
def Sample.rejecting (repair : List RawSearchHit) : Oracle AgentPorts
  | _, .critique _ _ => .ok {
      assessment := "one result is off topic"
      irrelevantUrls := ["https://ex.com/b"]
      gapQuery := some "lean 4 changelog" }
  | past, .search query =>
      if query = "lean 4 changelog" then .ok repair else Sample.oracle past (.search query)
  | past, request => Sample.oracle past request

def Sample.overruling : Oracle AgentPorts := rejecting [hit "https://ex.com/b"]

def Sample.repairing : Oracle AgentPorts := rejecting [hit "https://ex.com/c"]

-- The repair search brings back what the critic dropped.
theorem verdict_overruled :
    letI := Sample.unicode
    ¬ Respected ((runAgentResearch Sample.task).execute Sample.overruling).2 ∧
      ¬ Respected ((runAgentGraph Sample.task 25 none none).execute Sample.overruling).2 := by
  let := Sample.unicode
  have hoverruled : ∀ events, (deliveries events).map (fun delivery =>
      delivery.2.map fun result => result.url) = [["https://ex.com/a", "https://ex.com/b"]] →
      rejectedUrls events = ["https://ex.com/b"] → ¬ Respected events := by
    intro events hevents hrejected hrespected
    have hmem : ["https://ex.com/a", "https://ex.com/b"] ∈ (deliveries events).map (fun delivery =>
        delivery.2.map fun result => result.url) := by simp [hevents]
    obtain ⟨delivery, hdelivery, hurls⟩ := List.mem_map.mp hmem
    have hurl : "https://ex.com/b" ∈ delivery.2.map fun result => result.url := by simp [hurls]
    obtain ⟨result, hresult, hsame⟩ := List.mem_map.mp hurl
    have hnot := hrespected delivery hdelivery result hresult
    rw [hsame, hrejected] at hnot
    exact hnot (List.mem_singleton.mpr rfl)
  exact ⟨hoverruled _ (by decide +kernel) (by decide +kernel),
    hoverruled _ (by decide +kernel) (by decide +kernel)⟩

-- Another URL takes its place.
theorem verdict_respected_repaired :
    letI := Sample.unicode
    Respected ((runAgentResearch Sample.task).execute Sample.repairing).2 ∧
      Respected ((runAgentGraph Sample.task 25 none none).execute Sample.repairing).2 := by
  let := Sample.unicode
  have hrespected := verdict_respected Sample.task 25 .fresh none Sample.repairing
  exact ⟨hrespected.1.mpr fun _ => by decide +kernel, hrespected.2.mpr fun _ => by decide +kernel⟩

end AgentBoilerplate.Agent
