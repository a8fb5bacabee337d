import AgentBoilerplate.Agent.Budgets

namespace AgentBoilerplate.Agent

open Python Effects

-- The steps that a trace reports, in order.
def reports (trace : List Mark) : List AgentStep :=
  trace.filterMap fun
    | .recorded step => some step
    | _ => none

theorem reports_append (trace trace' : List Mark) :
    reports (trace ++ trace') = reports trace ++ reports trace' := List.filterMap_append

-- The reported steps are numbered on from the steps before them.
def Continues (recorded : Nat) (trace : List Mark) : Prop :=
  (reports trace).map AgentStep.seq = List.range' (recorded + 1) (reports trace).length

theorem Continues.append {recorded : Nat} {trace trace' : List Mark} (h : Continues recorded trace)
    (h' : Continues (recorded + (reports trace).length) trace') :
    Continues recorded (trace ++ trace') := by
  unfold Continues at h h' ⊢
  rw [Nat.add_right_comm] at h'
  rw [reports_append, List.map_append, h, h', List.length_append, List.range'_append_1]

-- So are the first of them.
theorem Continues.kept {recorded : Nat} {trace : List Mark} (h : Continues recorded trace)
    {kept : List AgentStep} (hkept : kept <+: reports trace) :
    kept.map AgentStep.seq = List.range' (recorded + 1) kept.length := by
  obtain ⟨rest, hrest⟩ := hkept
  unfold Continues at h
  rw [← hrest, List.map_append, List.length_append, ← List.range'_append_1] at h
  exact (List.append_inj h (by simp)).1

theorem continues_nil (recorded : Nat) : Continues recorded [] := rfl

theorem continues_quiet {recorded : Nat} {trace : List Mark} (h : reports trace = []) :
    Continues recorded trace := by
  unfold Continues
  rw [h]
  rfl

theorem continues_step {recorded : Nat} {trace : List Mark} {step : AgentStep}
    (h : reports trace = [step]) (hseq : step.seq = recorded + 1) : Continues recorded trace := by
  unfold Continues
  rw [h]
  exact congrArg (· :: []) hseq

section

variable [Unicode] {task : AgentTask} {past : List (Event AgentPorts)} {state : GraphState}
  {collected : List String} {recorded : Nat} {trace : List Mark}

theorem Searches.continues
    {outcome : Except PyException (List RawSearchHit × List String × AgentStep)}
    (h : Searches collected recorded trace outcome) : Continues recorded trace := by
  cases h with
  | failed => exact continues_quiet rfl
  | found hnew hkeys hseq => exact continues_step rfl hseq

theorem Searches.reports {found : List RawSearchHit × List String × AgentStep}
    (h : Searches collected recorded trace (.ok found)) : reports trace = [found.2.2] := by
  cases h with
  | found => rfl

theorem Reviews.continues {repairs : Prop} {hits : List RawSearchHit}
    {outcome : Except PyException (List RawSearchHit × List AgentStep)}
    (h : Reviews repairs hits recorded trace outcome) : Continues recorded trace := by
  cases h with
  | skipped | failed => exact continues_quiet rfl
  | reviewed hseq => exact continues_step rfl hseq
  | repairFailed _ hseq => exact continues_step rfl hseq
  | repaired _ hseq _ _ _ hrepair =>
      unfold Continues
      simp only [Agent.reports, List.filterMap_cons, List.filterMap_nil, List.map_cons, hseq,
        hrepair]
      rfl

theorem Reviews.reports {repairs : Prop} {hits : List RawSearchHit}
    {reviewed : List RawSearchHit × List AgentStep}
    (h : Reviews repairs hits recorded trace (.ok reviewed)) : reports trace = reviewed.2 := by
  cases h with
  | skipped | reviewed | repaired => rfl

-- The steps that a node adds to the state are those it reports; one that
-- raises keeps none of them.
def AddsReports (state : GraphState) (trace : List Mark) :
    Except PyException (NodeResult GraphState String) → Prop
  | .ok (.update next) => next.steps = state.steps ++ (reports trace).map stepToDict
  | .ok (.interrupt _) => reports trace = []
  | .error _ => True

theorem node_continues (node : Node) (resume : Option String) (hdue : Due task state node) :
    ((buildGraph task).node node resume state).run.Ends (fun events result => ∃ trace,
      marks events = marks past ++ trace ∧ Continues state.steps.length trace ∧
        AddsReports state trace result) past := by
  cases node with
  | decide =>
      refine (runDecide_ends state).mono fun events result hresult => ?_
      obtain ⟨trace, hevents, hcases⟩ := hresult
      have hquiet : reports trace = [] := by
        rcases hcases with ⟨rfl, -⟩ | ⟨rfl, -, -⟩ <;> rfl
      have hkept : ∀ value, result = .ok value →
          ∃ action, value = .update { state with next := actionToDict action } := by
        intro value hvalue
        rcases hcases with ⟨-, hfinish⟩ | ⟨-, -, hupdate⟩
        · obtain ⟨reason, hfinish⟩ := hfinish value hvalue
          exact ⟨_, hfinish⟩
        · obtain ⟨action, -, hupdate⟩ := hupdate value hvalue
          exact ⟨action, hupdate⟩
      refine ⟨trace, hevents, continues_quiet hquiet, ?_⟩
      cases result with
      | error e => trivial
      | ok value =>
          obtain ⟨action, rfl⟩ := hkept value rfl
          simp only [AddsReports, hquiet, List.map_nil, List.append_nil]
  | search =>
      obtain ⟨-, query, reason, hnext⟩ := hdue
      have hstate : state = { state with next := actionToDict (.search query reason) } := by
        rw [← hnext]
      rw [hstate]
      refine (runSearch_ends state query reason).mono fun events result hresult => ?_
      obtain ⟨trace, outcome, hevents, hsearches, rfl⟩ := hresult
      refine ⟨trace, hevents, hsearches.continues, ?_⟩
      cases outcome with
      | error e => trivial
      | ok found =>
          simp only [AddsReports, Except.map, GraphState.searched, hsearches.reports,
            List.map_singleton]
  | ask =>
      obtain ⟨question, reason, hnext⟩ := hdue
      have hquestion : state.next.get "question" = .ok question := by
        rw [hnext]
        rfl
      change (Node.runAsk resume state).run.Ends _ past
      unfold Node.runAsk
      rw [hquestion, Fallible.orRaise_ok_bind]
      cases resume with
      | none => exact ⟨[], (List.append_nil _).symm, continues_nil _, rfl⟩
      | some answer =>
          exact ⟨[], (List.append_nil _).symm, continues_nil _, (List.append_nil _).symm⟩
  | finalize =>
      obtain ⟨reason, hnext⟩ := hdue
      have hstate : state = { state with next := actionToDict (.finish reason) } := by
        rw [← hnext]
      rw [hstate]
      refine (runFinalize_ends state reason).mono fun events result hresult => ?_
      obtain ⟨step, hseq, hkind, hevents, rfl⟩ := hresult
      exact ⟨_, hevents, continues_step rfl hseq, rfl⟩
  | critique =>
      refine (runCritique_ends state).mono fun events result hresult => ?_
      obtain ⟨trace, outcome, hevents, hreviews, rfl⟩ := hresult
      refine ⟨trace, hevents, hreviews.continues, ?_⟩
      cases outcome with
      | error e => trivial
      | ok reviewed =>
          simp only [AddsReports, Except.map, GraphState.reviewed, hreviews.reports]

-- What a run of the graph reports, and which of it the checkpoint keeps.
structure Journals (steps : List StepDict) (trace : List Mark) (invocation : GraphInvocation) :
    Prop where
  continues : Continues steps.length trace
  kept : ∃ kept, kept <+: reports trace ∧
    invocation.state.steps = steps ++ kept.map stepToDict
  whole : (∀ e, invocation.ending ≠ .raised e) →
    invocation.state.steps = steps ++ (reports trace).map stepToDict

theorem invoke_journals {node : Node} {resume : Option String} {limit : Nat}
    (executed : List Node) (hdue : Due task state node) :
    ((buildGraph task).invoke limit executed node resume state).Ends
      (fun events invocation => ∃ trace, marks events = marks past ++ trace ∧
        Journals state.steps trace invocation) past := by
  induction limit generalizing executed node resume state past with
  | zero =>
      refine ⟨[], (List.append_nil _).symm, continues_nil _, ⟨[], List.nil_prefix, ?_⟩, fun _ => ?_⟩
      · exact (List.append_nil _).symm
      · exact (List.append_nil _).symm
  | succ limit ih =>
      unfold StateGraph.invoke
      rw [Program.ends_bind]
      refine ((node_staysWithin node resume hdue).and (node_continues node resume hdue)).mono
        fun events result hresult => ?_
      obtain ⟨⟨trace, hevents, hwithin⟩, trace', hevents', hcontinues, hadds⟩ := hresult
      have hsame : trace' = trace := List.append_cancel_left (hevents'.symm.trans hevents)
      subst hsame
      cases result with
      | error e =>
          refine ⟨trace', hevents', hcontinues, ⟨[], List.nil_prefix, ?_⟩, fun hending => ?_⟩
          · exact (List.append_nil _).symm
          · exact absurd rfl (hending e)
      | ok value =>
          cases value with
          | interrupt question =>
              have hquiet : reports trace' = [] := hadds
              refine ⟨trace', hevents', hcontinues, ⟨[], List.nil_prefix, ?_⟩, fun _ => ?_⟩
              · exact (List.append_nil _).symm
              · rw [hquiet]
                exact (List.append_nil _).symm
          | update state' =>
              have hadded : state'.steps = state.steps ++ (reports trace').map stepToDict := hadds
              obtain ⟨next, hnext, hwithin⟩ := hwithin
              dsimp only
              rw [hnext]
              cases next with
              | none =>
                  exact ⟨trace', hevents', hcontinues, ⟨_, List.prefix_refl _, hadded⟩, fun _ => hadded⟩
              | some node' =>
                  refine (ih _ hwithin.1).mono fun later invocation hlater => ?_
                  obtain ⟨rest, hrest, hjournals⟩ := hlater
                  have hlength : state'.steps.length =
                      state.steps.length + (reports trace').length := by
                    rw [hadded, List.length_append, List.length_map]
                  have hcontinues' := hjournals.continues
                  rw [hlength] at hcontinues'
                  obtain ⟨kept, hprefix, hkept⟩ := hjournals.kept
                  refine ⟨trace' ++ rest, ?_, hcontinues.append hcontinues',
                    ⟨reports trace' ++ kept, ?_, ?_⟩, fun hending => ?_⟩
                  · rw [hrest, hevents', List.append_assoc]
                  · rw [reports_append]
                    exact (List.prefix_append_right_inj _).mpr hprefix
                  · rw [hkept, hadded, List.map_append, List.append_assoc]
                  · rw [hjournals.whole hending, hadded, reports_append, List.map_append,
                      List.append_assoc]

-- The steps of the thread that a task resumes.
def taskSteps (checkpoint : Option Checkpoint) (resumeAnswer : Option String) : List StepDict :=
  match resumeAnswer, checkpoint with
  | some _, some ⟨state, _⟩ => state.steps
  | _, _ => []

theorem startGraph_journals {limit : Nat} {checkpoint : Option Checkpoint}
    {resumeAnswer : Option String} (hsound : ∀ c, checkpoint = some c → c.Sound task) :
    (startGraph task limit checkpoint resumeAnswer).Ends
      (fun events invocation => ∃ trace, marks events = marks past ++ trace ∧
        Journals (taskSteps checkpoint resumeAnswer) trace invocation) past := by
  have hdecide : Due task (initialState task resumeAnswer) .decide := trivial
  unfold startGraph taskSteps
  cases resumeAnswer with
  | none => exact invoke_journals [] hdecide
  | some answer =>
      cases checkpoint with
      | none => exact invoke_journals [] hdecide
      | some checkpoint =>
          obtain ⟨state, due⟩ := checkpoint
          cases due with
          | some due => exact invoke_journals [] (hsound _ rfl due rfl)
          | none =>
              refine ⟨[], (List.append_nil _).symm, continues_nil _, ⟨[], List.nil_prefix, ?_⟩, ?_⟩
              · exact (List.append_nil _).symm
              · exact fun _ => (List.append_nil _).symm

-- What a task reports goes on from the thread it resumes, and the checkpoint it
-- leaves keeps a part of it.
theorem runAgentGraph_continues {limit : Nat} {checkpoint : Option Checkpoint}
    {resumeAnswer : Option String} (hsound : ∀ c, checkpoint = some c → c.Sound task) :
    (runAgentGraph task limit checkpoint resumeAnswer).Ends
      (fun events run => ∃ trace, marks events = marks past ++ trace ∧
        Continues (taskSteps checkpoint resumeAnswer).length trace ∧
        ∀ invocation, run.invocation = some invocation → ∃ kept, kept <+: reports trace ∧
          invocation.state.steps = taskSteps checkpoint resumeAnswer ++ kept.map stepToDict)
      past := by
  have hstarted : ∀ answer, marks (past ++ [⟨.markStarted task.jobId, answer⟩]) = marks past :=
    fun answer => marks_unmarked past rfl
  unfold runAgentGraph
  intro answer
  cases answer with
  | error e =>
      intro reported
      refine ⟨[], ?_, continues_nil _, fun invocation heq => ?_⟩
      · rw [marks_unmarked _ rfl, hstarted, List.append_nil]
      · cases heq
  | ok _ =>
      change (startGraph task limit checkpoint resumeAnswer >>= _).Ends _ _
      rw [Program.ends_bind]
      refine (startGraph_journals hsound).mono fun events invocation h => ?_
      obtain ⟨trace, hevents, hjournals⟩ := h
      rw [hstarted] at hevents
      unfold reportingFailure
      rw [bind_assoc, Program.ends_bind]
      refine (settle_ends task limit invocation).mono fun settled result hsettled => ?_
      rw [Program.ends_bind]
      refine (reportResult_ends task.jobId result).mono fun last value hlast => ?_
      have hrest : ∃ rest, marks settled = marks events ++ rest ∧
          Continues ((taskSteps checkpoint resumeAnswer).length + (reports trace).length) rest := by
        rcases hsettled with hsame | ⟨step, hseq, -, hfinished, hreported⟩ | ⟨-, hasked⟩
        · exact ⟨[], by rw [hsame, List.append_nil], continues_nil _⟩
        · refine ⟨_, hreported, continues_step rfl ?_⟩
          rw [hseq, hjournals.whole (by simp [hfinished]), List.length_append, List.length_map]
        · exact ⟨_, hasked, continues_quiet rfl⟩
      obtain ⟨rest, hrest, hcontinues⟩ := hrest
      refine ⟨trace ++ rest, ?_, hjournals.continues.append hcontinues, fun other heq => ?_⟩
      · rw [hlast.2, hrest, hevents, List.append_assoc]
      · cases heq
        obtain ⟨kept, hprefix, hkept⟩ := hjournals.kept
        refine ⟨kept, ?_, hkept⟩
        rw [reports_append]
        exact hprefix.trans (List.prefix_append _ _)

-- The steps that the loop holds are those it reports.
def LoopReports (loop : LoopState) (trace : List Mark) :
    Except PyException (Option LoopState) → Prop
  | .ok (some later) => later.steps = loop.steps ++ reports trace ∧ Numbered later.steps
  | _ => True

theorem decisionLoop_continues (turns : Nat) (loop : LoopState) (hnumbered : Numbered loop.steps)
    (hturns : loop.steps.length + turns = task.maxSteps) :
    (decisionLoop task (List.range' (loop.steps.length + 1) turns) loop).run.Ends
      (fun events result => ∃ trace, marks events = marks past ++ trace ∧
        Continues loop.steps.length trace ∧ LoopReports loop trace result) past := by
  induction turns generalizing loop past with
  | zero =>
      have hseq : task.maxSteps + 1 = loop.steps.length + 1 := by omega
      refine loopRecord_ends_bind task _ _ fun events hevents => ?_
      exact ⟨_, hevents, continues_step rfl hseq, rfl, hnumbered.append hseq⟩
  | succ turns ih =>
      rw [List.range'_succ, decisionLoop_cons, ExceptT.run_bind, Program.ends_bind]
      refine (chooseAction_ends loop).mono fun events result hevents => ?_
      have hchosen : ∃ trace, marks events = marks past ++ trace ∧ reports trace = [] := by
        rcases hevents with hfree | hdecided
        · exact ⟨[], by rw [hfree, List.append_nil], rfl⟩
        · exact ⟨_, hdecided, rfl⟩
      obtain ⟨trace, htrace, hquiet⟩ := hchosen
      have hafter : ∀ {later : List (Event AgentPorts)} {rest : List Mark}
          {result : Except PyException (Option LoopState)},
          marks later = marks events ++ rest → Continues loop.steps.length rest →
          LoopReports loop rest result → ∃ trace, marks later = marks past ++ trace ∧
            Continues loop.steps.length trace ∧ LoopReports loop trace result := by
        intro later rest result hlater hcontinues hreports
        have hsame : reports (trace ++ rest) = reports rest := by
          rw [reports_append, hquiet, List.nil_append]
        refine ⟨trace ++ rest, ?_, ?_, ?_⟩
        · rw [hlater, htrace, List.append_assoc]
        · unfold Continues
          rw [hsame]
          exact hcontinues
        · match result with
          | .ok (some _) => exact ⟨hsame ▸ hreports.1, hreports.2⟩
          | .ok none | .error _ => trivial
      cases result with
      | error e => exact hafter (List.append_nil _).symm (continues_nil _) trivial
      | ok action =>
          cases action with
          | ask question reason =>
              dsimp only
              rw [Fallible.run_raising_bind]
              intro answer
              have hmark : mark ⟨.requestClarification task.jobId question, answer⟩ =
                some .asked := rfl
              have hasked := marks_marked events hmark
              cases answer <;> exact hafter hasked (continues_quiet rfl) trivial
          | finish reason =>
              refine loopRecord_ends_bind task _ _ fun later hlater => ?_
              exact hafter hlater (continues_step rfl rfl) ⟨rfl, hnumbered.append rfl⟩
          | search query reason =>
              dsimp only
              rw [ExceptT.run_bind, Program.ends_bind]
              refine (searchStep_ends loop query reason).mono fun later result hresult => ?_
              obtain ⟨found, outcome, hlater, hsearched, rfl⟩ := hresult
              cases hsearched with
              | failed => exact hafter hlater (continues_quiet rfl) trivial
              | @found found new keys step hnew hkeys hseq hkind hcount =>
                  have hlength : (loop.searched new keys step).steps.length =
                      loop.steps.length + 1 := List.length_append
                  have hrest := @ih later (loop.searched new keys step) (hnumbered.append hseq)
                    (by omega)
                  rw [hlength] at hrest
                  refine hrest.mono fun last result hlast => ?_
                  obtain ⟨rest, hmarks, hcontinues, hreports⟩ := hlast
                  rw [hlater, List.append_assoc] at hmarks
                  have hfirst : Continues loop.steps.length
                      [.searched (.ok found), .recorded step] := continues_step rfl hseq
                  refine hafter hmarks (hfirst.append hcontinues) ?_
                  match result with
                  | .ok (some later) =>
                      refine ⟨?_, hreports.2⟩
                      rw [hreports.1, reports_append]
                      exact List.append_assoc loop.steps [step] (reports rest)
                  | .ok none | .error _ => trivial

theorem conclude_continues (loop : LoopState) (hnumbered : Numbered loop.steps) :
    (conclude task loop).run.Ends (fun events _ => ∃ trace, marks events = marks past ++ trace ∧
      Continues loop.steps.length trace) past := by
  unfold conclude
  rw [ExceptT.run_bind, Program.ends_bind]
  refine (review_ends loop hnumbered).mono fun events result hresult => ?_
  obtain ⟨trace, outcome, hevents, hreviews, rfl⟩ := hresult
  cases outcome with
  | error e => exact ⟨trace, hevents, hreviews.continues⟩
  | ok reviewed =>
      have hsteps : (loop.reviewed reviewed.1 reviewed.2).steps = loop.steps ++ reports trace := by
        rw [hreviews.reports]
        rfl
      have hlater : Numbered (loop.reviewed reviewed.1 reviewed.2).steps := by
        unfold Numbered
        rw [hsteps, List.map_append, hreviews.continues, hnumbered, List.length_append,
          Nat.add_comm loop.steps.length 1, List.range'_append_1]
      dsimp only [Except.map]
      rw [map_eq_pure_bind, ExceptT.run_bind, Program.ends_bind]
      refine (deliver_ends task _ _).mono fun later result hdelivered => ?_
      have hreported : ∃ trace, marks later = marks past ++ trace ∧
          Continues loop.steps.length trace := by
        rcases hdelivered with hsame | ⟨step, hseq, -, hreport⟩
        · exact ⟨trace, hsame.trans hevents, hreviews.continues⟩
        · rw [hevents, List.append_assoc] at hreport
          rw [hlater.nextSeq, hsteps, List.length_append] at hseq
          exact ⟨_, hreport, hreviews.continues.append (continues_step rfl hseq)⟩
      cases result <;> exact hreported

theorem runAgentResearch_continues :
    (runAgentResearch task).Ends (fun events _ => ∃ trace, marks events = marks past ++ trace ∧
      Continues 0 trace) past := by
  unfold runAgentResearch reportingFailure
  rw [Program.ends_bind]
  have hrun : (agentResearch task).run.Ends (fun events _ => ∃ trace,
      marks events = marks past ++ trace ∧ Continues 0 trace) past := by
    unfold agentResearch
    have hstarted : Silent (raising (ask (.markStarted task.jobId))) := silent_call fun _ => rfl
    refine silent_ends_bind hstarted ?_ fun _ events hevents => ?_
    · intro e events hevents
      exact ⟨[], by rw [hevents, List.append_nil], continues_nil 0⟩
    · rw [ExceptT.run_bind, Program.ends_bind]
      have hloop := @decisionLoop_continues _ task events task.maxSteps ⟨[], [], []⟩ rfl
        (Nat.zero_add _)
      refine hloop.mono fun later result hresult => ?_
      obtain ⟨trace, hlater, hcontinues, hreports⟩ := hresult
      rw [hevents] at hlater
      match result with
      | .error e => exact ⟨trace, hlater, hcontinues⟩
      | .ok none => exact ⟨trace, hlater, hcontinues⟩
      | .ok (some loop) =>
          refine (conclude_continues loop hreports.2).mono fun last result hlast => ?_
          obtain ⟨rest, hmarks, hrest⟩ := hlast
          rw [hreports.1] at hrest
          rw [hlater, List.append_assoc] at hmarks
          exact ⟨_, hmarks, hcontinues.append (by simpa using hrest)⟩
  refine hrun.mono fun events result hevents => ?_
  obtain ⟨trace, hmarks, hcontinues⟩ := hevents
  refine (reportResult_ends task.jobId result).mono fun later value hlater => ?_
  exact ⟨trace, hlater.2.trans hmarks, hcontinues⟩

-- The workflow mode keeps no journal.
theorem runResearch_quiet (jobId keyword : String) (seenUrls : Option (List String))
    (pageDates : Bool) :
    (runResearch jobId keyword seenUrls pageDates).Ends
      (fun events _ => ∃ trace, marks events = marks past ++ trace ∧ reports trace = []) past := by
  have hdelivered : ∀ results, Silent (do
      raising (ask (.deliver jobId results))
      return results : AgentRun (List ResearchResult)) := fun results =>
    silent_bind (silent_call fun _ => rfl) fun _ => silent_pure results
  have hresolved : ∀ hits, Silent (sortByPublicationDate <$> resolveHits pageDates hits) := by
    intro hits
    rw [map_eq_pure_bind]
    exact silent_bind (resolveHits_silent _ _) fun _ => silent_pure _
  have hstarted : Silent (raising (ask (.markStarted jobId))) := silent_call fun _ => rfl
  unfold runResearch reportingFailure
  rw [Program.ends_bind]
  have hrun : (research jobId keyword seenUrls pageDates).run.Ends (fun events _ => ∃ trace,
      marks events = marks past ++ trace ∧ reports trace = []) past := by
    refine silent_ends_bind hstarted ?_ fun _ events hevents => search_ends_bind keyword ?_ ?_
    · intro e events hevents
      exact ⟨[], by rw [hevents, List.append_nil], rfl⟩
    · intro e later hlater
      rw [hevents] at hlater
      exact ⟨_, hlater, rfl⟩
    · intro found later hlater
      rw [hevents] at hlater
      have hsilent : ∀ rest : AgentRun (List ResearchResult), Silent rest →
          rest.run.Ends (fun events _ => ∃ trace, marks events = marks past ++ trace ∧
            reports trace = []) later := fun rest hrest =>
        (hrest later).mono fun last result hlast =>
          ⟨[.searched (.ok found)], hlast.trans hlater, rfl⟩
      refine hsilent _ (silent_bind (silent_orRaise _) fun hits =>
        silent_bind (hresolved hits) fun results => ?_)
      cases seenUrls with
      | none => exact silent_bind (silent_pure results) hdelivered
      | some seenUrls => exact silent_bind (silent_orRaise _) hdelivered
  refine hrun.mono fun events result hevents => ?_
  obtain ⟨trace, hmarks, hquiet⟩ := hevents
  refine (reportResult_ends jobId result).mono fun later value hlater => ?_
  exact ⟨trace, hlater.2.trans hmarks, hquiet⟩

end

end AgentBoilerplate.Agent
