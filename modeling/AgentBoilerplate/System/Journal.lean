import AgentBoilerplate.System.Attempts

namespace AgentBoilerplate.System

open Effects Collections Python

def Contiguous (journal : List Job.AgentStep) : Prop :=
  journal.map Job.AgentStep.seq = (List.range' 1 journal.length).map fun n : Nat => (n : Int)

instance (journal : List Job.AgentStep) : Decidable (Contiguous journal) :=
  inferInstanceAs (Decidable (_ = _))

theorem Contiguous.ordered {journal : List Job.AgentStep} (h : Contiguous journal) :
    FirstWriter.Ordered Job.AgentStep.seq journal := by
  have hseqs : (journal.map Job.AgentStep.seq).Pairwise (· < ·) := by
    rw [h, List.pairwise_map]
    exact (List.pairwise_lt_range' 1).imp fun hlt => Int.ofNat_lt.mpr hlt
  exact List.pairwise_map.mp hseqs

section Backends

variable {setting : Setting} {backend : Backend} {completed : Prop}

-- The stored journal is made of the steps recorded since it was last cleared,
-- and a job that was not completed before has been delivered.
structure Backend.Sound (setting : Setting) (completed : Prop) (backend : Backend) : Prop where
  steps : backend.world.steps.of setting.jobId =
    FirstWriter.journal Job.AgentStep.seq backend.recorded
  completed : ∀ row, backend.world.jobs.get setting.jobId = some row → row.status = .completed →
    backend.delivered = true ∨ completed

-- The operations of a job's history.
inductive Setting.Operates (setting : Setting) : Job.JobOp → Prop
  | start : Setting.Operates setting (.start setting.jobId)
  | complete (results : List Job.SearchResult) :
      Setting.Operates setting (.complete setting.jobId results)
  | recordStep (step : Job.AgentStep) : Setting.Operates setting (.recordStep setting.jobId step)
  | requestInput (question : String) :
      Setting.Operates setting (.requestInput setting.jobId question)
  | recordUsage (usage : Job.JobUsage) :
      Setting.Operates setting (.recordUsage setting.jobId usage)
  | fail (error : String) : Setting.Operates setting (.fail setting.jobId error)
  | answer (userId : Uuid) (text : String) :
      Setting.Operates setting (.answer userId setting.jobId text)
  | failStale : Setting.Operates setting .failStale

theorem succeeded_iff {outcome : Job.JobOutcome} :
    Setting.succeeded outcome = true ↔ outcome = .ingest (.ok ()) := by
  unfold Setting.succeeded
  split <;> simp_all

theorem serve_completed {op : Job.JobOp} (hop : setting.Operates op)
    (h : backend.Sound setting completed) {row : Job.ResearchJob}
    (hrow : (setting.serve op backend).2.world.jobs.get setting.jobId = some row)
    (hcompleted : row.status = .completed) :
    (setting.serve op backend).2.delivered = true ∨ completed := by
  have hlaunches : op.launches = false := by
    cases hop <;> rfl
  rcases Job.serve_completed hlaunches hrow hcompleted with ⟨old, hold, hwas⟩ | ⟨⟨results, rfl⟩, hok⟩
  · rcases h.completed old hold hwas with hdelivered | hbefore
    · refine Or.inl ?_
      cases hop <;> simp [Setting.serve, hdelivered]
    · exact Or.inr hbefore
  · refine Or.inl ?_
    have hsucceeded := succeeded_iff.mpr hok
    simp only [Setting.serve, hsucceeded, Bool.or_true]

theorem serve_sound {op : Job.JobOp} (hop : setting.Operates op)
    (h : backend.Sound setting completed) :
    (setting.serve op backend).2.Sound setting completed := by
  refine ⟨?_, fun row hrow hcompleted => serve_completed hop h hrow hcompleted⟩
  have hkept : ∀ op : Job.JobOp, op.launches = false → (∀ id step, op ≠ .recordStep id step) →
      (∀ userId id text, op ≠ .answer userId id text) →
      (setting.env.serve setting.config backend.world op).2.steps.of setting.jobId =
        FirstWriter.journal Job.AgentStep.seq backend.recorded := by
    intro op hlaunches hrecords hanswers
    have hsteps : (setting.env.serve setting.config backend.world op).2.steps = _ :=
      (Job.op_keepsJournals hlaunches hrecords hanswers).run _
    rw [hsteps, h.steps]
  cases hop with
  | recordStep step =>
      rcases Job.recordStep_serve setting.jobId step with ⟨hok, hsteps⟩ | ⟨hfailed, hsteps⟩
      · have hsucceeded := succeeded_iff.mpr hok
        simp only [Setting.serve]
        rw [if_pos hsucceeded, hsteps, Job.appendStep_of, if_pos rfl, FirstWriter.journal_append,
          h.steps]
      · have hsucceeded : Setting.succeeded _ ≠ true := fun hok => hfailed (succeeded_iff.mp hok)
        simp only [Setting.serve]
        rw [if_neg hsucceeded, hsteps, h.steps]
  | answer userId text =>
      simp only [Setting.serve]
      by_cases hempty : (setting.env.serve setting.config backend.world
          (.answer userId setting.jobId text)).2.steps.of setting.jobId = []
      · rw [if_pos hempty, hempty]
        rfl
      · rw [if_neg hempty]
        rcases Job.answer_serve userId setting.jobId text with hsteps | hsteps
        · rw [hsteps, h.steps]
        · rw [hsteps, Job.remove_of, if_pos rfl] at hempty
          exact absurd rfl hempty
  | start => exact hkept _ rfl (by simp) (by simp)
  | complete results => exact hkept _ rfl (by simp) (by simp)
  | requestInput question => exact hkept _ rfl (by simp) (by simp)
  | recordUsage usage => exact hkept _ rfl (by simp) (by simp)
  | fail error => exact hkept _ rfl (by simp) (by simp)
  | failStale => exact hkept _ rfl (by simp) (by simp)

theorem send_sound {attempt : Attempt} {op : Job.JobOp} {past : List (Event Agent.AgentPorts)}
    (hop : setting.Operates op) (h : backend.Sound setting completed) :
    (setting.send attempt op past backend).2.Sound setting completed := by
  unfold Setting.send
  cases attempt.transit past with
  | lost exc => exact h
  | unanswered exc => exact serve_sound hop h
  | answered => exact serve_sound hop h

theorem handle_sound (attempt : Attempt) (past : List (Event Agent.AgentPorts))
    (request : Agent.AgentCall) (h : backend.Sound setting completed) :
    (setting.handle attempt past request backend).2.Sound setting completed := by
  cases request with
  | markStarted jobId => exact send_sound .start h
  | requestClarification jobId question => exact send_sound (.requestInput question) h
  | reportStep jobId step => exact send_sound (.recordStep _) h
  | deliver jobId results => exact send_sound (.complete _) h
  | reportFailure jobId error => exact send_sound (.fail error) h
  | _ => exact h

end Backends

section Programs

variable [Unicode] {setting : Setting} {checkpoint : Option Agent.Checkpoint}

-- The steps of a thread are numbered from 1, and its due node has its action.
structure SoundThread (setting : Setting) (checkpoint : Agent.Checkpoint) : Prop where
  due : ∀ task : Agent.AgentTask, task.maxSteps = setting.maxSteps → checkpoint.Sound task
  numbered : checkpoint.state.steps.map Agent.StepDict.seq =
    List.range' 1 checkpoint.state.steps.length

omit [Unicode] in
theorem taskSteps_numbered (hthread : ∀ c, checkpoint = some c → SoundThread setting c)
    (resumeAnswer : Option String) :
    (Agent.taskSteps checkpoint resumeAnswer).map Agent.StepDict.seq =
      List.range' 1 (Agent.taskSteps checkpoint resumeAnswer).length := by
  unfold Agent.taskSteps
  cases resumeAnswer with
  | none => rfl
  | some answer =>
      cases checkpoint with
      | none => rfl
      | some checkpoint => exact (hthread checkpoint rfl).numbered

omit [Unicode] in
theorem contiguous_journal {steps : List Agent.StepDict} {trace : List Agent.Mark}
    (hsteps : steps.map Agent.StepDict.seq = List.range' 1 steps.length)
    (h : Agent.Continues steps.length trace) :
    Contiguous (steps.map stepRecord ++ (Agent.reports trace).map serializeStep) := by
  have hseqs : (steps.map stepRecord).map Job.AgentStep.seq =
      (steps.map Agent.StepDict.seq).map fun n : Nat => (n : Int) := by
    rw [List.map_map, List.map_map]
    rfl
  have hreported : ((Agent.reports trace).map serializeStep).map Job.AgentStep.seq =
      ((Agent.reports trace).map Agent.AgentStep.seq).map fun n : Nat => (n : Int) := by
    rw [List.map_map, List.map_map]
    rfl
  unfold Contiguous
  rw [List.map_append, hseqs, hreported, hsteps, h, ← List.map_append, Nat.add_comm,
    List.range'_append_1, List.length_append, List.length_map, List.length_map]

-- The journal of an attempt is contiguous, however the attempt ends, and so are
-- the steps of the thread it leaves.
theorem program_ends (work : Work) (hthread : ∀ c, checkpoint = some c → SoundThread setting c) :
    (setting.program checkpoint work).Ends (fun events left =>
      Contiguous (work.journal checkpoint events) ∧
      ∀ invocation, left = some invocation →
        SoundThread setting ⟨invocation.state, invocation.due⟩) [] := by
  cases work with
  | workflow keyword seenUrls pageDates =>
      refine (Program.ends_bind _ _ _ _).mpr ?_
      refine (Agent.runResearch_quiet _ keyword seenUrls pageDates).mono fun events _ hevents => ?_
      obtain ⟨trace, hmarks, hquiet⟩ := hevents
      refine ⟨?_, fun invocation heq => by cases heq⟩
      have hjournal : Contiguous
          (([] : List Agent.StepDict).map stepRecord ++ (Agent.reports trace).map serializeStep) :=
        contiguous_journal rfl (Agent.continues_quiet hquiet)
      unfold Work.journal
      rw [hmarks]
      exact hjournal
  | loop task =>
      refine (Program.ends_bind _ _ _ _).mpr ?_
      refine Agent.runAgentResearch_continues.mono fun events _ hevents => ?_
      obtain ⟨trace, hmarks, hcontinues⟩ := hevents
      refine ⟨?_, fun invocation heq => by cases heq⟩
      have hjournal : Contiguous
          (([] : List Agent.StepDict).map stepRecord ++ (Agent.reports trace).map serializeStep) :=
        contiguous_journal rfl hcontinues
      unfold Work.journal
      rw [hmarks]
      exact hjournal
  | graph task limit resumeAnswer =>
      let settled : Agent.AgentTask :=
        { task with jobId := setting.jobId.text, maxSteps := setting.maxSteps }
      have hsound : ∀ c, checkpoint = some c → c.Sound settled :=
        fun c heq => (hthread c heq).due settled rfl
      refine (Program.ends_bind _ _ _ _).mpr ?_
      refine ((Agent.runAgentGraph_continues hsound).and (Agent.runAgentGraph_spends hsound)).mono
        fun events run hevents => ?_
      obtain ⟨⟨trace, hmarks, hcontinues, hkept⟩, _, -, hspends⟩ := hevents
      have hsteps := taskSteps_numbered hthread resumeAnswer
      constructor
      · unfold Work.journal
        rw [hmarks]
        exact contiguous_journal hsteps hcontinues
      · intro invocation heq
        obtain ⟨kept, hprefix, hstate⟩ := hkept invocation heq
        constructor
        · intro other hother node hnode
          exact (hspends.sound invocation heq node hnode).congr hother.symm
        · have hseqs : (kept.map Agent.stepToDict).map Agent.StepDict.seq =
              kept.map Agent.AgentStep.seq := by
            rw [List.map_map]
            rfl
          dsimp only
          rw [hstate, List.map_append, hsteps, hseqs, hcontinues.kept hprefix, Nat.add_comm,
            List.range'_append_1, List.length_append, List.length_map]

end Programs

section Histories

variable [Unicode] {setting : Setting} {history : JobHistory}

structure JobHistory.Sound (setting : Setting) (history : JobHistory) : Prop where
  backend : Backend.Sound setting (history.delivered.isSome = true)
    ⟨history.world, history.recorded, false⟩
  thread : ∀ c, history.checkpoint = some c → SoundThread setting c
  delivered : ∀ journal, history.delivered = some journal → Contiguous journal

theorem attempt_sound (attempt : Attempt) (h : history.Sound setting) :
    (setting.attempt history attempt).Sound setting := by
  obtain ⟨hjournal, hthread⟩ := (program_ends attempt.work h.thread).logged
    (setting.handle attempt) ⟨history.world, history.recorded, false⟩
  have hstep : ∀ (request : Agent.AgentCall) (s : Backend × List (Event Agent.AgentPorts)),
      s.1.Sound setting (history.delivered.isSome = true) →
      (Handler.logged (setting.handle attempt) request s).2.1.Sound setting
        (history.delivered.isSome = true) :=
    fun request s hs => handle_sound attempt s.2 request hs
  have hbackend := Program.run_keeps hstep (setting.program history.checkpoint attempt.work)
    (s := (⟨history.world, history.recorded, false⟩, [])) h.backend
  refine ⟨⟨hbackend.steps, fun row hrow hcompleted => Or.inr ?_⟩, fun c hc => ?_,
    fun journal heq => ?_⟩
  · dsimp only [Setting.attempt]
    split
    · rfl
    · rename_i hundelivered
      rcases hbackend.completed row hrow hcompleted with hdelivered | hbefore
      · exact absurd hdelivered hundelivered
      · exact hbefore
  · rcases Option.or_eq_some_iff.mp hc with hleft | ⟨-, hkept⟩
    · obtain ⟨invocation, hinvocation, rfl⟩ := Option.map_eq_some_iff.mp hleft
      exact hthread invocation hinvocation
    · exact h.thread c hkept
  · dsimp only [Setting.attempt] at heq
    split at heq
    · exact Option.some.inj heq ▸ hjournal
    · exact h.delivered journal heq

omit [Unicode] in
theorem operate_sound {op : Job.JobOp} (hop : setting.Operates op)
    (hcomplete : ∀ id results, op ≠ .complete id results) (h : history.Sound setting) :
    (setting.operate history op).Sound setting := by
  have hbackend := serve_sound hop h.backend
  refine ⟨⟨hbackend.steps, fun row hrow hcompleted => Or.inr ?_⟩, h.thread, h.delivered⟩
  rcases hbackend.completed row hrow hcompleted with hdelivered | hbefore
  · cases op with
    | complete id results => exact absurd rfl (hcomplete id results)
    | _ => cases hdelivered
  · exact hbefore

theorem advance_sound (happening : Happening) (h : history.Sound setting) :
    (setting.advance history happening).Sound setting := by
  cases happening with
  | attempt attempt => exact attempt_sound attempt h
  | answer userId text => exact operate_sound (.answer userId text) (by simp) h
  | recordUsage usage => exact operate_sound (.recordUsage usage) (by simp) h
  | fail error => exact operate_sound (.fail error) (by simp) h
  | failStale => exact operate_sound .failStale (by simp) h
  | expire => exact ⟨h.backend, fun c heq => (by cases heq), h.delivered⟩

theorem after_sound {world : Job.JobWorld}
    (hopen : ∀ row, world.jobs.get setting.jobId = some row → row.status ≠ .completed)
    (hsteps : world.steps.of setting.jobId = []) (happenings : List Happening) :
    (setting.after world happenings).Sound setting := by
  have hfold : ∀ history : JobHistory, history.Sound setting →
      (happenings.foldl setting.advance history).Sound setting := by
    induction happenings with
    | nil => exact fun _ h => h
    | cons happening rest ih => exact fun history h => ih _ (advance_sound happening h)
  refine hfold ⟨world, [], none, none⟩ ⟨⟨hsteps, ?_⟩, fun c heq => ?_, fun journal heq => ?_⟩
  · exact fun row hrow hcompleted => absurd hcompleted (hopen row hrow)
  · cases heq
  · cases heq

-- Whatever happens to a job, it is completed only by a delivery. The stored
-- journal is then the delivering attempt's, numbered from 1, exactly when each
-- of its steps was the first that was recorded with its number since the last
-- clear, and none was recorded with another number.
theorem stored_journal {world : Job.JobWorld}
    (hopen : ∀ row, world.jobs.get setting.jobId = some row → row.status ≠ .completed)
    (hsteps : world.steps.of setting.jobId = []) (happenings : List Happening)
    {row : Job.ResearchJob} :
    let last := setting.after world happenings
    last.world.jobs.get setting.jobId = some row → row.status = .completed →
      ∃ journal, last.delivered = some journal ∧
        ((last.world.steps.of setting.jobId = journal ∧
            Contiguous (last.world.steps.of setting.jobId)) ↔
          (∀ step ∈ journal,
            FirstWriter.entryOf Job.AgentStep.seq last.recorded step.seq = some step) ∧
          ∀ step ∈ last.recorded, ∃ own ∈ journal, own.seq = step.seq) := by
  intro last hrow hcompleted
  have hsound : last.Sound setting := after_sound hopen hsteps happenings
  have hdelivered : last.delivered.isSome = true := by
    rcases hsound.backend.completed row hrow hcompleted with hrunning | hdelivered
    · cases hrunning
    · exact hdelivered
  obtain ⟨journal, hjournal⟩ := Option.isSome_iff_exists.mp hdelivered
  have hcontiguous := hsound.delivered journal hjournal
  have hstored : last.world.steps.of setting.jobId =
      FirstWriter.journal Job.AgentStep.seq last.recorded := hsound.backend.steps
  have hsame := @FirstWriter.journal_eq_iff _ _ _ Job.AgentStep.seq last.recorded journal hcontiguous.ordered
  refine ⟨journal, hjournal, ?_⟩
  rw [hstored]
  constructor
  · intro h
    exact hsame.mp h.1
  · intro h
    have heq := hsame.mpr h
    exact ⟨heq, heq ▸ hcontiguous⟩

end Histories

-- A job that searches once, asks, and finishes when it has the answer.
namespace Sample

def setting : Setting where
  config := Job.Sample.config
  env := Job.Sample.env .postgres
  jobId := Job.Sample.job.id
  maxSteps := 2

def policy : Oracle Agent.AgentPorts
  | past, .decide goal steps hits =>
      if steps ≠ [] ∧ goal = Agent.Sample.task.goal then .ok (.ask "4.0 or later?" "ambiguous")
      else Agent.Sample.oracle past (.decide goal steps hits)
  | past, request => Agent.Sample.oracle past request

def attempt (work : Work) : Attempt where
  work := work
  surroundings := policy
  transit _ := .answered
  refused := ⟨"HTTPStatusError", "Client error"⟩

def pausing : List Happening :=
  [.attempt (attempt (.graph Agent.Sample.task 25 none)),
    .answer Job.Sample.job.userId "4.0",
    .attempt (attempt (.graph Agent.Sample.task 25 (some "4.0")))]

def reported (seq : Nat) : Event Agent.AgentPorts → Bool
  | ⟨.reportStep _ step, _⟩ => step.seq = seq
  | _ => false

-- The clarification is known. The first attempt records its steps and loses the
-- backend before it can deliver; the queue hands the job out again.
def informed : List Happening :=
  let work := Work.loop { Agent.Sample.task with clarification := some "4.0" }
  [.attempt { attempt work with
      transit := fun past =>
        if past.any (reported 3) then .lost ⟨"ReadTimeout", "timed out"⟩ else .answered },
    .attempt (attempt work)]

end Sample

-- The answer clears the paused run's steps, and the resumed run numbers on.
theorem journal_truncated :
    letI := Agent.Sample.unicode
    let last := Sample.setting.after Job.Sample.world Sample.pausing
    (last.world.jobs.get Sample.setting.jobId).map Job.ResearchJob.status = some .completed ∧
      last.delivered.map (fun journal => journal.map Job.AgentStep.seq) = some [1, 2, 3] ∧
      (last.world.steps.of Sample.setting.jobId).map Job.AgentStep.seq = [2, 3] := by
  decide +kernel

theorem stored_journal_informed :
    letI := Agent.Sample.unicode
    let last := Sample.setting.after Job.Sample.world Sample.informed
    let stored := last.world.steps.of Sample.setting.jobId
    last.recorded.map Job.AgentStep.seq = [1, 2, 3, 1, 2, 3] ∧
      stored.map Job.AgentStep.seq = [1, 2, 3] ∧ last.delivered = some stored ∧
      (∀ step ∈ stored,
        FirstWriter.entryOf Job.AgentStep.seq last.recorded step.seq = some step) ∧
      ∀ step ∈ last.recorded, ∃ own ∈ stored, own.seq = step.seq := by
  intro last stored
  have hstatus : (last.world.jobs.get Sample.setting.jobId).map Job.ResearchJob.status =
      some .completed := by
    decide +kernel
  obtain ⟨row, hrow, hcompleted⟩ := Option.map_eq_some_iff.mp hstatus
  have hseqs : stored.map Job.AgentStep.seq = [1, 2, 3] := by
    decide +kernel
  have hrecorded : last.recorded.map Job.AgentStep.seq = [1, 2, 3, 1, 2, 3] := by
    decide +kernel
  have hdelivered : last.delivered = some stored := by
    decide +kernel
  obtain ⟨journal, hjournal, hiff⟩ := @stored_journal Agent.Sample.unicode Sample.setting
    Job.Sample.world (by decide) rfl Sample.informed row hrow hcompleted
  have hsame : stored = journal := Option.some.inj (hdelivered.symm.trans hjournal)
  rw [← hsame] at hiff
  exact ⟨hrecorded, hseqs, hdelivered, hiff.mp ⟨rfl, by unfold Contiguous; decide +kernel⟩⟩

end AgentBoilerplate.System
