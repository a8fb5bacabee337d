import AgentBoilerplate.Job.Lemmas

namespace AgentBoilerplate.Job

open Effects Fallible

-- The job that an operation looks up by its identifier.
def JobOp.target : JobOp → Option Uuid
  | .start jobId | .complete jobId _ | .recordStep jobId _ | .requestInput jobId _
  | .recordUsage jobId _ | .fail jobId _ | .answer _ jobId _ => some jobId
  | .launch _ _ _ | .runDue | .failStale => none

-- The calls that an operation can make, as far as they say what it names.
def JobOp.Makes (op : JobOp) : JobCall → Prop
  | .insert _ | .countCreatedSince _ _ => op.launches = true
  | .find jobId => op.target = some jobId
  | .storeResults jobId results => op = .complete jobId results
  | .appendStep jobId step => op = .recordStep jobId step
  | .clearSteps jobId => ∃ userId text, op = .answer userId jobId text
  | .addUsage jobId usage => op = .recordUsage jobId usage
  | .listUnfinishedOlderThan _ => op = .failStale
  | .listDue _ | .markRan _ _ => op = .runDue
  | _ => True

section Parts

variable {ε α : Type} {op : JobOp}

theorem ask_within {request : JobCall} (h : op.Makes request) : (ask request).Within op.Makes :=
  Program.within_call h

theorem findJob_within {jobId : Uuid} (h : op.target = some jobId) :
    Within op.Makes (IngestResults.findJob jobId) := by
  refine Within.bind (within_orFail (ask_within h)) fun found => ?_
  cases found with
  | none => exact within_throw _
  | some job => exact within_pure job

theorem update_within {wrap : PortError → ε} (job : ResearchJob) :
    Within op.Makes (orFail wrap (ask (.update job))) :=
  within_orFail (ask_within trivial)

theorem failNow_within (job : ResearchJob) (error : String) :
    (job.failNow error).Within op.Makes := by
  unfold ResearchJob.failNow
  split
  · trivial
  · exact Program.Within.bind (ask_within trivial) fun _ => trivial

theorem newNow_within (userId : Uuid) (keyword : String) :
    (ResearchJob.newNow userId keyword).Within op.Makes := by
  unfold ResearchJob.newNow
  generalize (trim keyword).length = length
  generalize (trim keyword).isEmpty = empty
  split_ifs
  · trivial
  · trivial
  · exact ⟨trivial, fun _ => ⟨trivial, fun _ => trivial⟩⟩

theorem dispatchOrFail_within (infrastructure : PortError → ε) (dispatchFailed : ε)
    (job : ResearchJob) (seenUrls : List String) :
    Within op.Makes (dispatchOrFail infrastructure dispatchFailed job seenUrls) := by
  refine Within.bind (within_lift (ask_within trivial)) fun dispatched => ?_
  cases dispatched with
  | ok _ => exact within_pure job
  | error e =>
      exact Within.bind (within_lift (failNow_within job _)) fun job =>
        Within.bind (update_within job) fun _ => within_throw _

theorem maybeSendDigest_within (job : ResearchJob) (results : List SearchResult) :
    (IngestResults.maybeSendDigest job results).Within op.Makes := by
  refine (maybeSendDigest_notifies job results).mono fun request hnotifies => ?_
  cases request with
  | findRecurring _ | listChannels _ | sendDigest _ _ | notify _ _ => trivial
  | _ => cases hnotifies

end Parts

theorem complete_within (jobId : Uuid) (results : List SearchResult) :
    Within (JobOp.complete jobId results).Makes (IngestResults.complete jobId results) := by
  refine Within.bind (findJob_within rfl) fun job =>
    Within.bind (within_orFail (ask_within rfl)) fun _ => ?_
  have hcomplete : job.completeNow.Within (JobOp.complete jobId results).Makes :=
    Program.Within.bind (ask_within trivial) fun _ => trivial
  refine Within.bind (within_lift hcomplete) fun job => ?_
  exact Within.bind (update_within job) fun _ => within_lift (maybeSendDigest_within job results)

theorem requestInput_within (jobId : Uuid) (question : String) :
    Within (JobOp.requestInput jobId question).Makes (IngestResults.requestInput jobId question) := by
  refine Within.bind (findJob_within rfl) fun job => ?_
  rcases job.requestInput question with ⟨e | _, asked⟩
  · exact within_throw _
  · exact update_within asked

theorem answerClarification_within (userId jobId : Uuid) (text : String) :
    Within (JobOp.answer userId jobId text).Makes (answerClarification userId jobId text) := by
  refine Within.bind (within_orFail (ask_within rfl)) fun found => ?_
  cases found.filter fun job => job.userId = userId with
  | none => exact within_throw _
  | some job =>
      dsimp only
      rcases job.provideAnswer text with ⟨e | _, answered⟩
      · exact within_throw _
      refine Within.bind (within_orFail (ask_within ⟨userId, text, rfl⟩)) fun _ =>
        Within.bind (update_within answered) fun _ => ?_
      cases answered.recurringSearchId with
      | none => exact dispatchOrFail_within _ _ answered []
      | some rsId =>
          exact Within.bind (within_orFail (ask_within trivial)) fun seenUrls =>
            dispatchOrFail_within _ _ answered seenUrls

theorem reap_within (timeoutSecs : Nat) (stale : List ResearchJob) (reaped : Nat) :
    Within JobOp.failStale.Makes (FailStaleJobs.reap timeoutSecs stale reaped) := by
  induction stale generalizing reaped with
  | nil => exact within_pure reaped
  | cons job stale ih =>
      exact Within.bind (within_lift (failNow_within job _)) fun job =>
        Within.bind (update_within job) fun _ => ih _

theorem failStale_within (timeoutSecs : Nat) :
    Within JobOp.failStale.Makes (FailStaleJobs.execute timeoutSecs) := by
  refine Within.bind (within_lift (ask_within trivial)) fun now => ?_
  split
  · exact within_throw _
  · exact Within.bind (within_orFail (ask_within rfl)) fun stale => reap_within timeoutSecs stale 0

theorem launchSearch_within (dailyQuota : Nat) (userId : Uuid) (keyword : String) (mode : JobMode) :
    Within (JobOp.launch userId keyword mode).Makes
      (launchSearch dailyQuota userId keyword mode) := by
  refine Within.bind (within_lift (ask_within trivial)) fun now =>
    Within.bind (within_orFail (ask_within rfl)) fun used => ?_
  split
  · exact within_throw _
  · exact Within.bind (within_orFail (newNow_within userId keyword)) fun job =>
      Within.bind (within_orFail (ask_within rfl)) fun _ => dispatchOrFail_within _ _ _ _

theorem runOne_within (dailyQuota : Nat) (now : Int) (search : RecurringSearch) :
    Within JobOp.runDue.Makes (RunDueSearches.runOne dailyQuota now search) := by
  refine Within.bind (within_orFail (ask_within rfl)) fun used => ?_
  split
  · exact Within.bind (within_orFail (ask_within rfl)) fun _ => within_pure 0
  refine Within.bind (within_orFail (ask_within trivial)) fun seenUrls =>
    Within.bind (within_orFail (newNow_within _ _)) fun job =>
      Within.bind (within_orFail (ask_within rfl)) fun _ => ?_
  refine Within.bind (within_lift (ask_within trivial)) fun dispatched => ?_
  cases dispatched with
  | ok _ => exact Within.bind (within_orFail (ask_within rfl)) fun _ => within_pure 1
  | error e =>
      exact Within.bind (within_lift (failNow_within _ _)) fun job =>
        Within.bind (update_within job) fun _ =>
          Within.bind (within_orFail (ask_within rfl)) fun _ => within_pure 0

theorem runAll_within (dailyQuota : Nat) (now : Int) (due : List RecurringSearch) (launched : Nat) :
    Within JobOp.runDue.Makes (RunDueSearches.runAll dailyQuota now due launched) := by
  induction due generalizing launched with
  | nil => exact within_pure launched
  | cons search due ih => exact Within.bind (runOne_within dailyQuota now search) fun more => ih _

theorem runDue_within (dailyQuota : Nat) :
    Within JobOp.runDue.Makes (RunDueSearches.execute dailyQuota) :=
  Within.bind (within_lift (ask_within trivial)) fun now =>
    Within.bind (within_orFail (ask_within rfl)) fun due => runAll_within dailyQuota now due 0

theorem op_within (config : JobConfig) (op : JobOp) : (op.program config).Within op.Makes := by
  have hpure : ∀ {α : Type} {p : Program JobPorts α} {f : α → JobOutcome}, p.Within op.Makes →
      (p >>= fun value => Program.done (f value)).Within op.Makes :=
    fun hp => hp.bind fun _ => trivial
  cases op with
  | launch userId keyword mode => exact hpure (launchSearch_within _ userId keyword mode)
  | runDue => exact hpure (runDue_within _)
  | start jobId => exact hpure (Within.bind (findJob_within rfl) fun job => update_within job.start)
  | complete jobId results => exact hpure (complete_within jobId results)
  | recordStep jobId step =>
      exact hpure (Within.bind (findJob_within rfl) fun _ => within_orFail (ask_within rfl))
  | requestInput jobId question => exact hpure (requestInput_within jobId question)
  | recordUsage jobId usage =>
      exact hpure (Within.bind (findJob_within rfl) fun _ => within_orFail (ask_within rfl))
  | fail jobId error =>
      exact hpure (Within.bind (findJob_within rfl) fun job =>
        Within.bind (within_lift (failNow_within job error)) fun job => update_within job)
  | answer userId jobId text => exact hpure (answerClarification_within userId jobId text)
  | failStale => exact hpure (failStale_within _)

end AgentBoilerplate.Job
