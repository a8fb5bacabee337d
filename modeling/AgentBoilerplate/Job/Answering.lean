import AgentBoilerplate.Job.Sequential

namespace AgentBoilerplate.Job

open Effects Collections

-- The stored job and its journal are as they were.
def Intact (jobId : Uuid) (world later : JobWorld) : Prop :=
  later.jobs.get jobId = world.jobs.get jobId ∧ later.steps.of jobId = world.steps.of jobId

def FailedRow (jobId : Uuid) (world : JobWorld) : Prop :=
  ∃ row, world.jobs.get jobId = some row ∧ row.status = .failed

-- A refused or failed answer changes nothing, or fails the job.
def AllOrNothing (jobId : Uuid) (world : JobWorld) {α : Type} (result : Except AnswerError α)
    (later : JobWorld) : Prop :=
  ∀ e, result = .error e → Intact jobId world later ∨ FailedRow jobId later

-- The failures that a stored answer recovers from, by the number of calls that
-- come before the one that fails: after the lookup it clears the journal, stores
-- the answer, reads the URLs of a recurring search, dispatches, and stores a
-- failed dispatch.
def RecoversFrom (env : JobEnv) (world : JobWorld) (jobId : Uuid)
    (recurringSearchId : Option Uuid) : Prop :=
  env.fault (world.calls + 1) = none →
    (env.fault (world.calls + 2) ≠ none → world.steps.of jobId = []) ∧
      (env.fault (world.calls + 2) = none →
        match recurringSearchId with
        | some _ => env.fault (world.calls + 3) = none ∧
            (env.fault (world.calls + 4) = none ∨ env.fault (world.calls + 5) = none)
        | none => env.fault (world.calls + 3) = none ∨ env.fault (world.calls + 4) = none)

def Recovers (env : JobEnv) (world : JobWorld) (userId jobId : Uuid) (answer : String) : Prop :=
  ∀ row answered, world.jobs.get jobId = some row → row.userId = userId →
    row.provideAnswer answer = (.ok (), answered) → env.fault world.calls = none →
    RecoversFrom env world jobId row.recurringSearchId

-- The calls of an answer that the job has accepted.
def storeAnswer (jobId : Uuid) (answered : ResearchJob) : UseCase AnswerError ResearchJob := do
  orFail .infrastructure (ask (.clearSteps jobId))
  orFail .infrastructure (ask (.update answered))
  match answered.recurringSearchId with
  | some rsId =>
      let seenUrls ← orFail .infrastructure (ask (.recentUrlsForRecurring rsId 200))
      dispatchOrFail .infrastructure .dispatchFailed answered seenUrls
  | none => dispatchOrFail .infrastructure .dispatchFailed answered []

section AllOrNothing

variable {env : JobEnv} {config : JobConfig} {world : JobWorld} {userId jobId : Uuid}
  {answer : String}

theorem PerJob.of_remove {α : Type} (entries : PerJob α) (jobId : Uuid) :
    PerJob.of (entries.remove jobId) jobId = [] := by
  unfold PerJob.of
  rw [Table.get_remove, if_pos rfl]
  rfl

theorem ResearchJob.provideAnswer_ok {row answered : ResearchJob}
    (h : row.provideAnswer answer = (.ok (), answered)) :
    row.status = .awaitingInput ∧
      answered = { row with answer := some (trim answer), status := .pending } := by
  unfold ResearchJob.provideAnswer at h
  dsimp only at h
  split at h
  · cases h
  · split at h
    · cases h
    · split at h
      · cases h
      · rename_i hstatus
        cases h
        exact ⟨not_not.mp hstatus, rfl⟩

-- The dispatch of a stored job, which fails with its store. Nothing is lost
-- unless both do.
theorem dispatchOrFail_recovers {row : ResearchJob} {seenUrls : List String} {later : JobWorld}
    (hid : row.id = jobId) (hrow : later.jobs.get jobId = some row)
    (hopen : row.status = .pending) (hbefore : ∃ old, world.jobs.get jobId = some old ∧
      old.status = .awaitingInput) :
    (dispatchOrFail AnswerError.infrastructure .dispatchFailed row seenUrls).run.Yields env.handle
      (AllOrNothing jobId world) later ↔
        env.fault later.calls = none ∨ env.fault (later.calls + 1) = none := by
  simp only [dispatchOrFail, Fallible.run_lift_bind, ask, Program.call_bind, Program.done_bind,
    Program.yields_call, JobEnv.handle, JobEnv.attempt]
  cases hdispatch : env.fault later.calls with
  | none => exact iff_of_true (fun _ h => by cases h) (Or.inl rfl)
  | some e =>
      have hnot : ¬ row.status = .completed := by
        rw [hopen]
        decide
      simp only [Fallible.run_lift_bind, ResearchJob.failNow, if_neg hnot, ask, Program.call_bind,
        Program.done_bind, Program.pure_eq, Fallible.run_orFail_bind, Program.yields_call,
        JobEnv.handle, JobEnv.attempt]
      cases hupdate : env.fault (later.calls + 1) with
      | some e' =>
          refine iff_of_false (fun hall => ?_) (by simp)
          obtain ⟨old, hold, hawaiting⟩ := hbefore
          rcases hall _ rfl with hintact | ⟨failed, hfailed, hstatus⟩
          · have hsame : some row = some old := hrow.symm.trans (hintact.1.trans hold)
            rw [Option.some.inj hsame, hawaiting] at hopen
            cases hopen
          · have hsame : some row = some failed := hrow.symm.trans hfailed
            rw [← Option.some.inj hsame, hopen] at hstatus
            cases hstatus
      | none =>
          refine iff_of_true (fun _ _ => Or.inr ?_) (Or.inr rfl)
          generalize s!"dispatch failed: {e.message}" = error
          have hsame := ResearchJob.apply_identity row (.fail (env.clock later.readings) error)
          have hfailid := ResearchJob.apply_id row (.fail (env.clock later.readings) error)
          refine ⟨row.fail (env.clock later.readings) error, ?_, ?_⟩
          · show (later.jobs.update env.adapter (row.fail (env.clock later.readings) error)).get
              jobId = _
            rw [ResearchJob.apply] at hsame hfailid
            rw [Jobs.get_update (by rw [hfailid, hid]; exact hrow) hsame, hfailid, if_pos hid.symm]
          · rw [ResearchJob.fail, if_neg hnot]

theorem recovers_iff {row answered : ResearchJob} (hrow : world.jobs.get jobId = some row)
    (huser : row.userId = userId) (hresult : row.provideAnswer answer = (.ok (), answered))
    (hfind : env.fault world.calls = none) :
    Recovers env world userId jobId answer ↔ RecoversFrom env world jobId row.recurringSearchId := by
  constructor
  · intro h
    exact h row answered hrow huser hresult hfind
  · intro h other _ hother _ _ _
    rw [hrow] at hother
    rw [← Option.some.inj hother]
    exact h

-- From the answer that the job accepts: the journal, the job, the dispatch.
theorem stored_answer_recovers {row answered : ResearchJob}
    (hrow : world.jobs.get jobId = some row)
    (hresult : row.provideAnswer answer = (.ok (), answered)) :
    (storeAnswer jobId answered).run.Yields env.handle (AllOrNothing jobId world) world.called ↔
      RecoversFrom env world jobId row.recurringSearchId := by
  obtain ⟨hawaiting, hanswered⟩ := ResearchJob.provideAnswer_ok hresult
  have hrecurring : answered.recurringSearchId = row.recurringSearchId := by rw [hanswered]
  have hopen : answered.status = .pending := by rw [hanswered]
  have hrowid : row.id = jobId := get_id hrow
  have hid : answered.id = jobId := by
    rw [hanswered]
    exact hrowid
  have hsame : answered.identity = row.identity := by
    rw [hanswered]
    rfl
  have hstored : (world.jobs.update env.adapter answered).get jobId = some answered := by
    rw [Jobs.get_update (by rw [hid]; exact hrow) hsame, if_pos hid.symm]
  -- what is stored after the answer is neither as it was nor failed
  have hlost : ∀ later : JobWorld, later.jobs.get jobId = some answered →
      ¬ (Intact jobId world later ∨ FailedRow jobId later) := by
    intro later hlater hwhole
    rcases hwhole with hintact | ⟨failed, hfailed, hstatus⟩
    · have heq : some answered = some row := hlater.symm.trans (hintact.1.trans hrow)
      rw [← Option.some.inj heq, hopen] at hawaiting
      cases hawaiting
    · have heq : some answered = some failed := hlater.symm.trans hfailed
      rw [← Option.some.inj heq, hopen] at hstatus
      cases hstatus
  unfold storeAnswer RecoversFrom
  simp only [Fallible.run_orFail_bind, ask, Program.call_bind, Program.done_bind,
    Program.yields_call, JobEnv.handle, JobEnv.attempt]
  cases hclear : env.fault world.called.calls with
  | some e =>
      refine iff_of_true (fun _ _ => Or.inl ⟨rfl, rfl⟩) fun hfault => ?_
      rw [JobWorld.called] at hclear
      rw [hfault] at hclear
      cases hclear
  | none =>
      dsimp only
      have hcleared : env.fault (world.calls + 1) = none := hclear
      simp only [hcleared, true_implies]
      have hnext : env.fault (world.called.calls + 1) = env.fault (world.calls + 2) := rfl
      simp only [Program.yields_call, JobEnv.handle, JobEnv.attempt]
      rw [hnext]
      cases hupdate : env.fault (world.calls + 2) with
      | some e =>
          -- the journal is gone, and the job is as it was
          simp only [ne_eq, reduceCtorEq, not_false_eq_true, true_implies, false_implies, and_true]
          constructor
          · intro hall
            rcases hall _ rfl with hintact | ⟨failed, hfailed, hstatus⟩
            · rw [← hintact.2]
              exact PerJob.of_remove world.steps jobId
            · have heq : some row = some failed := hrow.symm.trans hfailed
              rw [← Option.some.inj heq, hawaiting] at hstatus
              cases hstatus
          · intro hempty _ _
            refine Or.inl ⟨rfl, ?_⟩
            rw [hempty]
            exact PerJob.of_remove world.steps jobId
      | none =>
          simp only [ne_eq, not_true_eq_false, false_implies, true_and, true_implies]
          rw [hrecurring]
          cases row.recurringSearchId with
          | none =>
              exact dispatchOrFail_recovers hid hstored hopen ⟨row, hrow, hawaiting⟩
          | some rsId =>
              simp only [Fallible.run_orFail_bind, Program.call_bind, Program.done_bind,
                Program.yields_call, JobEnv.handle, JobEnv.attempt]
              have hread : env.fault (world.called.calls + 1 + 1) =
                env.fault (world.calls + 3) := rfl
              rw [hread]
              cases hurls : env.fault (world.calls + 3) with
              | some e =>
                  refine iff_of_false (fun hall => hlost _ ?_ (hall _ rfl)) (by simp)
                  exact hstored
              | none =>
                  simp only [true_and]
                  exact dispatchOrFail_recovers hid hstored hopen ⟨row, hrow, hawaiting⟩

theorem answer_recovers :
    (answerClarification userId jobId answer).run.Yields env.handle (AllOrNothing jobId world)
      world ↔ Recovers env world userId jobId answer := by
  simp only [answerClarification, Fallible.run_orFail_bind, ask, Program.call_bind,
    Program.done_bind, Program.yields_call, JobEnv.handle, JobEnv.attempt]
  cases hfind : env.fault world.calls with
  | some e =>
      refine iff_of_true (fun _ _ => Or.inl ⟨rfl, rfl⟩) fun row answered _ _ _ hfault => ?_
      rw [hfind] at hfault
      cases hfault
  | none =>
      dsimp only
      cases hfound : (world.jobs.get jobId).filter fun job => job.userId = userId with
      | none =>
          refine iff_of_true (fun _ _ => Or.inl ⟨rfl, rfl⟩) fun row answered hrow huser => ?_
          rw [hrow] at hfound
          simp [Option.filter, huser] at hfound
      | some row =>
          obtain ⟨hrow, huser⟩ := Option.filter_eq_some_iff.mp hfound
          dsimp only
          cases hresult : row.provideAnswer answer with
          | mk result answered =>
          cases result with
          | error e =>
              refine iff_of_true (fun _ _ => Or.inl ⟨rfl, rfl⟩) fun other answered' hother _ hok => ?_
              rw [hrow] at hother
              rw [← Option.some.inj hother, hresult] at hok
              cases hok
          | ok _ =>
              rw [recovers_iff hrow (of_decide_eq_true huser) hresult hfind]
              exact stored_answer_recovers hrow hresult

end AllOrNothing

-- An answer to a stored job, whatever calls fail: where it returns an error, the
-- job and its journal are as before or the job is failed, exactly where it
-- recovers.
theorem answer_all_or_nothing (env : JobEnv) (config : JobConfig) (world : JobWorld)
    (userId jobId : Uuid) (answer : String) :
    let served := env.serve config world (.answer userId jobId answer)
    (∀ e, served.1 = .answer (.error e) →
      Intact jobId world served.2 ∨ FailedRow jobId served.2) ↔
        Recovers env world userId jobId answer := by
  have hserved : env.serve config world (.answer userId jobId answer) =
      (.answer ((answerClarification userId jobId answer).run.run env.handle world).1,
        ((answerClarification userId jobId answer).run.run env.handle world).2) := by
    rw [JobEnv.serve, JobOp.program, Program.run_bind]
    rfl
  rw [hserved, ← answer_recovers]
  constructor
  · intro hall e herror
    exact hall e (congrArg JobOutcome.answer herror)
  · intro hall e herror
    exact hall e (by injection herror)

namespace Sample

-- A run of a recurring search that has paused, and the port call that fails.
def paused : ResearchJob :=
  { job with
    status := .awaitingInput
    question := some "4.0 or later?"
    recurringSearchId := some ⟨"6d8a40c5-0d53-4b6c-9a93-6a1e8f3b7c02"⟩ }

def pausedWorld : JobWorld := { world with jobs := Table.empty.insert paused }

def failing (call : Nat) : JobEnv :=
  { env .postgres with fault := fun n => if n = call then some ⟨"pool timed out"⟩ else none }

end Sample

-- The read of the recent URLs fails after the answer is stored.
theorem answer_stranded :
    let served := (Sample.failing 3).serve Sample.config Sample.pausedWorld
      (.answer Sample.paused.userId Sample.paused.id "later")
    served.1 = .answer (.error (.infrastructure ⟨"pool timed out"⟩)) ∧
      (served.2.jobs.get Sample.paused.id).map ResearchJob.status = some .pending ∧
      served.2.dispatched = Sample.pausedWorld.dispatched := by
  refine ⟨rfl, by decide, rfl⟩

end AgentBoilerplate.Job
