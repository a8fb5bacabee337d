import AgentBoilerplate.Job.Sequential

namespace AgentBoilerplate.Job

open Effects Collections

variable {config : JobConfig} {env : JobEnv} {world : JobWorld} {jobId : Uuid}

-- The job is stored, and it has been completed or failed.
def FinishedRow (jobId : Uuid) (world : JobWorld) : Prop :=
  ∃ row, world.jobs.get jobId = some row ∧ row.isFinished = true

theorem ResearchJob.isFinished_iff (job : ResearchJob) :
    job.isFinished = true ↔ job.status = .completed ∨ job.status = .failed := by
  simp [ResearchJob.isFinished]

theorem ResearchJob.apply_finished {job : ResearchJob} (h : job.isFinished = true)
    (call : Transition) : (job.apply call).2.isFinished = true := by
  rw [ResearchJob.isFinished_iff] at h ⊢
  cases h with
  | inl hcompleted => exact Or.inl ((ResearchJob.apply_completed job call).mpr (Or.inl hcompleted))
  | inr hfailed => exact (ResearchJob.apply_failed hfailed call).symm

-- No operation that writes a finished job starts it again.
theorem Touches.finished {now : Int} {op : JobOp} {row later : ResearchJob}
    (h : Touches config now op row later) (hfinished : row.isFinished = true) :
    later.isFinished = true := by
  have hpending := (ResearchJob.isFinished_iff row).mp hfinished
  cases op with
  | start jobId =>
      obtain ⟨-, rfl⟩ := h
      exact ResearchJob.apply_finished hfinished .start
  | complete jobId results =>
      obtain ⟨-, clock, rfl⟩ := h
      exact ResearchJob.apply_finished hfinished (.complete clock)
  | requestInput jobId question =>
      obtain ⟨-, hasked⟩ := h
      have hcall := ResearchJob.apply_finished hfinished (.requestInput question)
      rw [ResearchJob.apply, hasked] at hcall
      exact hcall
  | recordUsage jobId usage =>
      obtain ⟨-, rfl⟩ := h
      exact hfinished
  | fail jobId error =>
      obtain ⟨-, clock, rfl⟩ := h
      exact ResearchJob.apply_finished hfinished (.fail clock error)
  | answer userId jobId answer =>
      obtain ⟨-, answered, hanswered, hlater⟩ := h
      have hcall := ResearchJob.apply_finished hfinished (.provideAnswer answer)
      rw [ResearchJob.apply, hanswered] at hcall
      cases hlater with
      | inl heq => rw [heq]; exact hcall
      | inr hfail =>
          obtain ⟨clock, error, rfl⟩ := hfail
          exact ResearchJob.apply_finished hcall (.fail clock error)
  | failStale =>
      obtain ⟨-, -, clock, error, rfl⟩ := h
      exact ResearchJob.apply_finished hfinished (.fail clock error)
  | recordStep _ _ | launch _ _ _ | runDue => exact h.elim

theorem finished_serve {op : JobOp} (hop : op.launches = false) (h : FinishedRow jobId world) :
    FinishedRow jobId (env.serve config world op).2 := by
  obtain ⟨row, hrow, hfinished⟩ := h
  obtain ⟨next, hnext, hkept⟩ := (serve_moved config env world hop).stored jobId row hrow
  refine ⟨next, hnext, ?_⟩
  cases hkept with
  | inl heq => rw [heq]; exact hfinished
  | inr htouches => exact htouches.finished hfinished

theorem finished_served {ops : List JobOp} (hops : ∀ op ∈ ops, op.launches = false)
    (h : FinishedRow jobId world) : FinishedRow jobId (env.served config world ops) := by
  induction ops generalizing world with
  | nil => exact h
  | cons op rest ih =>
      have hrest : ∀ other ∈ rest, other.launches = false := fun other hother =>
        hops other (List.mem_cons_of_mem _ hother)
      exact ih hrest (finished_serve (hops op List.mem_cons_self) h)

-- A failure that was recorded finishes the job.
theorem fail_recorded {error : String}
    (h : (env.serve config world (.fail jobId error)).1 = .ingest (.ok ())) :
    FinishedRow jobId (env.serve config world (.fail jobId error)).2 := by
  have hfail : (IngestResults.fail jobId error).run.Yields env.handle
      (fun result later => result = .ok () → FinishedRow jobId later) world := by
    refine yields_findJob (fun e => by simp) fun row hrow => ?_
    simp only [Fallible.run_lift_bind]
    refine yields_failNow fun clock later hjobs _ => ?_
    simp only [Fallible.run_orFail, ask, Program.call_bind, Program.done_bind]
    refine yields_update (fun e => ?_) ?_
    · intro hresult
      cases hresult
    · intro _
      have hsame := ResearchJob.apply_identity row (.fail clock error)
      have hid := ResearchJob.apply_id row (.fail clock error)
      refine ⟨(row.apply (.fail clock error)).2, ?_, ?_⟩
      · have hstored : later.jobs.get (row.apply (.fail clock error)).2.id = some row := by
          rw [hjobs, hid, get_id hrow]
          exact hrow
        show (later.jobs.update env.adapter (row.apply (.fail clock error)).2).get jobId = _
        rw [Jobs.get_update hstored hsame, hid, get_id hrow, if_pos rfl]
      · rw [ResearchJob.isFinished_iff, ResearchJob.apply, ResearchJob.fail]
        by_cases hcompleted : row.status = .completed
        · rw [if_pos hcompleted]
          exact Or.inl hcompleted
        · rw [if_neg hcompleted]
          exact Or.inr rfl
  have hserve : ((JobOp.fail jobId error).program config).Yields env.handle
      (fun outcome later => outcome = .ingest (.ok ()) → FinishedRow jobId later) world := by
    refine (Program.yields_bind _ _ _ _).mpr (hfail.mono fun result later hresult houtcome => ?_)
    exact hresult (by injection houtcome)
  exact hserve h

-- A question that was accepted has been put to the job that was stored.
theorem requestInput_accepted {question : String}
    (h : (env.serve config world (.requestInput jobId question)).1 = .ingest (.ok ())) :
    ∃ row asked, world.jobs.get jobId = some row ∧ row.requestInput question = (.ok (), asked) ∧
      (env.serve config world (.requestInput jobId question)).2.jobs.get jobId = some asked := by
  have hask : (IngestResults.requestInput jobId question).run.Yields env.handle
      (fun result later => result = .ok () → ∃ row asked, world.jobs.get jobId = some row ∧
        row.requestInput question = (.ok (), asked) ∧ later.jobs.get jobId = some asked)
      world := by
    refine yields_findJob (fun e => by simp) fun row hrow => ?_
    cases hresult : row.requestInput question with
    | mk result asked =>
        cases result with
        | error e =>
            intro hok
            cases hok
        | ok _ =>
            simp only [Fallible.run_orFail, ask, Program.call_bind, Program.done_bind]
            refine yields_update (fun e => ?_) ?_
            · intro hok
              cases hok
            · intro _
              have hasked : asked = (row.apply (.requestInput question)).2 := by
                rw [ResearchJob.apply, hresult]
              have hid : asked.id = jobId := by
                rw [hasked, ResearchJob.apply_id, get_id hrow]
              have hsame : asked.identity = row.identity := by
                rw [hasked, ResearchJob.apply_identity]
              refine ⟨row, asked, hrow, hresult, ?_⟩
              show (world.jobs.update env.adapter asked).get jobId = some asked
              rw [Jobs.get_update (by rw [hid]; exact hrow) hsame, if_pos hid.symm]
  have hserve : ((JobOp.requestInput jobId question).program config).Yields env.handle
      (fun outcome later => outcome = .ingest (.ok ()) → ∃ row asked,
        world.jobs.get jobId = some row ∧ row.requestInput question = (.ok (), asked) ∧
          later.jobs.get jobId = some asked) world := by
    refine (Program.yields_bind _ _ _ _).mpr (hask.mono fun result later hresult houtcome => ?_)
    exact hresult (by injection houtcome)
  exact hserve h

theorem ResearchJob.requestInput_eq (job : ResearchJob) {question : String}
    (h : trim question ≠ "") : (job.requestInput question).2 =
      if job.status = .running ∨ job.status = .pending then
        { job with status := .awaitingInput, question := some (trim question) }
      else job := by
  have hblank : ¬ (trim question).isEmpty = true := by simpa using h
  unfold ResearchJob.requestInput
  dsimp only
  rw [if_neg hblank]
  split <;> rfl

-- Operations on stored jobs in any order, then a question that is accepted: a
-- job that is pending or running then waits for the answer to it, and a job
-- whose failure has been recorded before stays as it is.
theorem question_accepted {ops : List JobOp} {question : String}
    (hops : ∀ op ∈ ops, op.launches = false) (hquestion : trim question ≠ "")
    (haccepted : (env.serve config (env.served config world ops)
      (.requestInput jobId question)).1 = .ingest (.ok ())) :
    ∃ row asked, (env.served config world ops).jobs.get jobId = some row ∧
      (env.serve config (env.served config world ops) (.requestInput jobId question)).2.jobs.get
        jobId = some asked ∧
      ((row.status = .pending ∨ row.status = .running) →
        asked.status = .awaitingInput ∧ asked.question = some (trim question)) ∧
      (row.isFinished = true → asked = row) ∧
      ∀ before error after, ops = before ++ .fail jobId error :: after →
        (env.serve config (env.served config world before) (.fail jobId error)).1 =
          .ingest (.ok ()) → row.isFinished = true := by
  obtain ⟨row, asked, hrow, hresult, hasked⟩ := requestInput_accepted haccepted
  have heq : asked = (row.requestInput question).2 := by rw [hresult]
  rw [ResearchJob.requestInput_eq row hquestion] at heq
  refine ⟨row, asked, hrow, hasked, fun hopen => ?_, fun hfinished => ?_, ?_⟩
  · rw [heq, if_pos hopen.symm]
    exact ⟨rfl, rfl⟩
  · have hclosed : ¬ (row.status = .running ∨ row.status = .pending) := by
      rcases (ResearchJob.isFinished_iff row).mp hfinished with h | h <;> simp [h]
    rw [heq, if_neg hclosed]
  · intro before error after hsplit hrecorded
    have hfailed := fail_recorded hrecorded
    have hafter : ∀ op ∈ after, op.launches = false := by
      intro op hop
      exact hops op (by rw [hsplit]; simp [hop])
    have hlast : FinishedRow jobId (env.served config
        (env.serve config (env.served config world before) (.fail jobId error)).2 after) :=
      finished_served hafter hfailed
    obtain ⟨later, hlater, hfinished⟩ := hlast
    have hworld : env.served config world ops = env.served config
        (env.serve config (env.served config world before) (.fail jobId error)).2 after := by
      rw [hsplit, JobEnv.served, List.foldl_append]
      rfl
    rw [← hworld, hrow] at hlater
    rw [Option.some.inj hlater]
    exact hfinished

-- An attempt starts and fails; the next one starts and asks.
theorem question_lost :
    let attempts : List JobOp :=
      [.start Sample.job.id, .fail Sample.job.id "timeout", .start Sample.job.id]
    let world := (Sample.env .postgres).served Sample.config Sample.world attempts
    let asked := (Sample.env .postgres).serve Sample.config world
      (.requestInput Sample.job.id "4.0 or later?")
    asked.1 = .ingest (.ok ()) ∧
      (asked.2.jobs.get Sample.job.id).map ResearchJob.status = some .failed ∧
      (asked.2.jobs.get Sample.job.id).map ResearchJob.question = some none := by
  refine ⟨rfl, by decide, by decide⟩

theorem question_accepted_after_failure :
    let attempts : List JobOp :=
      [.start Sample.job.id, .fail Sample.job.id "timeout", .start Sample.job.id]
    let env := Sample.env .postgres
    let world := env.served Sample.config Sample.world attempts
    ∃ row asked, world.jobs.get Sample.job.id = some row ∧
      (env.serve Sample.config world (.requestInput Sample.job.id "4.0 or later?")).2.jobs.get
        Sample.job.id = some asked ∧
      ((row.status = .pending ∨ row.status = .running) →
        asked.status = .awaitingInput ∧ asked.question = some (trim "4.0 or later?")) ∧
      (row.isFinished = true → asked = row) ∧
      ∀ before error after, attempts = before ++ .fail Sample.job.id error :: after →
        (env.serve Sample.config (env.served Sample.config Sample.world before)
          (.fail Sample.job.id error)).1 = .ingest (.ok ()) → row.isFinished = true :=
  question_accepted (by decide) (by decide) rfl

end AgentBoilerplate.Job
