import AgentBoilerplate.Job.Lemmas

namespace AgentBoilerplate.Job

open Effects Collections

-- One operation served alone, and operations served one after another.
def JobEnv.serve (env : JobEnv) (config : JobConfig) (world : JobWorld) (op : JobOp) :
    JobOutcome × JobWorld :=
  (op.program config).run env.handle world

def JobEnv.served (env : JobEnv) (config : JobConfig) (world : JobWorld) (ops : List JobOp) :
    JobWorld :=
  ops.foldl (fun world op => (env.serve config world op).2) world

-- A call that fails changes nothing but the number of calls.
def JobWorld.called (world : JobWorld) : JobWorld := { world with calls := world.calls + 1 }

@[simp] theorem JobWorld.called_jobs (world : JobWorld) : world.called.jobs = world.jobs := rfl
@[simp] theorem JobWorld.called_steps (world : JobWorld) : world.called.steps = world.steps := rfl

namespace Jobs

variable {adapter : Adapter} {jobs : Jobs} {row job : ResearchJob}

-- A row keeps what no transition touches, so an update stores the job itself.
theorem get_update (hrow : jobs.get job.id = some row) (hsame : job.identity = row.identity)
    (id : Uuid) : (jobs.update adapter job).get id = if id = job.id then some job else jobs.get id := by
  simp only [ResearchJob.identity, Prod.mk.injEq] at hsame
  obtain ⟨hid, huser, hkeyword, hmode, hrecurring, husage, hcreated⟩ := hsame
  unfold update
  cases adapter with
  | inMemory =>
      have hkept : { job with usage := ((jobs.get job.id).map ResearchJob.usage).getD job.usage } =
          job := by
        rw [hrow, Option.map_some, Option.getD_some, ← husage]
      dsimp only
      rw [hkept, Table.get_insert]
  | postgres =>
      have hkept : { row with
          status := job.status
          error := job.error
          question := job.question
          answer := job.answer
          completedAt := job.completedAt } = job := by
        cases job
        cases row
        simp_all
      dsimp only
      rw [Table.get_modify]
      by_cases h : id = job.id
      · rw [if_pos h, if_pos h, h, hrow, Option.map_some, hkept]
      · rw [if_neg h, if_neg h]

theorem get_addUsage (jobs : Jobs) (jobId : Uuid) (usage : JobUsage) (id : Uuid) :
    (jobs.addUsage jobId usage).get id = if id = jobId then
      (jobs.get id).map fun row => { row with usage := row.usage.add usage } else jobs.get id :=
  Table.get_modify _ _ _ _ _

end Jobs

-- The rules of each call: it fails without an effect, or it has its effect.
section Rules

variable {α : Type} {env : JobEnv} {world : JobWorld} {post : α → JobWorld → Prop}

theorem yields_attempt {β : Type} {effect : JobWorld → Except PortError β × JobWorld}
    {next : Except PortError β → Program JobPorts α}
    (herror : ∀ e, (next (.error e)).Yields env.handle post world.called)
    (hok : (next (effect world.called).1).Yields env.handle post (effect world.called).2) :
    (next (env.attempt world effect).1).Yields env.handle post (env.attempt world effect).2 := by
  unfold JobEnv.attempt
  cases env.fault world.calls with
  | none => exact hok
  | some e => exact herror e

theorem yields_find {id : Uuid} {next : Except PortError (Option ResearchJob) → Program JobPorts α}
    (herror : ∀ e, (next (.error e)).Yields env.handle post world.called)
    (hok : (next (.ok (world.jobs.get id))).Yields env.handle post world.called) :
    (Program.call (.find id) next : Program JobPorts α).Yields env.handle post world :=
  yields_attempt herror hok

theorem yields_listUnfinishedOlderThan {cutoff : Int}
    {next : Except PortError (List ResearchJob) → Program JobPorts α}
    (herror : ∀ e, (next (.error e)).Yields env.handle post world.called)
    (hok : (next (.ok (world.jobs.listUnfinishedOlderThan env.adapter cutoff))).Yields env.handle
      post world.called) :
    (Program.call (.listUnfinishedOlderThan cutoff) next : Program JobPorts α).Yields
      env.handle post world :=
  yields_attempt herror hok

theorem yields_update {job : ResearchJob} {next : Except PortError Unit → Program JobPorts α}
    (herror : ∀ e, (next (.error e)).Yields env.handle post world.called)
    (hok : (next (.ok ())).Yields env.handle post
      { world.called with jobs := world.jobs.update env.adapter job }) :
    (Program.call (.update job) next : Program JobPorts α).Yields env.handle post world :=
  yields_attempt herror hok

theorem yields_addUsage {jobId : Uuid} {usage : JobUsage}
    {next : Except PortError Unit → Program JobPorts α}
    (herror : ∀ e, (next (.error e)).Yields env.handle post world.called)
    (hok : (next (.ok ())).Yields env.handle post
      { world.called with jobs := world.jobs.addUsage jobId usage }) :
    (Program.call (.addUsage jobId usage) next : Program JobPorts α).Yields env.handle post world :=
  yields_attempt herror hok

theorem yields_appendStep {jobId : Uuid} {step : AgentStep}
    {next : Except PortError Unit → Program JobPorts α}
    (herror : ∀ e, (next (.error e)).Yields env.handle post world.called)
    (hok : (next (.ok ())).Yields env.handle post
      { world.called with steps := appendStep world.steps jobId step }) :
    (Program.call (.appendStep jobId step) next : Program JobPorts α).Yields env.handle post world :=
  yields_attempt herror hok

theorem yields_clearSteps {jobId : Uuid} {next : Except PortError Unit → Program JobPorts α}
    (herror : ∀ e, (next (.error e)).Yields env.handle post world.called)
    (hok : (next (.ok ())).Yields env.handle post
      { world.called with steps := world.steps.remove jobId }) :
    (Program.call (.clearSteps jobId) next : Program JobPorts α).Yields env.handle post world :=
  yields_attempt herror hok

theorem yields_utcNow {next : Int → Program JobPorts α}
    (h : ∀ later : JobWorld, later.jobs = world.jobs → later.steps = world.steps →
      (next (env.clock world.readings)).Yields env.handle post later) :
    (Program.call .utcNow next : Program JobPorts α).Yields env.handle post world :=
  h { world with readings := world.readings + 1 } rfl rfl

theorem yields_quiet {request : JobCall} {next : request.Answer → Program JobPorts α}
    (hquiet : quiet request = true)
    (h : ∀ answer (later : JobWorld), later.jobs = world.jobs → later.steps = world.steps →
      (next answer).Yields env.handle post later) :
    (Program.call request next : Program JobPorts α).Yields env.handle post world := by
  rw [Program.yields_call]
  have hkept : (env.handle request world).2.jobs = world.jobs ∧
      (env.handle request world).2.steps = world.steps := by
    cases request with
    | insert _ | update _ | find _ | listUnfinishedOlderThan _ | appendStep _ _ | clearSteps _
    | addUsage _ _ | utcNow | newUuid => cases hquiet
    | _ =>
        simp only [JobEnv.handle, JobEnv.attempt]
        split <;> exact ⟨rfl, rfl⟩
  exact h _ _ hkept.1 hkept.2

end Rules

-- What an operation that launches nothing, and that first reads the clock at
-- `now`, makes of a stored job when it writes it.
def Touches (config : JobConfig) (now : Int) (op : JobOp) (row later : ResearchJob) : Prop :=
  match op with
  | .start jobId => row.id = jobId ∧ later = row.start
  | .complete jobId _ => row.id = jobId ∧ ∃ clock, later = row.complete clock
  | .requestInput jobId question => row.id = jobId ∧ row.requestInput question = (.ok (), later)
  | .recordUsage jobId usage =>
      row.id = jobId ∧ later = { row with usage := row.usage.add usage }
  | .fail jobId error => row.id = jobId ∧ ∃ clock, later = row.fail clock error
  | .answer _ jobId answer => row.id = jobId ∧ ∃ answered,
      row.provideAnswer answer = (.ok (), answered) ∧
        (later = answered ∨ ∃ clock error, later = answered.fail clock error)
  | .failStale => (row.status = .pending ∨ row.status = .running) ∧
      row.createdAt < now - Duration.seconds config.timeoutSecs ∧
        ∃ clock error, later = row.fail clock error
  | .recordStep _ _ | .launch _ _ _ | .runDue => False

structure Moved (config : JobConfig) (now : Int) (op : JobOp) (jobs later : Jobs) : Prop where
  missing : ∀ id, jobs.get id = none → later.get id = none
  stored : ∀ id row, jobs.get id = some row →
    ∃ next, later.get id = some next ∧ (next = row ∨ Touches config now op row next)

section Moves

variable {α : Type} {config : JobConfig} {now : Int} {op : JobOp} {adapter : Adapter} {jobs : Jobs}
  {env : JobEnv} {world : JobWorld}

theorem Moved.refl (jobs : Jobs) : Moved config now op jobs jobs where
  missing _ h := h
  stored _ row h := ⟨row, h, Or.inl rfl⟩

-- The touched row is all that an update changes.
theorem Moved.of_get {row job : ResearchJob} {later : Jobs} (hrow : jobs.get job.id = some row)
    (hlater : ∀ id, later.get id = if id = job.id then some job else jobs.get id)
    (htouches : Touches config now op row job) : Moved config now op jobs later := by
  constructor
  · intro id hnone
    have hne : id ≠ job.id := by
      intro heq
      rw [heq, hrow] at hnone
      cases hnone
    rw [hlater, if_neg hne]
    exact hnone
  · intro id other hother
    rw [hlater]
    by_cases hid : id = job.id
    · rw [if_pos hid]
      have heq : other = row := by
        rw [hid, hrow] at hother
        exact (Option.some.inj hother).symm
      rw [heq]
      exact ⟨job, rfl, Or.inr htouches⟩
    · rw [if_neg hid]
      exact ⟨other, hother, Or.inl rfl⟩

theorem Moved.update {row job : ResearchJob} (hrow : jobs.get job.id = some row)
    (hsame : job.identity = row.identity) (htouches : Touches config now op row job) :
    Moved config now op jobs (jobs.update adapter job) :=
  Moved.of_get hrow (Jobs.get_update hrow hsame) htouches

theorem Moved.update_twice {row first second : ResearchJob} (hrow : jobs.get first.id = some row)
    (hfirst : first.identity = row.identity) (hsecond : second.identity = first.identity)
    (htouches : Touches config now op row second) :
    Moved config now op jobs ((jobs.update adapter first).update adapter second) := by
  have hid : second.id = first.id := congrArg Prod.fst hsecond
  have hstored : (jobs.update adapter first).get second.id = some first := by
    rw [Jobs.get_update hrow hfirst, if_pos hid]
  refine Moved.of_get (by rw [hid]; exact hrow) (fun id => ?_) htouches
  rw [Jobs.get_update hstored hsecond, Jobs.get_update hrow hfirst, hid]
  by_cases h : id = first.id
  · rw [if_pos h, if_pos h]
  · rw [if_neg h, if_neg h, if_neg h]

-- The lookup of a worker notification, on the job it finds.
theorem yields_findJob {β : Type} {post : Except IngestError β → JobWorld → Prop} {jobId : Uuid}
    {f : ResearchJob → UseCase IngestError β}
    (herror : ∀ e, post (.error e) world.called)
    (hok : ∀ row, world.jobs.get jobId = some row → (f row).run.Yields env.handle post world.called) :
    (IngestResults.findJob jobId >>= f).run.Yields env.handle post world := by
  rw [run_findJob_bind]
  refine yields_find (fun e => herror _) ?_
  cases hrow : world.jobs.get jobId with
  | none => exact herror _
  | some row => exact hok row hrow

theorem get_id {jobId : Uuid} {row : ResearchJob} (h : jobs.get jobId = some row) : row.id = jobId :=
  ((Table.get_eq_some _ _ _).mp h).2

-- Whatever the quiet calls answer, the stored jobs and the journals stay.
theorem quiet_yields {p : Program JobPorts α} {past : List (Event JobPorts)}
    (h : p.Calls (fun _ request => quiet request = true) past) :
    p.Yields env.handle (fun _ later => later.jobs = world.jobs ∧ later.steps = world.steps)
      world := by
  induction p generalizing past world with
  | done value => exact ⟨rfl, rfl⟩
  | call request next ih =>
      refine yields_quiet h.1 fun answer later hjobs hsteps => ?_
      have hrest : (next answer).Yields env.handle
          (fun _ last => last.jobs = later.jobs ∧ last.steps = later.steps) later :=
        ih answer (h.2 answer)
      rw [hjobs, hsteps] at hrest
      exact hrest

-- A write of the job that was found, after one transition, and quiet calls.
theorem yields_write {row : ResearchJob} {jobId : Uuid} (call : Transition)
    {next : Except PortError Unit → Program JobPorts α} (hjobs : world.jobs = jobs)
    (hrow : jobs.get jobId = some row)
    (htouches : Touches config now op row (row.apply call).2)
    (hquiet : ∀ answer, (next answer).Calls (fun _ request => quiet request = true) []) :
    (Program.call (.update (row.apply call).2) next : Program JobPorts α).Yields env.handle
      (fun _ later => Moved config now op jobs later.jobs) world := by
  have hsame := ResearchJob.apply_identity row call
  have hstored : jobs.get (row.apply call).2.id = some row := by
    rw [ResearchJob.apply_id, get_id hrow]
    exact hrow
  refine yields_update (fun e => ?_) ?_
  · refine (quiet_yields (hquiet _)).mono fun _ later hlater => ?_
    rw [hlater.1, JobWorld.called_jobs, hjobs]
    exact Moved.refl jobs
  · refine (quiet_yields (hquiet _)).mono fun _ later hlater => ?_
    rw [hlater.1, hjobs]
    exact Moved.update hstored hsame htouches

theorem start_moved (jobId : Uuid) :
    (IngestResults.start jobId).run.Yields env.handle
      (fun _ later => Moved config now (.start jobId) world.jobs later.jobs) world := by
  refine yields_findJob (fun e => Moved.refl _) fun row hrow => ?_
  have htouches : Touches config now (.start jobId) row (row.apply .start).2 :=
    ⟨get_id hrow, rfl⟩
  simp only [Fallible.run_orFail, ask, Program.call_bind, Program.done_bind]
  refine yields_write .start (JobWorld.called_jobs world) hrow htouches fun answer => ?_
  cases answer <;> trivial

theorem complete_moved (jobId : Uuid) (results : List SearchResult) :
    (IngestResults.complete jobId results).run.Yields env.handle
      (fun _ later => Moved config now (.complete jobId results) world.jobs later.jobs) world := by
  refine yields_findJob (fun e => Moved.refl _) fun row hrow => ?_
  simp only [Fallible.run_orFail_bind, Fallible.run_lift_bind, ResearchJob.completeNow, ask,
    Program.call_bind, Program.done_bind, Program.pure_eq]
  refine yields_quiet rfl fun answer later hjobs _ => ?_
  cases answer with
  | error e =>
      rw [← JobWorld.called_jobs world, ← hjobs]
      exact Moved.refl _
  | ok _ =>
      refine yields_utcNow fun later' hjobs' _ => ?_
      have hworld : later'.jobs = world.jobs := hjobs'.trans hjobs
      refine yields_write (.complete (env.clock later.readings)) hworld hrow
        ⟨get_id hrow, _, rfl⟩ fun answer => ?_
      cases answer with
      | error e => trivial
      | ok _ => exact (Program.calls_bind_pure _ _ _).mpr (maybeSendDigest_quiet _ _ _)

theorem recordUsage_moved (jobId : Uuid) (usage : JobUsage) :
    (IngestResults.recordUsage jobId usage).run.Yields env.handle
      (fun _ later => Moved config now (.recordUsage jobId usage) world.jobs later.jobs) world := by
  refine yields_findJob (fun e => Moved.refl _) fun row hrow => ?_
  simp only [Fallible.run_orFail, ask, Program.call_bind, Program.done_bind]
  refine yields_addUsage (fun e => Moved.refl _) ?_
  show Moved config now (.recordUsage jobId usage) world.jobs (world.jobs.addUsage jobId usage)
  constructor
  · intro id hnone
    rw [Jobs.get_addUsage]
    simp [hnone]
  · intro id other hother
    rw [Jobs.get_addUsage]
    by_cases hid : id = jobId
    · rw [if_pos hid, hother]
      exact ⟨_, rfl, Or.inr ⟨(get_id hother).trans hid, rfl⟩⟩
    · rw [if_neg hid]
      exact ⟨other, hother, Or.inl rfl⟩

theorem recordStep_moved (jobId : Uuid) (step : AgentStep) :
    (IngestResults.recordStep jobId step).run.Yields env.handle
      (fun _ later => Moved config now (.recordStep jobId step) world.jobs later.jobs) world := by
  refine yields_findJob (fun e => Moved.refl _) fun row hrow => ?_
  simp only [Fallible.run_orFail, ask, Program.call_bind, Program.done_bind]
  exact yields_appendStep (fun e => Moved.refl _) (Moved.refl _)

theorem requestInput_moved (jobId : Uuid) (question : String) :
    (IngestResults.requestInput jobId question).run.Yields env.handle
      (fun _ later => Moved config now (.requestInput jobId question) world.jobs later.jobs)
      world := by
  refine yields_findJob (fun e => Moved.refl _) fun row hrow => ?_
  cases hresult : row.requestInput question with
  | mk result asked =>
      cases result with
      | error e => exact Moved.refl _
      | ok _ =>
          have hasked : asked = (row.apply (.requestInput question)).2 := by
            rw [ResearchJob.apply, hresult]
          have htouches : Touches config now (.requestInput jobId question) row
              (row.apply (.requestInput question)).2 := by
            rw [← hasked]
            exact ⟨get_id hrow, hresult⟩
          simp only [Fallible.run_orFail, ask, Program.call_bind, Program.done_bind]
          rw [hasked]
          refine yields_write _ (JobWorld.called_jobs world) hrow htouches fun answer => ?_
          cases answer <;> trivial

-- A completed job does not read the clock before it refuses to fail.
theorem yields_failNow {row : ResearchJob} {error : String} {f : ResearchJob → Program JobPorts α}
    {post : α → JobWorld → Prop}
    (h : ∀ clock (later : JobWorld), later.jobs = world.jobs → later.steps = world.steps →
      (f (row.fail clock error)).Yields env.handle post later) :
    (row.failNow error >>= f).Yields env.handle post world := by
  unfold ResearchJob.failNow
  by_cases hcompleted : row.status = .completed
  · rw [if_pos hcompleted]
    have hsame : row.fail 0 error = row := by
      rw [ResearchJob.fail, if_pos hcompleted]
    have hrow := h 0 world rfl rfl
    rw [hsame] at hrow
    exact hrow
  · rw [if_neg hcompleted]
    exact yields_utcNow fun later hjobs hsteps => h _ later hjobs hsteps

theorem fail_moved (jobId : Uuid) (error : String) :
    (IngestResults.fail jobId error).run.Yields env.handle
      (fun _ later => Moved config now (.fail jobId error) world.jobs later.jobs) world := by
  refine yields_findJob (fun e => Moved.refl _) fun row hrow => ?_
  simp only [Fallible.run_lift_bind]
  refine yields_failNow fun clock later hjobs _ => ?_
  simp only [Fallible.run_orFail, ask, Program.call_bind, Program.done_bind]
  refine yields_write (.fail clock error) hjobs hrow ⟨get_id hrow, clock, rfl⟩ fun answer => ?_
  cases answer <;> trivial

-- A dispatch of a job that is stored as it is: a failed one fails it.
theorem dispatchOrFail_yields {ε : Type} {infrastructure : PortError → ε} {dispatchFailed : ε}
    {seenUrls : List String} {row : ResearchJob} {post : Except ε ResearchJob → JobWorld → Prop}
    (hjobs : world.jobs = jobs)
    (hkept : ∀ result (later : JobWorld), later.jobs = jobs → post result later)
    (hfailed : ∀ result clock error (later : JobWorld),
      later.jobs = jobs.update env.adapter (row.fail clock error) → post result later) :
    (dispatchOrFail infrastructure dispatchFailed row seenUrls).run.Yields env.handle post
      world := by
  simp only [dispatchOrFail, Fallible.run_lift_bind, ask, Program.call_bind, Program.done_bind]
  refine yields_quiet rfl fun answer dispatched hdispatched _ => ?_
  cases answer with
  | ok _ => exact hkept _ _ (hdispatched.trans hjobs)
  | error e =>
      simp only [Fallible.run_lift_bind]
      refine yields_failNow fun clock failing hfailing _ => ?_
      simp only [Fallible.run_orFail_bind, Program.call_bind, Program.done_bind]
      have hworld : failing.jobs = jobs := hfailing.trans (hdispatched.trans hjobs)
      refine yields_update (fun e => hkept _ failing.called hworld) ?_
      have hwritten := hfailed (.error dispatchFailed) clock s!"dispatch failed: {e.message}"
        { failing.called with
          jobs := failing.jobs.update env.adapter (row.fail clock s!"dispatch failed: {e.message}") }
      rw [hworld] at hwritten ⊢
      exact hwritten rfl

theorem answer_moved (userId jobId : Uuid) (answer : String) :
    (answerClarification userId jobId answer).run.Yields env.handle
      (fun _ later => Moved config now (.answer userId jobId answer) world.jobs later.jobs)
      world := by
  simp only [answerClarification, Fallible.run_orFail_bind, ask, Program.call_bind,
    Program.done_bind]
  refine yields_find (fun e => Moved.refl _) ?_
  dsimp only
  cases hfound : (world.jobs.get jobId).filter fun job => job.userId = userId with
  | none => exact Moved.refl _
  | some row =>
      have hrow : world.jobs.get jobId = some row := (Option.filter_eq_some_iff.mp hfound).1
      dsimp only
      cases hresult : row.provideAnswer answer with
      | mk result answered =>
      cases result with
      | error e => exact Moved.refl _
      | ok _ =>
          have hanswered : answered = (row.apply (.provideAnswer answer)).2 := by
            rw [ResearchJob.apply, hresult]
          have hid : answered.id = jobId := by
            rw [hanswered, ResearchJob.apply_id, get_id hrow]
          have hsame : answered.identity = row.identity := by
            rw [hanswered, ResearchJob.apply_identity]
          have hstored : world.jobs.get answered.id = some row := by rw [hid]; exact hrow
          -- the answer is written, and then perhaps the failed dispatch
          have hwritten : Moved config now (.answer userId jobId answer) world.jobs
              (world.jobs.update env.adapter answered) :=
            Moved.update hstored hsame ⟨get_id hrow, answered, hresult, Or.inl rfl⟩
          have hfailed : ∀ clock error, Moved config now (.answer userId jobId answer) world.jobs
              ((world.jobs.update env.adapter answered).update env.adapter
                (answered.fail clock error)) := by
            intro clock error
            have hfail : answered.fail clock error = (answered.apply (.fail clock error)).2 := rfl
            have hkept : (answered.fail clock error).identity = answered.identity := by
              rw [hfail, ResearchJob.apply_identity]
            exact Moved.update_twice hstored hsame hkept
              ⟨get_id hrow, answered, hresult, Or.inr ⟨clock, error, rfl⟩⟩
          simp only [Fallible.run_orFail_bind, Program.call_bind, Program.done_bind]
          refine yields_clearSteps (fun e => Moved.refl _) ?_
          refine yields_update (fun e => Moved.refl _) ?_
          dsimp only
          split
          · simp only [Fallible.run_orFail_bind, Program.call_bind, Program.done_bind]
            refine yields_quiet rfl fun urls later hjobs _ => ?_
            cases urls with
            | error e =>
                show Moved _ _ _ _ later.jobs
                rw [hjobs]
                exact hwritten
            | ok seenUrls =>
                refine dispatchOrFail_yields hjobs ?_ ?_
                · intro _ last hlast
                  rw [hlast]
                  exact hwritten
                · intro _ clock error last hlast
                  rw [hlast]
                  exact hfailed clock error
          · refine dispatchOrFail_yields rfl ?_ ?_
            · intro _ last hlast
              rw [hlast]
              exact hwritten
            · intro _ clock error last hlast
              rw [hlast]
              exact hfailed clock error

-- The reaper's loop, over jobs that are stored as it has listed them. After it
-- has failed one of them, it does not touch that job again.
theorem reap_moved (timeoutSecs : Nat) (stale : List ResearchJob) (reaped : Nat)
    (hstale : ∀ job ∈ stale, world.jobs.get job.id = some job ∧
      (job.status = .pending ∨ job.status = .running) ∧
        job.createdAt < now - Duration.seconds config.timeoutSecs)
    (hdistinct : (stale.map ResearchJob.id).Nodup) :
    (FailStaleJobs.reap timeoutSecs stale reaped).run.Yields env.handle
      (fun _ later => Moved config now .failStale world.jobs later.jobs) world := by
  induction stale generalizing world reaped with
  | nil => exact Moved.refl _
  | cons job stale ih =>
      obtain ⟨hstored, hunfinished, hold⟩ := hstale job List.mem_cons_self
      rw [List.map_cons, List.nodup_cons] at hdistinct
      simp only [FailStaleJobs.reap, Fallible.run_lift_bind]
      refine yields_failNow fun clock reading hjobs _ => ?_
      simp only [Fallible.run_orFail_bind, ask, Program.call_bind, Program.done_bind]
      refine yields_update (fun e => ?_) ?_
      · show Moved _ _ _ _ reading.jobs
        rw [hjobs]
        exact Moved.refl _
      generalize herror : s!"timed out after {timeoutSecs}s without a worker notification" = error
      have hfail : job.fail clock error = (job.apply (.fail clock error)).2 := rfl
      have hid : (job.fail clock error).id = job.id := by rw [hfail, ResearchJob.apply_id]
      have hsame : (job.fail clock error).identity = job.identity := by
        rw [hfail, ResearchJob.apply_identity]
      have hget : ∀ id, (world.jobs.update env.adapter (job.fail clock error)).get id =
          if id = job.id then some (job.fail clock error) else world.jobs.get id := by
        intro id
        rw [Jobs.get_update (by rw [hid]; exact hstored) hsame, hid]
      rw [hjobs]
      refine Program.Yields.mono (ih (reaped + 1) (fun other hother => ?_) hdistinct.2)
        fun _ later hmoved => ?_
      · obtain ⟨hother', hrest⟩ := hstale other (List.mem_cons_of_mem _ hother)
        have hne : other.id ≠ job.id := by
          intro heq
          exact hdistinct.1 (List.mem_map.mpr ⟨other, hother, heq⟩)
        refine ⟨?_, hrest⟩
        show (world.jobs.update env.adapter (job.fail clock error)).get other.id = some other
        rw [hget, if_neg hne]
        exact hother'
      · constructor
        · intro id hnone
          refine hmoved.missing id ?_
          have hne : id ≠ job.id := by
            intro heq
            rw [heq, hstored] at hnone
            cases hnone
          show (world.jobs.update env.adapter (job.fail clock error)).get id = none
          rw [hget, if_neg hne]
          exact hnone
        · intro id row hrow
          by_cases hne : id = job.id
          · -- the job is failed by now, so the rest of the loop leaves it
            obtain ⟨next, hnext, hkept⟩ := hmoved.stored id (job.fail clock error)
              (by rw [hget, if_pos hne])
            have heq : row = job := by
              rw [hne, hstored] at hrow
              exact (Option.some.inj hrow).symm
            have hfailed : (job.fail clock error).status = .failed := by
              unfold ResearchJob.fail
              rw [if_neg]
              rcases hunfinished with h | h <;> simp [h]
            refine ⟨next, hnext, Or.inr ?_⟩
            rw [heq]
            cases hkept with
            | inl hkept => exact ⟨hunfinished, hold, clock, error, hkept⟩
            | inr htouches =>
                obtain ⟨hstatus, -⟩ := htouches
                rw [hfailed] at hstatus
                cases hstatus with
                | inl h => cases h
                | inr h => cases h
          · exact hmoved.stored id row (by rw [hget, if_neg hne]; exact hrow)

theorem failStale_moved (hnow : now = env.clock world.readings) :
    (FailStaleJobs.execute config.timeoutSecs).run.Yields env.handle
      (fun _ later => Moved config now .failStale world.jobs later.jobs) world := by
  simp only [FailStaleJobs.execute, Fallible.run_lift_bind, ask, Program.call_bind,
    Program.done_bind]
  refine yields_utcNow fun reading hjobs _ => ?_
  rw [← hnow]
  split
  · show Moved _ _ _ _ reading.jobs
    rw [hjobs]
    exact Moved.refl _
  simp only [Fallible.run_orFail_bind, Program.call_bind, Program.done_bind]
  refine yields_listUnfinishedOlderThan (fun e => ?_) ?_
  · show Moved _ _ _ _ reading.jobs
    rw [hjobs]
    exact Moved.refl _
  rw [hjobs]
  have hcalled : reading.called.jobs = world.jobs := hjobs
  rw [← hcalled]
  refine reap_moved config.timeoutSecs _ 0 ?_ ?_
  · intro job hjob
    obtain ⟨hmem, hkeep⟩ := List.mem_filter.mp hjob
    obtain ⟨hunfinished, hold⟩ := of_decide_eq_true hkeep
    refine ⟨(Table.get_eq_some _ _ _).mpr ⟨hmem, rfl⟩, hunfinished, ?_⟩
    cases hadapter : env.adapter with
    | inMemory => simpa only [hadapter] using hold
    | postgres =>
        rw [hadapter] at hold
        exact hold.trans_le (truncSubsecs6_le _)
  · exact reading.called.jobs.nodup.sublist (List.filter_sublist.map _)

-- What becomes of the stored jobs when one operation is served alone.
theorem serve_moved (config : JobConfig) (env : JobEnv) (world : JobWorld) {op : JobOp}
    (hop : op.launches = false) :
    Moved config (env.clock world.readings) op world.jobs (env.serve config world op).2.jobs := by
  show ((op.program config).Yields env.handle
    (fun _ later => Moved config (env.clock world.readings) op world.jobs later.jobs) world)
  cases op with
  | launch _ _ _ | runDue => cases hop
  | start jobId => exact (Program.yields_bind _ _ _ _).mpr (start_moved jobId)
  | complete jobId results => exact (Program.yields_bind _ _ _ _).mpr (complete_moved jobId results)
  | recordStep jobId step => exact (Program.yields_bind _ _ _ _).mpr (recordStep_moved jobId step)
  | requestInput jobId question =>
      exact (Program.yields_bind _ _ _ _).mpr (requestInput_moved jobId question)
  | recordUsage jobId usage =>
      exact (Program.yields_bind _ _ _ _).mpr (recordUsage_moved jobId usage)
  | fail jobId error => exact (Program.yields_bind _ _ _ _).mpr (fail_moved jobId error)
  | answer userId jobId text => exact (Program.yields_bind _ _ _ _).mpr (answer_moved userId jobId text)
  | failStale => exact (Program.yields_bind _ _ _ _).mpr (failStale_moved rfl)

end Moves

end AgentBoilerplate.Job
