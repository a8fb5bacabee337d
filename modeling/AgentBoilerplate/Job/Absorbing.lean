import AgentBoilerplate.Job.Lemmas

namespace AgentBoilerplate.Job

open Effects Collections

-- The copies of jobs that an operation has read.
def copies (past : List (Event JobPorts)) : List ResearchJob :=
  past.flatMap fun
    | ⟨.find _, .ok (some job)⟩ => [job]
    | ⟨.listUnfinishedOlderThan _, .ok jobs⟩ => jobs
    | _ => []

namespace JobOp

def completes : JobOp → Bool
  | .complete _ _ => true
  | _ => false

end JobOp

-- A write is no older than a completed row: the operation completes the job,
-- or it read the job completed.
def WritesFresh (op : JobOp) (world : JobWorld) (past : List (Event JobPorts)) : JobCall → Prop
  | .update job => (∃ row ∈ world.jobs.rows, row.id = job.id ∧ row.status = .completed) →
      op.completes = true ∨ ∀ copy ∈ copies past, copy.id = job.id → copy.status = .completed
  | _ => True

instance (op : JobOp) (world : JobWorld) (past : List (Event JobPorts)) :
    (request : JobCall) → Decidable (WritesFresh op world past request)
  | .update job => inferInstanceAs (Decidable
      ((∃ row ∈ world.jobs.rows, row.id = job.id ∧ row.status = .completed) →
        op.completes = true ∨ ∀ copy ∈ copies past, copy.id = job.id → copy.status = .completed))
  | .insert _ | .find _ | .countCreatedSince _ _ | .listUnfinishedOlderThan _ | .storeResults _ _
  | .appendStep _ _ | .clearSteps _ | .addUsage _ _ | .recentUrlsForRecurring _ _
  | .findRecurring _ | .listDue _ | .markRan _ _ | .listChannels _ | .sendDigest _ _
  | .notify _ _ | .dispatch _ _ | .utcNow | .newUuid => isTrue trivial

-- A job that comes from a copy read, by transitions that do not complete it.
def Derived (past : List (Event JobPorts)) (job : ResearchJob) : Prop :=
  ∃ copy ∈ copies past, ∃ calls : List Transition,
    job = copy.after calls ∧ ∀ clock, .complete clock ∉ calls

-- An operation that launches nothing only writes jobs that come from its
-- copies; a completing one writes a copy completed.
def WritesCopy (completes : Bool) (past : List (Event JobPorts)) : JobCall → Prop
  | .insert _ => False
  | .update job =>
      if completes then ∃ copy ∈ copies past, ∃ clock, job = copy.complete clock
      else Derived past job
  | _ => True

section Shape

variable {β ε : Type} {completes : Bool} {past : List (Event JobPorts)} {job : ResearchJob}

theorem copies_extend {later : List (Event JobPorts)} (h : past <+: later)
    (hjob : job ∈ copies past) : job ∈ copies later := by
  obtain ⟨events, rfl⟩ := h
  rw [copies, List.flatMap_append]
  exact List.mem_append_left _ hjob

namespace Derived

theorem copy (h : job ∈ copies past) : Derived past job := ⟨job, h, [], rfl, by simp⟩

theorem extend {later : List (Event JobPorts)} (h : Derived past job) (hlater : past <+: later) :
    Derived later job := by
  obtain ⟨copy, hcopy, calls, hjob, hcalls⟩ := h
  exact ⟨copy, copies_extend hlater hcopy, calls, hjob, hcalls⟩

theorem append (h : Derived past job) (event : Event JobPorts) : Derived (past ++ [event]) job :=
  h.extend (List.prefix_append past _)

theorem apply (h : Derived past job) (call : Transition) (hcall : ∀ clock, call ≠ .complete clock) :
    Derived past (job.apply call).2 := by
  obtain ⟨copy, hcopy, calls, rfl, hcalls⟩ := h
  refine ⟨copy, hcopy, calls ++ [call], ?_, fun clock hmem => ?_⟩
  · simp [ResearchJob.after]
  · rcases List.mem_append.mp hmem with hmem | hmem
    · exact hcalls clock hmem
    · exact hcall clock (List.mem_singleton.mp hmem).symm

end Derived

theorem findJob_calls {jobId : Uuid} {f : ResearchJob → UseCase IngestError β}
    (h : ∀ job past, job ∈ copies past → (f job).run.Calls (WritesCopy completes) past) :
    (IngestResults.findJob jobId >>= f).run.Calls (WritesCopy completes) past := by
  rw [run_findJob_bind]
  refine ⟨trivial, ?_⟩
  rintro (e | _ | job)
  · trivial
  · trivial
  · exact h job _ (by simp [copies])

theorem derived_failNow_calls {error : String} {f : ResearchJob → Program JobPorts β}
    (hjob : Derived past job)
    (h : ∀ job later, Derived later job → past <+: later → (f job).Calls (WritesCopy false) later) :
    (job.failNow error >>= f).Calls (WritesCopy false) past :=
  failNow_calls trivial (h job past hjob (List.prefix_refl past)) fun clock =>
    h _ _ ((hjob.append _).apply (.fail clock error) nofun) (List.prefix_append past _)

theorem dispatchOrFail_calls {infrastructure : PortError → ε} {dispatchFailed : ε}
    {seenUrls : List String} (hjob : Derived past job) :
    (dispatchOrFail infrastructure dispatchFailed job seenUrls).run.Calls
      (WritesCopy false) past := by
  simp only [dispatchOrFail, Fallible.run_lift_bind, ask, Program.call_bind, Program.done_bind]
  refine ⟨trivial, ?_⟩
  rintro (e | _)
  · simp only [Fallible.run_lift_bind]
    refine derived_failNow_calls (hjob.append _) fun job later hjob _ => ?_
    simp only [Fallible.run_orFail_bind, Program.call_bind, Program.done_bind]
    refine ⟨hjob, ?_⟩
    rintro (e | _) <;> trivial
  · trivial

theorem maybeSendDigest_calls (results : List SearchResult) :
    (IngestResults.maybeSendDigest job results).Calls (WritesCopy completes) past := by
  refine (maybeSendDigest_quiet job results past).mono fun past request hquiet => ?_
  cases request with
  | insert _ | update _ => cases hquiet
  | _ => trivial

theorem start_calls (jobId : Uuid) :
    (IngestResults.start jobId).run.Calls (WritesCopy false) past := by
  refine findJob_calls fun job past hjob => ?_
  simp only [Fallible.run_orFail, ask, Program.call_bind, Program.done_bind]
  refine ⟨(Derived.copy hjob).apply .start nofun, ?_⟩
  rintro (e | _) <;> trivial

theorem complete_calls (jobId : Uuid) (results : List SearchResult) :
    (IngestResults.complete jobId results).run.Calls (WritesCopy true) past := by
  refine findJob_calls fun job past hjob => ?_
  simp only [Fallible.run_orFail_bind, Fallible.run_lift_bind, ResearchJob.completeNow, ask,
    Program.call_bind, Program.done_bind, Program.pure_eq]
  refine ⟨trivial, ?_⟩
  rintro (e | _)
  · trivial
  refine ⟨trivial, fun clock => ⟨⟨job, ?_, clock, rfl⟩, ?_⟩⟩
  · exact copies_extend ((List.prefix_append _ _).trans (List.prefix_append _ _)) hjob
  rintro (e | _)
  · trivial
  · exact (Program.calls_bind_pure _ _ _).mpr (maybeSendDigest_calls results)

theorem fail_calls (jobId : Uuid) (error : String) :
    (IngestResults.fail jobId error).run.Calls (WritesCopy false) past := by
  refine findJob_calls fun job past hjob => ?_
  simp only [Fallible.run_lift_bind]
  refine derived_failNow_calls (Derived.copy hjob) fun job later hjob _ => ?_
  simp only [Fallible.run_orFail, ask, Program.call_bind, Program.done_bind]
  refine ⟨hjob, ?_⟩
  rintro (e | _) <;> trivial

theorem recordStep_calls (jobId : Uuid) (step : AgentStep) :
    (IngestResults.recordStep jobId step).run.Calls (WritesCopy false) past := by
  refine findJob_calls fun job past _ => ?_
  simp only [Fallible.run_orFail, ask, Program.call_bind, Program.done_bind]
  refine ⟨trivial, ?_⟩
  rintro (e | _) <;> trivial

theorem recordUsage_calls (jobId : Uuid) (usage : JobUsage) :
    (IngestResults.recordUsage jobId usage).run.Calls (WritesCopy false) past := by
  refine findJob_calls fun job past _ => ?_
  simp only [Fallible.run_orFail, ask, Program.call_bind, Program.done_bind]
  refine ⟨trivial, ?_⟩
  rintro (e | _) <;> trivial

theorem requestInput_calls (jobId : Uuid) (question : String) :
    (IngestResults.requestInput jobId question).run.Calls (WritesCopy false) past := by
  refine findJob_calls fun job past hjob => ?_
  have hasked := (Derived.copy hjob).apply (.requestInput question) nofun
  rw [ResearchJob.apply] at hasked
  rcases hresult : job.requestInput question with ⟨_ | _, asked⟩
  · trivial
  · rw [hresult] at hasked
    simp only [Fallible.run_orFail, ask, Program.call_bind, Program.done_bind]
    refine ⟨hasked, ?_⟩
    rintro (e | _) <;> trivial

theorem answerClarification_calls (userId jobId : Uuid) (answer : String) :
    (answerClarification userId jobId answer).run.Calls (WritesCopy false) past := by
  simp only [answerClarification, Fallible.run_orFail_bind, ask, Program.call_bind,
    Program.done_bind]
  refine ⟨trivial, ?_⟩
  rintro (e | found)
  · trivial
  dsimp only
  cases hfound : found.filter fun job => job.userId = userId with
  | none => trivial
  | some job =>
      obtain rfl : found = some job := (Option.filter_eq_some_iff.mp hfound).1
      have hcopy : job ∈ copies (past ++ [⟨.find jobId, .ok (some job)⟩]) := by simp [copies]
      have hanswered := (Derived.copy hcopy).apply (.provideAnswer answer) nofun
      rw [ResearchJob.apply] at hanswered
      dsimp only
      rcases hresult : job.provideAnswer answer with ⟨_ | _, answered⟩
      · trivial
      rw [hresult] at hanswered
      simp only [Fallible.run_orFail_bind, Program.call_bind, Program.done_bind]
      refine ⟨trivial, ?_⟩
      rintro (e | _)
      · trivial
      refine ⟨hanswered.append _, ?_⟩
      rintro (e | _)
      · trivial
      dsimp only
      split
      · simp only [Fallible.run_orFail_bind, Program.call_bind, Program.done_bind]
        refine ⟨trivial, ?_⟩
        rintro (e | seenUrls)
        · trivial
        · exact dispatchOrFail_calls (((hanswered.append _).append _).append _)
      · exact dispatchOrFail_calls ((hanswered.append _).append _)

-- The loop of the reaper, over jobs it has all read.
theorem reap_calls (timeoutSecs : Nat) (stale : List ResearchJob) (reaped : Nat)
    (hstale : ∀ job ∈ stale, Derived past job) :
    (FailStaleJobs.reap timeoutSecs stale reaped).run.Calls (WritesCopy false) past := by
  induction stale generalizing past reaped with
  | nil => trivial
  | cons job stale ih =>
      simp only [FailStaleJobs.reap, Fallible.run_lift_bind]
      refine derived_failNow_calls (hstale job List.mem_cons_self) fun job later hjob hlater => ?_
      simp only [Fallible.run_orFail_bind, ask, Program.call_bind, Program.done_bind]
      refine ⟨hjob, ?_⟩
      rintro (e | _)
      · trivial
      · exact ih _ fun other hother =>
          ((hstale other (List.mem_cons_of_mem _ hother)).extend hlater).append _

theorem failStale_calls (timeoutSecs : Nat) :
    (FailStaleJobs.execute timeoutSecs).run.Calls (WritesCopy false) past := by
  simp only [FailStaleJobs.execute, Fallible.run_lift_bind, ask, Program.call_bind,
    Program.done_bind]
  refine ⟨trivial, fun now => ?_⟩
  split
  · trivial
  · simp only [Fallible.run_orFail_bind, Program.call_bind, Program.done_bind]
    refine ⟨trivial, ?_⟩
    rintro (e | stale)
    · trivial
    · exact reap_calls timeoutSecs stale 0 fun job hjob =>
        Derived.copy (by simp [copies, hjob])

theorem op_calls {op : JobOp} (config : JobConfig) (hop : op.launches = false) :
    (op.program config).Calls (WritesCopy op.completes) past := by
  cases op with
  | launch _ _ _ | runDue => cases hop
  | start jobId => exact (Program.calls_bind_pure _ _ _).mpr (start_calls jobId)
  | complete jobId results => exact (Program.calls_bind_pure _ _ _).mpr (complete_calls jobId results)
  | recordStep jobId step => exact (Program.calls_bind_pure _ _ _).mpr (recordStep_calls jobId step)
  | requestInput jobId question =>
      exact (Program.calls_bind_pure _ _ _).mpr (requestInput_calls jobId question)
  | recordUsage jobId usage =>
      exact (Program.calls_bind_pure _ _ _).mpr (recordUsage_calls jobId usage)
  | fail jobId error => exact (Program.calls_bind_pure _ _ _).mpr (fail_calls jobId error)
  | answer userId jobId answer =>
      exact (Program.calls_bind_pure _ _ _).mpr (answerClarification_calls userId jobId answer)
  | failStale => exact (Program.calls_bind_pure _ _ _).mpr (failStale_calls config.timeoutSecs)

end Shape

section Absorbing

variable {env : JobEnv} {config : JobConfig} {ι : Type} {ops : ι → JobOp}

-- Every copy an operation is given agrees with its status.
def ReadsConsistent (event : Event JobPorts) : Prop :=
  ∀ copy ∈ copies [event], copy.Consistent

theorem reads_consistent {world : JobWorld} (h : ∀ row ∈ world.jobs, row.Consistent)
    (request : JobCall) : ReadsConsistent ⟨request, (env.handle request world).1⟩ := by
  intro copy hcopy
  cases request with
  | find id =>
      generalize hanswer : (env.handle (.find id) world).1 = answer at hcopy
      rcases answer with e | _ | job
      · simp [copies] at hcopy
      · simp [copies] at hcopy
      · obtain rfl : copy = job := by simpa [copies] using hcopy
        exact h copy (JobEnv.handle_find hanswer).1
  | listUnfinishedOlderThan cutoff =>
      generalize hanswer : (env.handle (.listUnfinishedOlderThan cutoff) world).1 = answer at hcopy
      rcases answer with e | stale
      · simp [copies] at hcopy
      · exact h copy (JobEnv.handle_listUnfinishedOlderThan hanswer (by simpa [copies] using hcopy))
  | _ => simp [copies] at hcopy

theorem copies_consistent {past : List (Event JobPorts)}
    (h : ∀ event ∈ past, ReadsConsistent event) : ∀ copy ∈ copies past, copy.Consistent := by
  intro copy hcopy
  obtain ⟨event, hevent, hmem⟩ := List.mem_flatMap.mp hcopy
  exact h event hevent copy (by simpa [copies] using hmem)

-- What holds between any two calls.
structure Lifecycles (ops : ι → JobOp) (c : JobRuns ι) : Prop where
  stored : ∀ row ∈ c.store.jobs, row.Consistent
  answered : c.Answered ReadsConsistent
  threaded : c.Threaded fun i past p => p.Asks (WritesCopy (ops i).completes past)

theorem Lifecycles.start {world : JobWorld} (hops : ∀ i, (ops i).launches = false)
    (hstored : ∀ row ∈ world.jobs, row.Consistent) :
    Lifecycles ops (jobRuns config world ops) where
  stored := hstored
  answered := Config.answered_start _ _ _
  threaded := Config.threaded_start (fun i => op_calls config (hops i)) world

-- What an operation writes agrees with its status, and it is completed where
-- the write is fresh.
theorem Lifecycles.write {c : JobRuns ι} (h : Lifecycles ops c) {i : ι} {job : ResearchJob}
    {next : Except PortError Unit → Program JobPorts JobOutcome}
    (hrest : (c.threads i).rest = .call (.update job) next) :
    job.Consistent ∧ (WritesFresh (ops i) c.store (c.threads i).past (.update job) →
      (∃ row ∈ c.store.jobs, row.id = job.id ∧ row.status = .completed) →
        job.status = .completed) := by
  have hcopies := copies_consistent (h.answered i)
  have hwrite : WritesCopy (ops i).completes (c.threads i).past (.update job) :=
    h.threaded.here hrest
  simp only [WritesCopy] at hwrite
  split at hwrite
  · obtain ⟨copy, hcopy, clock, rfl⟩ := hwrite
    exact ⟨ResearchJob.complete_consistent (hcopies copy hcopy) clock, fun _ _ => rfl⟩
  · rename_i hcompletes
    obtain ⟨copy, hcopy, calls, rfl, hcalls⟩ := hwrite
    refine ⟨ResearchJob.after_consistent (hcopies copy hcopy) calls, fun hfresh hrow => ?_⟩
    rcases hfresh hrow with hop | hread
    · exact absurd hop hcompletes
    · have hid : copy.id = (copy.after calls).id :=
        (congrArg Prod.fst (ResearchJob.after_identity copy calls)).symm
      exact (ResearchJob.after_completed copy calls).mpr (Or.inl (hread copy hcopy hid))

variable [DecidableEq ι]

theorem Lifecycles.advance {c : JobRuns ι} (h : Lifecycles ops c) {i : ι} {request : JobCall}
    {next : request.Answer → Program JobPorts JobOutcome}
    (hrest : (c.threads i).rest = .call request next) :
    Lifecycles ops (c.advance env.handle i request next) where
  stored row hrow := by
    have hinsert : ∀ job, request ≠ .insert job := by
      rintro job rfl
      exact h.threaded.here hrest
    rcases JobEnv.mem_handle_jobs hinsert hrow with ⟨old, hold, -, hlife⟩ | ⟨job, rfl, -, hlife⟩
    · exact (h.stored old hold).congr hlife
    · exact (h.write hrest).1.congr hlife
  answered := h.answered.advance (reads_consistent h.stored request)
  threaded := h.threaded.advance hrest

def CompletedRow (jobId : Uuid) (world : JobWorld) : Prop :=
  ∃ row ∈ world.jobs, row.id = jobId ∧ row.status = .completed

theorem completed_stays {c : JobRuns ι} {schedule : List ι} (h : Lifecycles ops c)
    (hfresh : c.Respects env.handle (fun i => WritesFresh (ops i)) schedule) {jobId : Uuid}
    (hrow : CompletedRow jobId c.store) :
    Lifecycles ops (c.run env.handle schedule) ∧
      CompletedRow jobId (c.run env.handle schedule).store := by
  refine Config.run_induction (fun c : JobRuns ι => Lifecycles ops c ∧ CompletedRow jobId c.store)
    ?_ ⟨h, hrow⟩ hfresh
  rintro c i request next ⟨h, row, hmem, rfl, hcompleted⟩ hrest hguard
  refine ⟨h.advance hrest, ?_⟩
  have hinsert : ∀ job, request ≠ .insert job := by
    rintro job rfl
    exact h.threaded.here hrest
  obtain ⟨later, hlater, hid, hlife | ⟨job, rfl, hjob, hlife⟩⟩ :=
    JobEnv.handle_jobs_mem env hinsert hmem
  · exact ⟨later, hlater, hid, (congrArg Prod.fst hlife).trans hcompleted⟩
  · have hdone := (h.write hrest).2 hguard ⟨row, hmem, hjob.symm, hcompleted⟩
    exact ⟨later, hlater, hid, (congrArg Prod.fst hlife).trans hdone⟩

theorem lifecycles_run {world : JobWorld} (schedule : List ι)
    (hops : ∀ i, (ops i).launches = false) (hstored : ∀ row ∈ world.jobs, row.Consistent) :
    Lifecycles ops ((jobRuns config world ops).run env.handle schedule) :=
  Config.run_induction (Lifecycles ops) (fun _ _ _ _ h hrest _ => h.advance hrest)
    (Lifecycles.start hops hstored) (Config.respects_true env.handle _ schedule)

-- Notifications, answers and reaper ticks on stored jobs, none of which writes
-- an older copy over a completed job: a completed job stays completed.
theorem completed_absorbing {world : JobWorld} {before after : List ι}
    (hops : ∀ i, (ops i).launches = false) (hstored : ∀ row ∈ world.jobs, row.Consistent)
    (hfresh : (jobRuns config world ops).Respects env.handle (fun i => WritesFresh (ops i))
      (before ++ after))
    {jobId : Uuid} {job : ResearchJob}
    (hjob : ((jobRuns config world ops).run env.handle before).store.jobs.get jobId = some job)
    (hcompleted : job.status = .completed) :
    ∃ later, ((jobRuns config world ops).run env.handle (before ++ after)).store.jobs.get jobId =
      some later ∧ later.status = .completed ∧ later.completedAt.isSome = true ∧
        later.error = none := by
  obtain ⟨hmem, hid⟩ := (Table.get_eq_some _ _ _).mp hjob
  obtain ⟨hlast, later, hlater, hlaterid, hstatus⟩ := completed_stays
    (lifecycles_run before hops hstored)
    ((Config.respects_append _ _ _ _ _).mp hfresh).2 ⟨job, hmem, hid, hcompleted⟩
  rw [Config.run_append]
  have hconsistent := hlast.stored later hlater
  refine ⟨later, (Table.get_eq_some _ _ _).mpr ⟨hlater, hlaterid⟩, hstatus,
    hconsistent.completedAt.mpr (Or.inl hstatus), ?_⟩
  have herror := hconsistent.error
  rw [hstatus] at herror
  simpa using herror

end Absorbing

-- The worker starts the job, delivers its results, and fails it late.
def notifications : Fin 3 → JobOp
  | 0 => .start Sample.job.id
  | 1 => .complete Sample.job.id []
  | 2 => .fail Sample.job.id "late"

-- The start reads the job pending and writes it after the results.
theorem completed_reopened :
    let start := jobRuns Sample.config Sample.world notifications
    let handle := (Sample.env .postgres).handle
    let delivered := start.run handle ([0] ++ List.replicate 4 1)
    let later := delivered.run handle [0]
    (delivered.store.jobs.get Sample.job.id).map ResearchJob.status = some .completed ∧
      (later.store.jobs.get Sample.job.id).map ResearchJob.status = some .running := by
  decide

-- Each notification after the one before it.
theorem completed_absorbing_in_turn :
    let start := jobRuns Sample.config Sample.world notifications
    let handle := (Sample.env .postgres).handle
    let delivered := [0, 0] ++ List.replicate 4 1
    ((start.run handle delivered).store.jobs.get Sample.job.id).map ResearchJob.status =
        some .completed ∧
      ∃ later, (start.run handle (delivered ++ [2, 2])).store.jobs.get Sample.job.id =
        some later ∧ later.status = .completed ∧ later.completedAt.isSome = true ∧
          later.error = none := by
  have hdelivered : ((jobRuns Sample.config Sample.world notifications).run
      (Sample.env .postgres).handle ([0, 0] ++ List.replicate 4 1)).store.jobs.get Sample.job.id =
        some { Sample.job with
          status := .completed
          completedAt := some (truncSubsecs6 (Sample.clock 0)) } := by decide
  refine ⟨by decide, completed_absorbing ?_ ?_ (by decide) hdelivered rfl⟩
  · intro i
    match i with
    | 0 | 1 | 2 => rfl
  · intro row hrow
    obtain rfl := List.mem_singleton.mp hrow
    exact Sample.job_created.consistent.1

end AgentBoilerplate.Job
