import AgentBoilerplate.Job.Lemmas

namespace AgentBoilerplate.Job

open Effects Collections

-- The readings of the clock, and the identifier drawn but not yet used.
def readings (past : List (Event JobPorts)) : List Int :=
  past.filterMap fun
    | ⟨.utcNow, instant⟩ => some instant
    | _ => none

def pendingId (past : List (Event JobPorts)) : Option Uuid :=
  past.foldl (fun drawn event => match event with
    | ⟨.newUuid, id⟩ => some id
    | ⟨.insert _, _⟩ => none
    | _ => drawn) none

-- The operation has inserted a job of this identifier, user and creation time.
def Inserted (past : List (Event JobPorts)) (job : ResearchJob) : Prop :=
  ∃ stored, (⟨.insert stored, .ok ()⟩ : Event JobPorts) ∈ past ∧ stored.id = job.id ∧
    stored.userId = job.userId ∧ stored.createdAt = job.createdAt

-- A launching operation counts, then draws an identifier and reads the clock,
-- then inserts; it only updates what it has inserted.
def LaunchesJobs (past : List (Event JobPorts)) : JobCall → Prop
  | .insert job => pendingId past = some job.id ∧ ∃ now created used,
      (⟨.countCreatedSince job.userId (now - Duration.hours 24), .ok used⟩ : Event JobPorts) ∈ past ∧
        List.Sublist [now, created] (readings past) ∧ job.createdAt = truncSubsecs6 created
  | .update job => Inserted past job
  | .addUsage _ _ => False
  | _ => True

section Shape

variable {ε β : Type} {past later : List (Event JobPorts)} {job : ResearchJob}

theorem pendingId_append (past : List (Event JobPorts)) (event : Event JobPorts) :
    pendingId (past ++ [event]) = match event with
      | ⟨.newUuid, id⟩ => some id
      | ⟨.insert _, _⟩ => none
      | _ => pendingId past := by
  rw [pendingId, List.foldl_append]
  rfl

theorem pendingId_other (past : List (Event JobPorts)) {request : JobCall}
    {answer : request.Answer} (hid : request ≠ .newUuid) (hinsert : ∀ job, request ≠ .insert job) :
    pendingId (past ++ [⟨request, answer⟩]) = pendingId past := by
  rw [pendingId_append]
  cases request with
  | newUuid => exact absurd rfl hid
  | insert job => exact absurd rfl (hinsert job)
  | _ => rfl

theorem readings_append (past events : List (Event JobPorts)) :
    readings (past ++ events) = readings past ++ readings events :=
  List.filterMap_append

theorem readings_other (past : List (Event JobPorts)) {request : JobCall}
    {answer : request.Answer} (h : request ≠ .utcNow) :
    readings (past ++ [⟨request, answer⟩]) = readings past := by
  rw [readings_append]
  cases request with
  | utcNow => exact absurd rfl h
  | _ => exact List.append_nil _

theorem readings_extend (h : past <+: later) {now : Int} (hnow : now ∈ readings past) :
    now ∈ readings later := by
  obtain ⟨events, rfl⟩ := h
  rw [readings_append]
  exact List.mem_append_left _ hnow

theorem Inserted.extend (h : Inserted past job) (hlater : past <+: later) : Inserted later job := by
  obtain ⟨stored, hstored, heq⟩ := h
  exact ⟨stored, hlater.mem hstored, heq⟩

theorem inserted_append (past : List (Event JobPorts)) (event : Event JobPorts) :
    Inserted (past ++ [event]) job ↔ Inserted past job ∨ ∃ stored, event = ⟨.insert stored, .ok ()⟩ ∧
      stored.id = job.id ∧ stored.userId = job.userId ∧ stored.createdAt = job.createdAt := by
  simp only [Inserted, List.mem_append, List.mem_singleton, or_and_right, exists_or, eq_comm]

theorem Inserted.fail (h : Inserted past job) (clock : Int) (error : String) :
    Inserted past (job.fail clock error) := by
  have hidentity := ResearchJob.apply_identity job (.fail clock error)
  simp only [ResearchJob.apply, ResearchJob.identity, Prod.mk.injEq] at hidentity
  obtain ⟨stored, hstored, hid, huser, hcreated⟩ := h
  exact ⟨stored, hstored, hid.trans hidentity.1.symm, huser.trans hidentity.2.1.symm,
    hcreated.trans hidentity.2.2.2.2.2.2.symm⟩

theorem inserted_failNow_calls (job : ResearchJob) {error : String} {f : ResearchJob → Program JobPorts β}
    (hjob : Inserted past job)
    (h : ∀ job later, Inserted later job → past <+: later → (f job).Calls LaunchesJobs later) :
    (job.failNow error >>= f).Calls LaunchesJobs past :=
  failNow_calls trivial (h job past hjob (List.prefix_refl past)) fun clock =>
    h _ _ ((hjob.extend (List.prefix_append past _)).fail clock error) (List.prefix_append past _)

-- After the count and `ResearchJob::new`, the insert is in order.
theorem launchesJobs_insert (now : Int) {clock : Int} {id : Uuid} (used : Nat)
    (hnow : now ∈ readings past)
    (hcount : (⟨.countCreatedSince job.userId (now - Duration.hours 24), .ok used⟩ :
      Event JobPorts) ∈ past)
    (hid : job.id = id) (hcreated : job.createdAt = truncSubsecs6 clock) :
    LaunchesJobs (past ++ [⟨.newUuid, id⟩] ++ [⟨.utcNow, clock⟩]) (.insert job) := by
  refine ⟨?_, now, clock, used, by simp [hcount], ?_, hcreated⟩
  · rw [pendingId_append, pendingId_append, hid]
  rw [readings_append, readings_append]
  simpa [readings] using (List.singleton_sublist.mpr hnow).append (List.Sublist.refl [clock])

theorem launchSearch_calls (dailyQuota : Nat) (userId : Uuid) (keyword : String) (mode : JobMode) :
    (launchSearch dailyQuota userId keyword mode).run.Calls LaunchesJobs past := by
  simp only [launchSearch, Fallible.run_lift_bind, ask, Program.call_bind, Program.done_bind]
  refine ⟨trivial, fun now => ?_⟩
  simp only [Fallible.run_orFail_bind, Program.call_bind, Program.done_bind]
  refine ⟨trivial, ?_⟩
  rintro (e | used)
  · trivial
  dsimp only
  split
  · trivial
  simp only [Fallible.run_orFail_bind, Program.call_bind, Program.done_bind]
  refine newNow_calls trivial (fun _ => trivial) (fun _ _ => trivial) fun id clock job hjob => ?_
  obtain ⟨hid, huser, hcreated⟩ := ResearchJob.new_eq hjob
  refine ⟨launchesJobs_insert now used (by simp [readings])
    (by simp [ResearchJob.withMode, huser]) hid hcreated, ?_⟩
  rintro (e | _)
  · trivial
  have hinserted : Inserted (past ++ [⟨.utcNow, now⟩] ++
      [⟨.countCreatedSince userId (now - Duration.hours 24), .ok used⟩] ++ [⟨.newUuid, id⟩] ++
      [⟨.utcNow, clock⟩] ++ [⟨.insert (job.withMode mode), .ok ()⟩]) (job.withMode mode) :=
    ⟨job.withMode mode, by simp, rfl, rfl, rfl⟩
  simp only [dispatchOrFail, Fallible.run_lift_bind, ask, Program.call_bind, Program.done_bind]
  refine ⟨trivial, ?_⟩
  rintro (e | _)
  · simp only [Fallible.run_lift_bind]
    refine inserted_failNow_calls _ (hinserted.extend (List.prefix_append _ _))
      fun job later hjob _ => ?_
    simp only [Fallible.run_orFail_bind, Program.call_bind, Program.done_bind]
    refine ⟨hjob, ?_⟩
    rintro (e | _) <;> trivial
  · trivial

-- One due search, in a tick that has read the clock.
theorem runOne_calls (dailyQuota : Nat) {now : Int} (search : RecurringSearch)
    (hnow : now ∈ readings past) :
    (RunDueSearches.runOne dailyQuota now search).run.Calls LaunchesJobs past := by
  simp only [RunDueSearches.runOne, Fallible.run_orFail_bind, ask, Program.call_bind,
    Program.done_bind]
  refine ⟨trivial, ?_⟩
  rintro (e | used)
  · trivial
  dsimp only
  split
  · simp only [Fallible.run_orFail_bind, Program.call_bind, Program.done_bind]
    refine ⟨trivial, ?_⟩
    rintro (e | _) <;> trivial
  simp only [Fallible.run_orFail_bind, Program.call_bind, Program.done_bind]
  refine ⟨trivial, ?_⟩
  rintro (e | seenUrls)
  · trivial
  dsimp only
  refine newNow_calls trivial (fun _ => trivial) (fun _ _ => trivial) fun id clock job hjob => ?_
  obtain ⟨hid, huser, hcreated⟩ := ResearchJob.new_eq hjob
  refine ⟨launchesJobs_insert now used (by simp [readings_append, hnow])
    (by simp [ResearchJob.withMode, ResearchJob.withRecurring, huser]) hid hcreated, ?_⟩
  rintro (e | _)
  · trivial
  simp only [Fallible.run_lift_bind, Program.call_bind, Program.done_bind]
  refine ⟨trivial, ?_⟩
  rintro (e | _)
  · simp only [Fallible.run_lift_bind]
    refine inserted_failNow_calls ((job.withMode search.mode).withRecurring search.id)
      ⟨_, by simp, rfl, rfl, rfl⟩ fun job later hjob _ => ?_
    simp only [Fallible.run_orFail_bind, Program.call_bind, Program.done_bind]
    refine ⟨hjob, ?_⟩
    rintro (e | _)
    · trivial
    · refine ⟨trivial, ?_⟩
      rintro (e | _) <;> trivial
  · simp only [Fallible.run_orFail_bind, Program.call_bind, Program.done_bind]
    refine ⟨trivial, ?_⟩
    rintro (e | _) <;> trivial

theorem runAll_calls (dailyQuota : Nat) {now : Int} (due : List RecurringSearch) (launched : Nat)
    (hnow : now ∈ readings past) :
    (RunDueSearches.runAll dailyQuota now due launched).run.Calls LaunchesJobs past := by
  induction due generalizing past launched with
  | nil => trivial
  | cons search due ih =>
      exact Fallible.calls_bind (runOne_calls dailyQuota search hnow) fun later more hlater =>
        ih _ (readings_extend hlater hnow)

theorem runDue_calls (dailyQuota : Nat) :
    (RunDueSearches.execute dailyQuota).run.Calls LaunchesJobs past := by
  simp only [RunDueSearches.execute, Fallible.run_lift_bind, ask, Program.call_bind,
    Program.done_bind]
  refine ⟨trivial, fun now => ?_⟩
  simp only [Fallible.run_orFail_bind, Program.call_bind, Program.done_bind]
  refine ⟨trivial, ?_⟩
  rintro (e | due)
  · trivial
  · exact runAll_calls dailyQuota due 0 (by simp [readings])

theorem launches_calls {op : JobOp} (config : JobConfig) (hop : op.launches = true) :
    (op.program config).Calls LaunchesJobs past := by
  cases op with
  | launch userId keyword mode =>
      exact (Program.calls_bind_pure _ _ _).mpr (launchSearch_calls _ userId keyword mode)
  | runDue => exact (Program.calls_bind_pure _ _ _).mpr (runDue_calls _)
  | _ => cases hop

end Shape

end AgentBoilerplate.Job
