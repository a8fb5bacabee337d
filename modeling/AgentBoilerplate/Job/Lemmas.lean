import AgentBoilerplate.Effects.Footprint
import AgentBoilerplate.Job.Lifecycle
import AgentBoilerplate.Job.Store

namespace AgentBoilerplate.Job

open Effects Collections

-- What an adapter keeps of a time respects the order.
theorem timestamp_mono (adapter : Adapter) {earlier later : Int} (h : earlier ≤ later) :
    adapter.timestamp earlier ≤ adapter.timestamp later := by
  cases adapter with
  | inMemory => exact h
  | postgres =>
    unfold Adapter.timestamp truncSubsecs6
    dsimp only
    omega

-- The columns that an update writes.
def ResearchJob.lifecycle (job : ResearchJob) :
    JobStatus × Option String × Option String × Option String × Option Int :=
  (job.status, job.error, job.question, job.answer, job.completedAt)

theorem ResearchJob.Consistent.congr {a b : ResearchJob} (h : a.Consistent)
    (heq : b.lifecycle = a.lifecycle) : b.Consistent := by
  simp only [ResearchJob.lifecycle, Prod.mk.injEq] at heq
  obtain ⟨hstatus, herror, hquestion, hanswer, hcompletedAt⟩ := heq
  obtain ⟨h1, h2, h3, h4, h5⟩ := h
  constructor
  · rwa [hcompletedAt, hstatus]
  · rwa [herror, hstatus]
  · rwa [hstatus, hquestion]
  · rwa [hquestion]
  · rwa [hanswer, hquestion]

namespace Jobs

theorem mem_update {adapter : Adapter} {jobs : Jobs} {job row : ResearchJob}
    (h : row ∈ jobs.update adapter job) :
    row ∈ jobs ∧ row.id ≠ job.id ∨ row.id = job.id ∧ row.lifecycle = job.lifecycle := by
  unfold update at h
  cases adapter with
  | inMemory =>
      rcases (Table.mem_insert _ _ _).mp h with rfl | ⟨hold, hne⟩
      · exact Or.inr ⟨rfl, rfl⟩
      · exact Or.inl ⟨hold, hne⟩
  | postgres =>
      obtain ⟨old, hold, rfl⟩ := (Table.mem_modify _ _ _ _ _).mp h
      by_cases hid : old.id = job.id
      · rw [if_pos hid]
        exact Or.inr ⟨hid, rfl⟩
      · rw [if_neg hid]
        exact Or.inl ⟨hold, hid⟩

-- An update keeps every other row, and a row of its own identifier.
theorem update_mem (adapter : Adapter) {jobs : Jobs} (job : ResearchJob) {row : ResearchJob}
    (h : row ∈ jobs) : ∃ next ∈ jobs.update adapter job, next.id = row.id ∧
      next.lifecycle = if row.id = job.id then job.lifecycle else row.lifecycle := by
  by_cases hid : row.id = job.id
  · rw [if_pos hid]
    unfold update
    cases adapter with
    | inMemory => exact ⟨_, (Table.mem_insert _ _ _).mpr (Or.inl rfl), hid.symm, rfl⟩
    | postgres =>
        refine ⟨_, (Table.mem_modify _ _ _ _ _).mpr ⟨row, h, rfl⟩, ?_⟩
        rw [if_pos hid]
        exact ⟨rfl, rfl⟩
  · rw [if_neg hid]
    unfold update
    cases adapter with
    | inMemory => exact ⟨row, (Table.mem_insert _ _ _).mpr (Or.inr ⟨h, hid⟩), rfl, rfl⟩
    | postgres =>
        refine ⟨_, (Table.mem_modify _ _ _ _ _).mpr ⟨row, h, rfl⟩, ?_⟩
        rw [if_neg hid]
        exact ⟨rfl, rfl⟩

theorem mem_addUsage {jobs : Jobs} {jobId : Uuid} {usage : JobUsage} {row : ResearchJob}
    (h : row ∈ jobs.addUsage jobId usage) :
    ∃ old ∈ jobs, row.id = old.id ∧ row.lifecycle = old.lifecycle := by
  obtain ⟨old, hold, rfl⟩ := (Table.mem_modify _ _ _ _ _).mp h
  refine ⟨old, hold, ?_⟩
  split <;> exact ⟨rfl, rfl⟩

theorem addUsage_mem {jobs : Jobs} (jobId : Uuid) (usage : JobUsage) {row : ResearchJob}
    (h : row ∈ jobs) :
    ∃ next ∈ jobs.addUsage jobId usage, next.id = row.id ∧ next.lifecycle = row.lifecycle := by
  refine ⟨_, (Table.mem_modify _ _ _ _ _).mpr ⟨row, h, rfl⟩, ?_⟩
  split <;> exact ⟨rfl, rfl⟩

end Jobs

namespace JobEnv

variable {env : JobEnv} {world : JobWorld}

-- The only calls that change the stored jobs.
def touches : JobCall → Bool
  | .insert _ | .update _ | .addUsage _ _ => true
  | _ => false

theorem handle_untouched {request : JobCall} (h : touches request = false) :
    (env.handle request world).2.jobs = world.jobs := by
  cases request with
  | insert _ | update _ | addUsage _ _ => cases h
  | utcNow | newUuid => rfl
  | _ =>
      simp only [handle, attempt]
      split <;> rfl

theorem handle_uuids {request : JobCall} (h : request ≠ .newUuid) :
    (env.handle request world).2.uuids = world.uuids := by
  cases request with
  | newUuid => exact absurd rfl h
  | utcNow => rfl
  | _ =>
      simp only [handle, attempt]
      split <;> rfl

theorem handle_readings {request : JobCall} (h : request ≠ .utcNow) :
    (env.handle request world).2.readings = world.readings := by
  cases request with
  | utcNow => exact absurd rfl h
  | newUuid => rfl
  | _ =>
      simp only [handle, attempt]
      split <;> rfl

theorem handle_uuids_le (env : JobEnv) (request : JobCall) (world : JobWorld) :
    world.uuids ≤ (env.handle request world).2.uuids := by
  by_cases hid : request = .newUuid
  · subst hid
    exact Nat.le_succ _
  · rw [handle_uuids hid]

theorem handle_readings_le (env : JobEnv) (request : JobCall) (world : JobWorld) :
    world.readings ≤ (env.handle request world).2.readings := by
  by_cases hnow : request = .utcNow
  · subst hnow
    exact Nat.le_succ _
  · rw [handle_readings hnow]

-- Where a row comes from, but for an insert.
theorem mem_handle_jobs {request : JobCall} (hinsert : ∀ job, request ≠ .insert job)
    {row : ResearchJob} (h : row ∈ (env.handle request world).2.jobs) :
    (∃ old ∈ world.jobs, row.id = old.id ∧ row.lifecycle = old.lifecycle) ∨
      ∃ job, request = .update job ∧ row.id = job.id ∧ row.lifecycle = job.lifecycle := by
  cases request with
  | insert job => exact absurd rfl (hinsert job)
  | update job =>
      simp only [handle, attempt] at h
      split at h
      · exact Or.inl ⟨row, h, rfl, rfl⟩
      · rcases Jobs.mem_update h with ⟨hold, -⟩ | ⟨hid, hlife⟩
        · exact Or.inl ⟨row, hold, rfl, rfl⟩
        · exact Or.inr ⟨job, rfl, hid, hlife⟩
  | addUsage jobId usage =>
      simp only [handle, attempt] at h
      split at h
      · exact Or.inl ⟨row, h, rfl, rfl⟩
      · exact Or.inl (Jobs.mem_addUsage h)
  | _ =>
      rw [handle_untouched rfl] at h
      exact Or.inl ⟨row, h, rfl, rfl⟩

-- What becomes of a row, but for an insert.
theorem handle_jobs_mem (env : JobEnv) {request : JobCall} (hinsert : ∀ job, request ≠ .insert job)
    {row : ResearchJob} (h : row ∈ world.jobs) :
    ∃ next ∈ (env.handle request world).2.jobs, next.id = row.id ∧
      (next.lifecycle = row.lifecycle ∨
        ∃ job, request = .update job ∧ job.id = row.id ∧ next.lifecycle = job.lifecycle) := by
  cases request with
  | insert job => exact absurd rfl (hinsert job)
  | update job =>
      simp only [handle, attempt]
      split
      · exact ⟨row, h, rfl, Or.inl rfl⟩
      · obtain ⟨next, hnext, hid, hlife⟩ := Jobs.update_mem env.adapter job h
        refine ⟨next, hnext, hid, ?_⟩
        split at hlife
        · rename_i hrow
          exact Or.inr ⟨job, rfl, hrow.symm, hlife⟩
        · exact Or.inl hlife
  | addUsage jobId usage =>
      simp only [handle, attempt]
      split
      · exact ⟨row, h, rfl, Or.inl rfl⟩
      · obtain ⟨next, hnext, hid, hlife⟩ := Jobs.addUsage_mem jobId usage h
        exact ⟨next, hnext, hid, Or.inl hlife⟩
  | _ =>
      rw [handle_untouched rfl]
      exact ⟨row, h, rfl, Or.inl rfl⟩

theorem handle_find {id : Uuid} {job : ResearchJob}
    (h : (env.handle (.find id) world).1 = .ok (some job)) : job ∈ world.jobs ∧ job.id = id := by
  simp only [handle, attempt] at h
  split at h
  · cases h
  · exact (Table.get_eq_some _ _ _).mp (Except.ok.inj h)

theorem handle_listUnfinishedOlderThan {cutoff : Int} {stale : List ResearchJob}
    (h : (env.handle (.listUnfinishedOlderThan cutoff) world).1 = .ok stale) {job : ResearchJob}
    (hjob : job ∈ stale) : job ∈ world.jobs := by
  simp only [handle, attempt] at h
  split at h
  · cases h
  · rw [← Except.ok.inj h] at hjob
    exact List.mem_of_mem_filter hjob

end JobEnv

-- The calls that change neither the stored jobs nor the journals, and whose
-- answers the stored jobs do not depend on.
def quiet : JobCall → Bool
  | .insert _ | .update _ | .find _ | .listUnfinishedOlderThan _ | .appendStep _ _
  | .clearSteps _ | .addUsage _ _ | .utcNow | .newUuid => false
  | _ => true

-- The calls that a digest makes.
def notifies : JobCall → Bool
  | .findRecurring _ | .listChannels _ | .sendDigest _ _ | .notify _ _ => true
  | _ => false

theorem notifyAll_notifies (digest : Digest) (channels : List NotificationChannel) :
    (IngestResults.notifyAll digest channels).Within (notifies · = true) := by
  induction channels with
  | nil => trivial
  | cons channel channels ih => exact ⟨rfl, fun _ => ih⟩

theorem notifyChannels_notifies (userId : Uuid) (digest : Digest) :
    (IngestResults.notifyChannels userId digest).Within (notifies · = true) := by
  refine ⟨rfl, fun answer => ?_⟩
  cases answer with
  | error e => trivial
  | ok channels => exact notifyAll_notifies digest channels

theorem maybeSendDigest_notifies (job : ResearchJob) (results : List SearchResult) :
    (IngestResults.maybeSendDigest job results).Within (notifies · = true) := by
  unfold IngestResults.maybeSendDigest
  split
  · trivial
  dsimp only
  split
  · trivial
  simp only [ask, Program.call_bind, Program.done_bind]
  refine ⟨rfl, ?_⟩
  rintro (e | _ | search)
  · trivial
  · trivial
  dsimp only
  split
  · exact ⟨rfl, fun _ => notifyChannels_notifies _ _⟩
  · exact notifyChannels_notifies _ _

theorem maybeSendDigest_quiet (job : ResearchJob) (results : List SearchResult)
    (past : List (Event JobPorts)) :
    (IngestResults.maybeSendDigest job results).Calls (fun _ request => quiet request = true)
      past := by
  refine Program.Within.calls ((maybeSendDigest_notifies job results).mono ?_) past
  intro request hnotifies
  cases request with
  | findRecurring _ | listChannels _ | sendDigest _ _ | notify _ _ => rfl
  | _ => cases hnotifies

-- The specification of the lookup every worker notification starts with.
theorem run_findJob_bind {β : Type} (jobId : Uuid) (f : ResearchJob → UseCase IngestError β) :
    (IngestResults.findJob jobId >>= f).run = .call (.find jobId) fun
      | .ok (some job) => (f job).run
      | .ok none => .done (.error .jobNotFound)
      | .error e => .done (.error (.infrastructure e)) := by
  simp only [IngestResults.findJob, bind_assoc, Fallible.run_orFail_bind, ask, Program.call_bind,
    Program.done_bind]
  congr 1
  funext answer
  rcases answer with e | _ | job <;> rfl

theorem failNow_calls {β : Type} {allowed : List (Event JobPorts) → JobCall → Prop}
    {past : List (Event JobPorts)} {job : ResearchJob} {error : String}
    {f : ResearchJob → Program JobPorts β} (hclock : allowed past .utcNow)
    (hsame : (f job).Calls allowed past)
    (hfail : ∀ clock, (f (job.fail clock error)).Calls allowed (past ++ [⟨.utcNow, clock⟩])) :
    (job.failNow error >>= f).Calls allowed past := by
  unfold ResearchJob.failNow
  split
  · exact hsame
  · exact ⟨hclock, hfail⟩

theorem ResearchJob.new_eq {id userId : Uuid} {clock : Int} {keyword : String} {job : ResearchJob}
    (h : ResearchJob.new id clock userId keyword = .ok job) :
    job.id = id ∧ job.userId = userId ∧ job.createdAt = truncSubsecs6 clock := by
  unfold ResearchJob.new at h
  dsimp only at h
  split at h
  · cases h
  · split at h
    · cases h
    · cases h
      exact ⟨rfl, rfl, rfl⟩

theorem newNow_bind {β : Type} (userId : Uuid) (keyword : String)
    (f : Except JobError ResearchJob → Program JobPorts β) :
    (ResearchJob.newNow userId keyword >>= f) =
      if (trim keyword).isEmpty then f (.error .emptyKeyword)
      else if (trim keyword).length > maxKeywordLen then f (.error .keywordTooLong)
      else .call .newUuid fun id => .call .utcNow fun clock =>
        f (ResearchJob.new id clock userId keyword) := by
  unfold ResearchJob.newNow
  split_ifs <;> rfl

theorem newNow_calls {β : Type} {allowed : List (Event JobPorts) → JobCall → Prop}
    {past : List (Event JobPorts)} {userId : Uuid} {keyword : String}
    {f : Except JobError ResearchJob → Program JobPorts β} (hid : allowed past .newUuid)
    (hclock : ∀ id, allowed (past ++ [⟨.newUuid, id⟩]) .utcNow)
    (herror : ∀ later e, (f (.error e)).Calls allowed later)
    (h : ∀ id clock job, ResearchJob.new id clock userId keyword = .ok job →
      (f (.ok job)).Calls allowed (past ++ [⟨.newUuid, id⟩] ++ [⟨.utcNow, clock⟩])) :
    (ResearchJob.newNow userId keyword >>= f).Calls allowed past := by
  rw [newNow_bind]
  -- which check refuses the keyword plays no part
  generalize (trim keyword).length = length
  generalize (trim keyword).isEmpty = empty
  refine Program.calls_ite (fun _ => herror _ _) fun _ =>
    Program.calls_ite (fun _ => herror _ _) fun _ =>
      ⟨hid, fun id => ⟨hclock id, fun clock => ?_⟩⟩
  have hjob := h id clock
  beta_reduce
  generalize ResearchJob.new id clock userId keyword = result at hjob ⊢
  cases result with
  | error e => exact herror _ _
  | ok job => exact hjob job rfl

theorem run_execute (dailyQuota : Nat) :
    (RunDueSearches.execute dailyQuota).run = .call .utcNow fun now =>
      .call (.listDue now) fun
        | .ok due => (RunDueSearches.runAll dailyQuota now due 0).run
        | .error e => .done (.error e) := by
  simp only [RunDueSearches.execute, Fallible.run_lift_bind, Fallible.run_orFail_bind, ask,
    Program.call_bind, Program.done_bind, id_eq]
  congr 1
  funext now
  congr 1
  funext answer
  cases answer <;> rfl

-- Concrete surroundings, to run the operations in: a clock that advances a
-- millisecond a reading, no failing port, one launched job.
namespace Sample

def clock (n : Nat) : Int := 1767225660000000417 + 1000000 * n

def node : String := "5be1c8a4-77d0-4f36-8b2e-1a9d3c60"

def uuid (n : Nat) : Uuid := ⟨node ++ toString (1000 + n)⟩

def env (adapter : Adapter) : JobEnv where
  adapter := adapter
  collates a b := a ≤ b
  clock := clock
  uuid := uuid
  fault _ := none

def world : JobWorld where
  jobs := Table.empty.insert job
  results := Table.empty
  steps := Table.empty
  recurring := Table.empty
  channels := Table.empty
  dispatched := [(job, [])]
  digests := []
  notified := []
  calls := 0
  readings := 0
  uuids := 0

-- A search with a webhook, of the owner of the stored job.
def hourly : RecurringSearch where
  id := ⟨"91d3b0aa-5e7c-4b8f-a6f1-2d0c94e7b853"⟩
  userId := job.userId
  keyword := job.keyword
  mode := .workflow
  intervalMinutes := 60
  webhookUrl := some "https://hooks.example.org/digest"
  createdAt := job.createdAt
  lastRunAt := none

def visitor : Uuid := ⟨"f0b7c7f2-8a4e-4f0e-a0f5-2c64dd1b6a10"⟩

def config : JobConfig where
  dailyQuota := 20
  timeoutSecs := 900

theorem uuid_injective : Function.Injective uuid := by
  intro n m h
  have htext := toString_injective (String.append_right_inj _ |>.mp (Uuid.mk.inj h))
  omega

theorem job_id_ne_uuid (n : Nat) : job.id ≠ uuid n := by
  intro h
  exact append_ne (by decide : node.toList.head? = some '5') (by decide) _ (Uuid.mk.inj h).symm

end Sample

end AgentBoilerplate.Job
