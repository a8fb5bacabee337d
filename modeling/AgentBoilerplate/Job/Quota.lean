import Mathlib
import AgentBoilerplate.Job.Launching

namespace AgentBoilerplate.Job

open Effects Collections

-- The jobs of a user created within the 24 hours from an instant.
def inWindow (userId : Uuid) (from_ : Int) (job : ResearchJob) : Bool :=
  job.userId = userId ∧ from_ ≤ job.createdAt ∧ job.createdAt < from_ + Duration.hours 24

def windowCount (jobs : Jobs) (userId : Uuid) (from_ : Int) : Nat :=
  jobs.rows.countP (inWindow userId from_)

-- The cutoffs of the counts an operation has made for a user.
def cutoffs (past : List (Event JobPorts)) (userId : Uuid) : List Int :=
  past.filterMap fun
    | ⟨.countCreatedSince id since, _⟩ => if id = userId then some since else none
    | _ => none

-- A job is inserted while the user's jobs since the operation's own cutoff are
-- still below the quota.
def CountHolds (env : JobEnv) (quota : Nat) (world : JobWorld) (past : List (Event JobPorts)) :
    JobCall → Prop
  | .insert job => ∀ since ∈ cutoffs past job.userId,
      world.jobs.countCreatedSince env.adapter job.userId since < quota
  | _ => True

instance (env : JobEnv) (quota : Nat) (world : JobWorld) (past : List (Event JobPorts)) :
    (request : JobCall) → Decidable (CountHolds env quota world past request)
  | .insert job => inferInstanceAs (Decidable (∀ since ∈ cutoffs past job.userId,
      world.jobs.countCreatedSince env.adapter job.userId since < quota))
  | .update _ | .find _ | .countCreatedSince _ _ | .listUnfinishedOlderThan _ | .storeResults _ _
  | .appendStep _ _ | .clearSteps _ | .addUsage _ _ | .recentUrlsForRecurring _ _
  | .findRecurring _ | .listDue _ | .markRan _ _ | .listChannels _ | .sendDigest _ _
  | .notify _ _ | .dispatch _ _ | .utcNow | .newUuid => isTrue trivial

namespace Jobs

variable {adapter : Adapter} {jobs : Jobs} {job : ResearchJob}

theorem mem_insert {row : ResearchJob} (h : row ∈ (jobs.insert adapter job).2) :
    row ∈ jobs ∨ row.id = job.id ∧ row.createdAt = job.createdAt := by
  unfold insert at h
  cases adapter with
  | inMemory =>
      rcases (Table.mem_insert _ _ _).mp h with rfl | ⟨hold, -⟩
      · exact Or.inr ⟨rfl, rfl⟩
      · exact Or.inl hold
  | postgres =>
      dsimp only at h
      split at h
      · exact Or.inl h
      · rcases (Table.mem_insert _ _ _).mp h with rfl | ⟨hold, -⟩
        · exact Or.inr ⟨rfl, rfl⟩
        · exact Or.inl hold

-- Under an identifier that is not stored, an insert succeeds and keeps every row.
theorem insert_fresh (hfresh : ∀ row ∈ jobs, row.id ≠ job.id) :
    (jobs.insert adapter job).1 = .ok () ∧ (∀ row ∈ jobs, row ∈ (jobs.insert adapter job).2) ∧
      ∃ row ∈ (jobs.insert adapter job).2,
        row.id = job.id ∧ row.userId = job.userId ∧ row.createdAt = job.createdAt := by
  unfold insert
  cases adapter with
  | inMemory =>
      exact ⟨rfl, fun row hrow => (Table.mem_insert _ _ _).mpr (Or.inr ⟨hrow, hfresh row hrow⟩),
        job, (Table.mem_insert _ _ _).mpr (Or.inl rfl), rfl, rfl, rfl⟩
  | postgres =>
      have hnone : ∀ row ∈ jobs.rows, ¬ row.id = job.id := hfresh
      have hany : ¬ (jobs.rows.any fun row => row.id = job.id) = true := by
        simpa using hnone
      dsimp only
      rw [if_neg hany]
      exact ⟨rfl, fun row hrow => (Table.mem_insert _ _ _).mpr (Or.inr ⟨hrow, hfresh row hrow⟩),
        _, (Table.mem_insert _ _ _).mpr (Or.inl rfl), rfl, rfl, rfl⟩

theorem windowCount_insert (adapter : Adapter) (jobs : Jobs) (job : ResearchJob) (userId : Uuid) (from_ : Int) :
    windowCount (jobs.insert adapter job).2 userId from_ ≤
      windowCount jobs userId from_ + if inWindow userId from_ job then 1 else 0 := by
  unfold windowCount insert
  cases adapter with
  | inMemory => exact jobs.countP_insert_le job _
  | postgres =>
      dsimp only
      split
      · exact Nat.le_add_right _ _
      · exact jobs.countP_insert_le { job with usage := {} } _

-- A row under the identifier that was stored with it.
theorem mem_update_stored {stored row : ResearchJob} (hstored : stored ∈ jobs)
    (hid : stored.id = job.id) (hcreated : stored.createdAt = job.createdAt)
    (h : row ∈ jobs.update adapter job) :
    ∃ old ∈ jobs, row.id = old.id ∧ row.createdAt = old.createdAt := by
  unfold update at h
  cases adapter with
  | inMemory =>
      rcases (Table.mem_insert _ _ _).mp h with rfl | ⟨hold, -⟩
      · exact ⟨stored, hstored, hid.symm, hcreated.symm⟩
      · exact ⟨row, hold, rfl, rfl⟩
  | postgres =>
      obtain ⟨old, hold, rfl⟩ := (Table.mem_modify _ _ _ _ _).mp h
      refine ⟨old, hold, ?_⟩
      split <;> exact ⟨rfl, rfl⟩

theorem update_keeps {stored row : ResearchJob} (hstored : stored ∈ jobs)
    (hid : stored.id = job.id) (huser : stored.userId = job.userId)
    (hcreated : stored.createdAt = job.createdAt) (h : row ∈ jobs) :
    ∃ next ∈ jobs.update adapter job, next.id = row.id ∧ next.userId = row.userId ∧
      next.createdAt = row.createdAt := by
  unfold update
  cases adapter with
  | inMemory =>
      by_cases hrow : row.id = job.id
      · obtain rfl := jobs.eq_of_key h hstored (hrow.trans hid.symm)
        exact ⟨_, (Table.mem_insert _ _ _).mpr (Or.inl rfl), hid.symm, huser.symm, hcreated.symm⟩
      · exact ⟨row, (Table.mem_insert _ _ _).mpr (Or.inr ⟨h, hrow⟩), rfl, rfl, rfl⟩
  | postgres =>
      refine ⟨_, (Table.mem_modify _ _ _ _ _).mpr ⟨row, h, rfl⟩, ?_⟩
      split <;> exact ⟨rfl, rfl, rfl⟩

theorem windowCount_update {stored : ResearchJob} (hstored : stored ∈ jobs)
    (hid : stored.id = job.id) (huser : stored.userId = job.userId)
    (hcreated : stored.createdAt = job.createdAt) (userId : Uuid) (from_ : Int) :
    windowCount (jobs.update adapter job) userId from_ ≤ windowCount jobs userId from_ := by
  unfold windowCount update
  cases adapter with
  | inMemory =>
      refine jobs.countP_replace_le hstored ?_ ?_
      · exact hid
      · unfold inWindow
        rw [huser, hcreated]
  | postgres => exact Nat.le_of_eq (jobs.countP_modify _ _ _ fun row => rfl)

-- A window that a new job falls into holds no job that the count misses.
theorem windowCount_le_count (adapter : Adapter) (userId : Uuid) {from_ since created : Int}
    (haligned : ∀ row ∈ jobs, row.createdAt % 1000 = 0)
    (hwindow : truncSubsecs6 created < from_ + Duration.hours 24)
    (hsince : since ≤ created - Duration.hours 24) :
    windowCount jobs userId from_ ≤ jobs.countCreatedSince adapter userId since := by
  have hle : ∀ row ∈ jobs.rows, inWindow userId from_ row = true →
      row.userId = userId ∧ since ≤ row.createdAt := by
    intro row hrow h
    obtain ⟨huser, hfrom, -⟩ := of_decide_eq_true h
    have hmod := haligned row hrow
    refine ⟨huser, ?_⟩
    simp only [truncSubsecs6, Duration.hours, Duration.seconds] at hwindow hsince
    omega
  cases adapter with
  | inMemory =>
      exact List.countP_mono_left fun row hrow h => by simpa using hle row hrow h
  | postgres =>
      refine List.countP_mono_left fun row hrow h => ?_
      obtain ⟨huser, hrow⟩ := hle row hrow h
      simpa using ⟨huser, (truncSubsecs6_le since).trans hrow⟩

end Jobs

section Quota

variable {env : JobEnv} {config : JobConfig} {quota : Nat} {ι : Type} {ops : ι → JobOp}

-- What holds of one operation, whatever the others do: its readings are in
-- order, and what it has inserted is stored.
structure Launcher (env : JobEnv) (world : JobWorld) (past : List (Event JobPorts)) : Prop where
  ordered : (readings past).Pairwise (· ≤ ·)
  read : ∀ instant ∈ readings past, ∃ n, n < world.readings ∧ instant = env.clock n
  inserted : ∀ job, Inserted past job → ∃ row ∈ world.jobs,
    row.id = job.id ∧ row.userId = job.userId ∧ row.createdAt = job.createdAt

-- What holds between any two calls of launching operations. Besides the
-- windows: creation times are whole microseconds, and an identifier that is
-- drawn is neither stored nor drawn again.
structure WithinQuota (env : JobEnv) (quota : Nat) (userId : Uuid) (c : JobRuns ι) : Prop where
  window : ∀ from_, windowCount c.store.jobs userId from_ ≤ quota
  aligned : ∀ row ∈ c.store.jobs, row.createdAt % 1000 = 0
  undrawn : ∀ row ∈ c.store.jobs, ∀ n, c.store.uuids ≤ n → row.id ≠ env.uuid n
  launcher : ∀ i, Launcher env c.store (c.threads i).past
  drawn : ∀ i id, pendingId (c.threads i).past = some id →
    (∃ n, n < c.store.uuids ∧ id = env.uuid n) ∧ ∀ row ∈ c.store.jobs, row.id ≠ id
  apart : ∀ i j id, pendingId (c.threads i).past = some id →
    pendingId (c.threads j).past = some id → i = j
  threaded : c.Threaded fun _ past p => p.Asks (LaunchesJobs past)

namespace Launcher

variable {world next : JobWorld} {past : List (Event JobPorts)}

theorem empty : Launcher env world [] where
  ordered := List.Pairwise.nil
  read := by simp [readings]
  inserted := by simp [Inserted]

theorem step (h : Launcher env world past) (hreadings : world.readings ≤ next.readings)
    (hkeeps : ∀ row ∈ world.jobs, ∃ later ∈ next.jobs,
      later.id = row.id ∧ later.userId = row.userId ∧ later.createdAt = row.createdAt) :
    Launcher env next past where
  ordered := h.ordered
  read instant hinstant := by
    obtain ⟨n, hn, heq⟩ := h.read instant hinstant
    exact ⟨n, by omega, heq⟩
  inserted job hjob := by
    obtain ⟨row, hrow, hid, huser, hcreated⟩ := h.inserted job hjob
    obtain ⟨later, hlater, hid', huser', hcreated'⟩ := hkeeps row hrow
    exact ⟨later, hlater, hid'.trans hid, huser'.trans huser, hcreated'.trans hcreated⟩

theorem event (h : Launcher env world past) (hclock : Monotone env.clock) (request : JobCall)
    {answer : request.Answer}
    (hreading : ∀ instant, (⟨request, answer⟩ : Event JobPorts) = ⟨.utcNow, instant⟩ →
      world.readings ≠ 0 ∧ instant = env.clock (world.readings - 1))
    (hinsert : ∀ stored, (⟨request, answer⟩ : Event JobPorts) = ⟨.insert stored, .ok ()⟩ →
      ∃ row ∈ world.jobs, row.id = stored.id ∧ row.userId = stored.userId ∧
        row.createdAt = stored.createdAt) :
    Launcher env world (past ++ [⟨request, answer⟩]) := by
  have hinserted : ∀ job, Inserted (past ++ [⟨request, answer⟩]) job → ∃ row ∈ world.jobs,
      row.id = job.id ∧ row.userId = job.userId ∧ row.createdAt = job.createdAt := by
    intro job hjob
    rcases (inserted_append _ _).mp hjob with hold | ⟨stored, hevent, hid, huser, hcreated⟩
    · exact h.inserted job hold
    · obtain ⟨row, hrow, hid', huser', hcreated'⟩ := hinsert stored hevent
      exact ⟨row, hrow, hid'.trans hid, huser'.trans huser, hcreated'.trans hcreated⟩
  by_cases hnow : request = .utcNow
  · subst hnow
    obtain ⟨hpos, heq⟩ := hreading answer rfl
    have hall : readings (past ++ [⟨.utcNow, answer⟩]) = readings past ++ [answer] :=
      readings_append _ _
    refine ⟨?_, ?_, hinserted⟩
    · rw [hall, List.pairwise_append]
      refine ⟨h.ordered, List.pairwise_singleton _ _, fun earlier hearlier later hlater => ?_⟩
      obtain ⟨n, hn, rfl⟩ := h.read earlier hearlier
      rw [List.mem_singleton.mp hlater, heq]
      exact hclock (by omega)
    · intro instant hinstant
      rw [hall, List.mem_append, List.mem_singleton] at hinstant
      rcases hinstant with hold | rfl
      · exact h.read instant hold
      · exact ⟨world.readings - 1, by omega, heq⟩
  · rw [show Launcher env world (past ++ [⟨request, answer⟩]) ↔ _ from Iff.rfl]
    refine ⟨?_, ?_, hinserted⟩
    · rw [readings_other past hnow]
      exact h.ordered
    · rw [readings_other past hnow]
      exact h.read

end Launcher

namespace WithinQuota

theorem start {world : JobWorld} (hops : ∀ i, (ops i).launches = true)
    (hwindow : ∀ from_, windowCount world.jobs userId from_ ≤ quota)
    (haligned : ∀ row ∈ world.jobs, row.createdAt % 1000 = 0)
    (hfresh : ∀ row ∈ world.jobs, ∀ n, row.id ≠ env.uuid n) :
    WithinQuota env quota userId (jobRuns config world ops) where
  window := hwindow
  aligned := haligned
  undrawn row hrow n _ := hfresh row hrow n
  launcher _ := Launcher.empty
  drawn := by simp [jobRuns, Config.start, pendingId]
  apart := by simp [jobRuns, Config.start, pendingId]
  threaded := Config.threaded_start (fun i => launches_calls config (hops i)) world

variable {c : JobRuns ι} {i : ι}

-- What an update writes is stored already.
theorem stored {job : ResearchJob} {next : Except PortError Unit → Program JobPorts JobOutcome}
    (h : WithinQuota env quota userId c) (hrest : (c.threads i).rest = .call (.update job) next) :
    ∃ row ∈ c.store.jobs,
      row.id = job.id ∧ row.userId = job.userId ∧ row.createdAt = job.createdAt :=
  (h.launcher i).inserted job (h.threaded.here hrest)

-- The identifier of an inserted job is drawn, and its cutoff is a day before
-- its creation.
theorem launched {job : ResearchJob} {next : Except PortError Unit → Program JobPorts JobOutcome}
    (h : WithinQuota env quota userId c) (hrest : (c.threads i).rest = .call (.insert job) next) :
    pendingId (c.threads i).past = some job.id ∧
      ∃ created, job.createdAt = truncSubsecs6 created ∧
        ∃ since ∈ cutoffs (c.threads i).past job.userId, since ≤ created - Duration.hours 24 := by
  have hlaunch : LaunchesJobs (c.threads i).past (.insert job) := h.threaded.here hrest
  obtain ⟨hid, now, created, used, hcount, hsub, hcreated⟩ := hlaunch
  refine ⟨hid, created, hcreated, now - Duration.hours 24, ?_, ?_⟩
  · exact List.mem_filterMap.mpr ⟨_, hcount, by simp⟩
  · have hle : now ≤ created := by simpa using (h.launcher i).ordered.sublist hsub
    omega

theorem keeps (h : WithinQuota env quota userId c) {request : JobCall}
    {next : request.Answer → Program JobPorts JobOutcome}
    (hrest : (c.threads i).rest = .call request next) :
    ∀ row ∈ c.store.jobs, ∃ later ∈ (env.handle request c.store).2.jobs,
      later.id = row.id ∧ later.userId = row.userId ∧ later.createdAt = row.createdAt := by
  intro row hrow
  cases request with
  | insert job =>
      have hfresh := (h.drawn i job.id (h.launched hrest).1).2
      simp only [JobEnv.handle, JobEnv.attempt]
      split
      · exact ⟨row, hrow, rfl, rfl, rfl⟩
      · exact ⟨row, (Jobs.insert_fresh hfresh).2.1 row hrow, rfl, rfl, rfl⟩
  | update job =>
      obtain ⟨stored, hstored, hid, huser, hcreated⟩ := h.stored hrest
      simp only [JobEnv.handle, JobEnv.attempt]
      split
      · exact ⟨row, hrow, rfl, rfl, rfl⟩
      · exact Jobs.update_keeps hstored hid huser hcreated hrow
  | addUsage jobId usage => exact absurd (h.threaded.here hrest) id
  | _ =>
      rw [JobEnv.handle_untouched rfl]
      exact ⟨row, hrow, rfl, rfl, rfl⟩

theorem news (h : WithinQuota env quota userId c) {request : JobCall}
    {next : request.Answer → Program JobPorts JobOutcome}
    (hrest : (c.threads i).rest = .call request next) :
    ∀ row ∈ (env.handle request c.store).2.jobs,
      (∃ old ∈ c.store.jobs, row.id = old.id ∧ row.createdAt = old.createdAt) ∨
        ∃ job, request = .insert job ∧ row.id = job.id ∧ row.createdAt = job.createdAt := by
  intro row hrow
  cases request with
  | insert job =>
      simp only [JobEnv.handle, JobEnv.attempt] at hrow
      split at hrow
      · exact Or.inl ⟨row, hrow, rfl, rfl⟩
      · rcases Jobs.mem_insert hrow with hold | ⟨hid, hcreated⟩
        · exact Or.inl ⟨row, hold, rfl, rfl⟩
        · exact Or.inr ⟨job, rfl, hid, hcreated⟩
  | update job =>
      obtain ⟨stored, hstored, hid, huser, hcreated⟩ := h.stored hrest
      simp only [JobEnv.handle, JobEnv.attempt] at hrow
      split at hrow
      · exact Or.inl ⟨row, hrow, rfl, rfl⟩
      · exact Or.inl (Jobs.mem_update_stored hstored hid hcreated hrow)
  | addUsage jobId usage => exact absurd (h.threaded.here hrest) id
  | _ =>
      rw [JobEnv.handle_untouched rfl] at hrow
      exact Or.inl ⟨row, hrow, rfl, rfl⟩

-- No call fills a window beyond the quota, as long as the count holds.
theorem windows (h : WithinQuota env quota userId c) {request : JobCall}
    {next : request.Answer → Program JobPorts JobOutcome}
    (hrest : (c.threads i).rest = .call request next)
    (hguard : CountHolds env quota c.store (c.threads i).past request)
    (from_ : Int) : windowCount (env.handle request c.store).2.jobs userId from_ ≤ quota := by
  have hwindow := h.window from_
  cases request with
  | insert job =>
      obtain ⟨-, created, hcreated, since, hmem, hsince⟩ := h.launched hrest
      have hcount := hguard since hmem
      have hinsert := Jobs.windowCount_insert env.adapter c.store.jobs job userId from_
      simp only [JobEnv.handle, JobEnv.attempt]
      split
      · exact hwindow
      by_cases hin : inWindow userId from_ job = true
      · obtain ⟨huser, -, hbefore⟩ := of_decide_eq_true hin
        have hle := Jobs.windowCount_le_count env.adapter userId h.aligned (hcreated ▸ hbefore) hsince
        rw [if_pos hin] at hinsert
        rw [huser] at hcount
        exact hinsert.trans (by omega)
      · rw [if_neg hin] at hinsert
        exact hinsert.trans hwindow
  | update job =>
      obtain ⟨stored, hstored, hid, huser, hcreated⟩ := h.stored hrest
      simp only [JobEnv.handle, JobEnv.attempt]
      split
      · exact hwindow
      · exact (Jobs.windowCount_update hstored hid huser hcreated userId from_).trans hwindow
  | addUsage jobId usage => exact absurd (h.threaded.here hrest) id
  | _ =>
      rw [JobEnv.handle_untouched rfl]
      exact hwindow

variable [DecidableEq ι]

-- An identifier is pending after a turn if it was before and the turn has not
-- used it, or if the turn has drawn it.
theorem pendingId_advance {request : JobCall} {next : request.Answer → Program JobPorts JobOutcome}
    {j : ι} {id : Uuid}
    (h : pendingId ((c.advance env.handle i request next).threads j).past = some id) :
    (pendingId (c.threads j).past = some id ∧ (j = i → ∀ job, request ≠ .insert job)) ∨
      (j = i ∧ request = .newUuid ∧ id = env.uuid c.store.uuids) := by
  by_cases hj : j = i
  · subst hj
    rw [Config.advance_self, pendingId_append] at h
    cases request with
    | newUuid => exact Or.inr ⟨rfl, rfl, (Option.some.inj h).symm⟩
    | insert job => cases h
    | _ => exact Or.inl ⟨h, by simp⟩
  · rw [Config.advance_of_ne _ c i j hj] at h
    exact Or.inl ⟨h, fun heq => absurd heq hj⟩

theorem advance_launcher (h : WithinQuota env quota userId c) (hclock : Monotone env.clock)
    {request : JobCall} {next : request.Answer → Program JobPorts JobOutcome}
    (hrest : (c.threads i).rest = .call request next) (j : ι) :
    Launcher env (c.advance env.handle i request next).store
      ((c.advance env.handle i request next).threads j).past := by
  have hstep := (h.launcher j).step (JobEnv.handle_readings_le env request c.store) (h.keeps hrest)
  by_cases hj : j = i
  · subst hj
    rw [Config.advance_self]
    refine hstep.event hclock request ?_ ?_
    · rintro instant heq
      cases heq
      exact ⟨Nat.succ_ne_zero _, rfl⟩
    · rintro stored heq
      injection heq with hrequest hanswer
      subst hrequest
      have hfresh := (h.drawn j stored.id (h.launched hrest).1).2
      simp only [JobEnv.handle, JobEnv.attempt] at hanswer ⊢
      split at hanswer
      · cases eq_of_heq hanswer
      · exact (Jobs.insert_fresh hfresh).2.2
  · rw [Config.advance_of_ne _ c i j hj]
    exact hstep

theorem advance_drawn (h : WithinQuota env quota userId c) {request : JobCall} {next : request.Answer → Program JobPorts JobOutcome}
    (hrest : (c.threads i).rest = .call request next) (j : ι) (id : Uuid)
    (hid : pendingId ((c.advance env.handle i request next).threads j).past = some id) :
    (∃ n, n < (env.handle request c.store).2.uuids ∧ id = env.uuid n) ∧
      ∀ row ∈ (env.handle request c.store).2.jobs, row.id ≠ id := by
  rcases pendingId_advance hid with ⟨hold, hused⟩ | ⟨rfl, rfl, rfl⟩
  · obtain ⟨⟨n, hn, heq⟩, hstored⟩ := h.drawn j id hold
    refine ⟨⟨n, hn.trans_le (JobEnv.handle_uuids_le env request c.store), heq⟩, ?_⟩
    intro row hrow hrowid
    rcases h.news hrest row hrow with ⟨old, hmem, holdid, -⟩ | ⟨job, rfl, hjob, -⟩
    · exact hstored old hmem (holdid.symm.trans hrowid)
    · have hpending := (h.launched hrest).1
      rw [← hjob, hrowid] at hpending
      exact hused (h.apart j i id hold hpending) job rfl
  · refine ⟨⟨c.store.uuids, Nat.lt_succ_self _, rfl⟩, ?_⟩
    intro row hrow
    rw [JobEnv.handle_untouched rfl] at hrow
    exact h.undrawn row hrow _ le_rfl

theorem advance_apart (h : WithinQuota env quota userId c) (huuid : Function.Injective env.uuid)
    {request : JobCall} {next : request.Answer → Program JobPorts JobOutcome} (j k : ι) (id : Uuid)
    (hj : pendingId ((c.advance env.handle i request next).threads j).past = some id)
    (hk : pendingId ((c.advance env.handle i request next).threads k).past = some id) :
    j = k := by
  -- an identifier drawn in this turn is pending nowhere else
  have hnew : ∀ other, pendingId (c.threads other).past ≠ some (env.uuid c.store.uuids) := by
    intro other hother
    obtain ⟨⟨n, hn, heq⟩, -⟩ := h.drawn other _ hother
    exact absurd (huuid heq) (by omega)
  rcases pendingId_advance hj with ⟨hjold, -⟩ | ⟨rfl, -, rfl⟩ <;>
    rcases pendingId_advance hk with ⟨hkold, -⟩ | ⟨rfl, -, heq⟩
  · exact h.apart j k id hjold hkold
  · exact absurd (heq ▸ hjold) (hnew j)
  · exact absurd hkold (hnew k)
  · rfl

theorem advance (h : WithinQuota env quota userId c) (hclock : Monotone env.clock)
    (huuid : Function.Injective env.uuid) {request : JobCall}
    {next : request.Answer → Program JobPorts JobOutcome}
    (hrest : (c.threads i).rest = .call request next)
    (hguard : CountHolds env quota c.store (c.threads i).past request) :
    WithinQuota env quota userId (c.advance env.handle i request next) where
  window := h.windows hrest hguard
  aligned row hrow := by
    rcases h.news hrest row hrow with ⟨old, hold, -, hcreated⟩ | ⟨job, rfl, -, hcreated⟩
    · rw [hcreated]
      exact h.aligned old hold
    · obtain ⟨-, created, htrunc, -⟩ := h.launched hrest
      rw [hcreated, htrunc]
      exact truncSubsecs6_mod created
  undrawn row hrow n hn := by
    have hn' := (JobEnv.handle_uuids_le env request c.store).trans hn
    rcases h.news hrest row hrow with ⟨old, hold, hid, -⟩ | ⟨job, rfl, hid, -⟩
    · rw [hid]
      exact h.undrawn old hold n hn'
    · obtain ⟨⟨m, hm, heq⟩, -⟩ := h.drawn i job.id (h.launched hrest).1
      rw [hid, heq]
      intro hsame
      exact absurd (huuid hsame) (by omega)
  launcher := h.advance_launcher hclock hrest
  drawn := h.advance_drawn hrest
  apart := h.advance_apart huuid
  threaded := h.threaded.advance hrest

end WithinQuota

variable [DecidableEq ι]

-- Searches and ticks that begin with at most `q` jobs of a user in every window
-- of 24 hours keep to it for this user, if every insert finds its own user below
-- the quota since the operation's own cutoff.
theorem daily_quota {world : JobWorld} {schedule : List ι}
    (hops : ∀ i, (ops i).launches = true) (hclock : Monotone env.clock)
    (huuid : Function.Injective env.uuid)
    (hfresh : ∀ row ∈ world.jobs, ∀ n, row.id ≠ env.uuid n)
    (haligned : ∀ row ∈ world.jobs, row.createdAt % 1000 = 0) (userId : Uuid)
    (hstart : ∀ from_, windowCount world.jobs userId from_ ≤ config.dailyQuota)
    (hcount : (jobRuns config world ops).Respects env.handle
      (fun _ => CountHolds env config.dailyQuota) schedule) (from_ : Int) :
    windowCount ((jobRuns config world ops).run env.handle schedule).store.jobs userId from_ ≤
      config.dailyQuota :=
  (Config.run_induction (WithinQuota env config.dailyQuota userId)
    (fun _ _ _ _ h hrest hguard => h.advance hclock huuid hrest hguard)
    (WithinQuota.start hops hstart haligned hfresh) hcount).window from_

end Quota

theorem windowCount_le_length (jobs : Jobs) (userId : Uuid) (from_ : Int) :
    windowCount jobs userId from_ ≤ jobs.rows.length :=
  List.countP_le_length

-- One visitor, allowed one search a day, starts two.
namespace Sample

def searches (_ : Fin 2) : JobOp := .launch visitor "rust 2026" .workflow

def oneADay : JobConfig := { config with dailyQuota := 1 }

end Sample

-- Both searches count before either inserts.
theorem quota_exceeded :
    let start := jobRuns Sample.oneADay Sample.world Sample.searches
    let later := start.run (Sample.env .postgres).handle
      ([0, 0, 1, 1] ++ List.replicate 4 0 ++ List.replicate 4 1)
    (∀ userId from_, windowCount start.store.jobs userId from_ ≤ Sample.oneADay.dailyQuota) ∧
      windowCount later.store.jobs Sample.visitor 1767225600000000000 = 2 :=
  ⟨windowCount_le_length Sample.world.jobs, by decide +kernel⟩

-- The second search counts after the first has inserted.
theorem daily_quota_in_turn :
    let start := jobRuns Sample.oneADay Sample.world Sample.searches
    let later := start.run (Sample.env .postgres).handle
      (List.replicate 6 0 ++ List.replicate 6 1)
    windowCount later.store.jobs Sample.visitor 1767225600000000000 = 1 ∧
      ∀ userId from_, windowCount later.store.jobs userId from_ ≤ 1 := by
  have hops : ∀ i, (Sample.searches i).launches = true := fun _ => rfl
  refine ⟨by decide +kernel, fun userId => daily_quota hops ?_ Sample.uuid_injective ?_ ?_ userId
    (windowCount_le_length Sample.world.jobs userId) (by decide +kernel)⟩
  · intro n m hle
    simp only [Sample.env, Sample.clock]
    omega
  · intro row hrow n
    obtain rfl := List.mem_singleton.mp hrow
    exact Sample.job_id_ne_uuid n
  · intro row hrow
    obtain rfl := List.mem_singleton.mp hrow
    rfl

end AgentBoilerplate.Job
