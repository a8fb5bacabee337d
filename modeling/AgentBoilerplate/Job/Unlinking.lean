import AgentBoilerplate.Job.Purge
import AgentBoilerplate.Job.Snapshots

namespace AgentBoilerplate.Job

open Effects Collections

-- A job whose link to the search is cleared (`ON DELETE SET NULL`).
def ResearchJob.unlinked (id : Uuid) (job : ResearchJob) : ResearchJob :=
  { job with recurringSearchId := job.recurringSearchId.filter fun rsId => rsId ≠ id }

-- `RecurringSearchRepository::delete`: a search is removed by its owner. The map
-- of the jobs belongs to another repository.
def deleteRecurringSearch (adapter : Adapter) (world : JobWorld) (userId id : Uuid) :
    Bool × JobWorld :=
  if (world.recurring.get id).any fun search => search.userId = userId then
    (true, { world with
      jobs := match adapter with
        | .inMemory => world.jobs
        | .postgres => world.jobs.mapRows (ResearchJob.unlinked id)
      recurring := world.recurring.remove id })
  else
    (false, world)

-- What may follow: a read of the jobs, or a retention purge.
inductive Later where
  | list (userId : Uuid)
  | snapshot (userId jobId : Uuid)
  | recentUrls (recurringSearchId : Uuid) (limit : Nat)
  | purge (cutoff : Int)
deriving DecidableEq

inductive Seen where
  | list (result : Except PortError (List ResearchJob))
  | snapshot (result : Except PortError (Option Snapshot))
  | recentUrls (result : Except PortError (List String))
  | purge (deleted : Nat)

namespace QueryEnv

def later (env : QueryEnv) (world : JobWorld) : Later → Seen × JobWorld
  | .list userId =>
      let answer := (SearchQueries.list userId).run.run env.handle world
      (.list answer.1, answer.2)
  | .snapshot userId jobId =>
      let answer := (SearchQueries.get userId jobId).run.run env.handle world
      (.snapshot answer.1, answer.2)
  | .recentUrls recurringSearchId limit =>
      let answer := (askJobs (.recentUrlsForRecurring recurringSearchId limit)).run env.handle world
      (.recentUrls answer.1, answer.2)
  | .purge cutoff =>
      let answer := deleteFinishedBefore env.jobs.adapter world cutoff
      (.purge answer.1, answer.2)

def observes (env : QueryEnv) : JobWorld → List Later → List Seen
  | _, [] => []
  | world, request :: rest =>
      (env.later world request).1 :: env.observes (env.later world request).2 rest

-- An adapter whose calls do not fail.
structure Faultless (env : QueryEnv) (adapter : Adapter) : Prop where
  adapter : env.jobs.adapter = adapter
  fault : ∀ n, env.jobs.fault n = none

end QueryEnv

-- Whether the two adapters answer a request alike from one store. They order the
-- URLs of a search each in its own way, but find none of the deleted search; and
-- the database cuts a cutoff to whole microseconds.
def Later.Alike (collates : String → String → Bool) (id : Uuid) (world : JobWorld) : Later → Prop
  | .list _ | .snapshot _ _ => True
  | .recentUrls recurringSearchId limit => recurringSearchId ≠ id →
      recentUrlsForRecurring .inMemory collates world.jobs world.results recurringSearchId limit =
        recentUrlsForRecurring .postgres collates world.jobs world.results recurringSearchId limit
  | .purge cutoff => ∀ job ∈ world.jobs, Disposable .inMemory cutoff job →
      Disposable .postgres cutoff job

-- A read leaves the jobs and their results.
def Later.leaves (world : JobWorld) : Later → JobWorld
  | .purge cutoff => (deleteFinishedBefore .inMemory world cutoff).2
  | .list _ | .snapshot _ _ | .recentUrls _ _ => world

-- Each of the requests in turn.
def AnsweredAlike (collates : String → String → Bool) (id : Uuid) : JobWorld → List Later → Prop
  | _, [] => True
  | world, request :: rest =>
      request.Alike collates id world ∧ AnsweredAlike collates id (request.leaves world) rest

-- The runs of a deleted search are still there, without a link to it.
def RunsUnlinked (world : JobWorld) (userId id : Uuid) : Prop :=
  ∀ adapter, ∀ job ∈ world.jobs,
    (deleteRecurringSearch adapter world userId id).2.jobs.get job.id = some (job.unlinked id)

-- What follows a deletion is the same in the two adapters.
def ObservedAlike (memory database : QueryEnv) (world : JobWorld) (userId id : Uuid)
    (requests : List Later) : Prop :=
  memory.observes (deleteRecurringSearch .inMemory world userId id).2 requests =
    database.observes (deleteRecurringSearch .postgres world userId id).2 requests

-- No stored job is a run of the search.
def NoRuns (world : JobWorld) (id : Uuid) : Prop :=
  ∀ job ∈ world.jobs, job.recurringSearchId ≠ some id

section

variable {world : JobWorld} {userId id : Uuid} {search : RecurringSearch}

theorem unlinked_of_ne {job : ResearchJob} (h : job.recurringSearchId ≠ some id) :
    job.unlinked id = job := by
  have hfilter : (job.recurringSearchId.filter fun rsId => rsId ≠ id) = job.recurringSearchId := by
    cases hlink : job.recurringSearchId with
    | none => rfl
    | some rsId =>
        have hne : rsId ≠ id := fun heq => h (by rw [hlink, heq])
        simp [Option.filter, hne]
  unfold ResearchJob.unlinked
  rw [hfilter]

theorem link_unlinked (job : ResearchJob) : (job.unlinked id).recurringSearchId ≠ some id := by
  intro hlink
  have hne := (Option.filter_eq_some_iff.mp hlink).2
  simp at hne

-- The deletion by the owner.
theorem deleted_jobs (hsearch : world.recurring.get id = some search) (howner : search.userId = userId)
    (adapter : Adapter) : (deleteRecurringSearch adapter world userId id).2.jobs = match adapter with
      | .inMemory => world.jobs
      | .postgres => world.jobs.mapRows (ResearchJob.unlinked id) := by
  unfold deleteRecurringSearch
  rw [hsearch, if_pos (by simp [howner])]

theorem noRuns_deleted (hsearch : world.recurring.get id = some search)
    (howner : search.userId = userId) :
    NoRuns (deleteRecurringSearch .postgres world userId id).2 id := by
  intro job hjob
  rw [deleted_jobs hsearch howner] at hjob
  obtain ⟨old, -, rfl⟩ := (Table.mem_mapRows _ _ _ _).mp hjob
  exact link_unlinked old

-- Without a run there is nothing that the adapters do otherwise.
theorem delete_agree (h : NoRuns world id) : deleteRecurringSearch .inMemory world userId id =
    deleteRecurringSearch .postgres world userId id := by
  have hjobs : world.jobs.mapRows (ResearchJob.unlinked id) = world.jobs := by
    apply Table.ext_rows
    refine (List.map_congr_left fun job hjob => ?_).trans (List.map_id _)
    exact unlinked_of_ne (h job hjob)
  unfold deleteRecurringSearch
  rw [hjobs]

theorem runsUnlinked_iff (hsearch : world.recurring.get id = some search)
    (howner : search.userId = userId) : RunsUnlinked world userId id ↔ NoRuns world id := by
  constructor
  · intro hruns job hjob
    have hkept := hruns .inMemory job hjob
    rw [deleted_jobs hsearch howner] at hkept
    have hget := (Table.get_eq_some world.jobs job.id job).mpr ⟨hjob, rfl⟩
    rw [Option.some.inj (hget.symm.trans hkept)]
    exact link_unlinked job
  · intro hruns adapter job hjob
    have hagree : (deleteRecurringSearch adapter world userId id).2.jobs = world.jobs := by
      cases adapter with
      | inMemory => exact deleted_jobs hsearch howner .inMemory
      | postgres =>
          rw [← delete_agree hruns]
          exact deleted_jobs hsearch howner .inMemory
    rw [hagree, unlinked_of_ne (hruns job hjob)]
    exact (Table.get_eq_some world.jobs job.id job).mpr ⟨hjob, rfl⟩

-- What is sorted already stays as it is.
theorem sortByPublicationDate_sorted (results : List SearchResult) :
    sortByPublicationDate (sortByPublicationDate results) = sortByPublicationDate results := by
  have htotal : Std.Total fun a b : SearchResult => newerFirst a b = true := by
    refine ⟨fun a b => ?_⟩
    unfold newerFirst
    cases a.publishedAt <;> cases b.publishedAt <;> simp [Int.le_total]
  have htrans : IsTrans SearchResult fun a b => newerFirst a b = true := by
    refine ⟨fun a b c => ?_⟩
    unfold newerFirst
    cases a.publishedAt <;> cases b.publishedAt <;> cases c.publishedAt <;> simp
    omega
  exact (List.pairwise_insertionSort _ results).insertionSort_eq

theorem sorted_resultsFor (adapter : Adapter) (results : PerJob SearchResult) (jobId : Uuid) :
    sortByPublicationDate (resultsFor adapter results jobId) =
      sortByPublicationDate (results.of jobId) := by
  cases adapter with
  | inMemory => rfl
  | postgres => exact sortByPublicationDate_sorted _

variable {memory database : QueryEnv}

-- A call that does not fail is counted and takes effect.
theorem attempt_faultless {α : Type} {env : QueryEnv} {adapter : Adapter}
    (henv : env.Faultless adapter) (world : JobWorld)
    (effect : JobWorld → Except PortError α × JobWorld) :
    env.jobs.attempt world effect = effect { world with calls := world.calls + 1 } := by
  unfold JobEnv.attempt
  rw [henv.fault]

theorem list_agree (hmemory : memory.Faultless .inMemory) (hdatabase : database.Faultless .postgres)
    (userId : Uuid) : memory.later world (.list userId) = database.later world (.list userId) := by
  simp [QueryEnv.later, SearchQueries.list, QueryEnv.handle, Handler.sum, QueryEnv.query,
    attempt_faultless hmemory, attempt_faultless hdatabase]

theorem snapshot_agree (hmemory : memory.Faultless .inMemory)
    (hdatabase : database.Faultless .postgres) (userId jobId : Uuid) :
    memory.later world (.snapshot userId jobId) = database.later world (.snapshot userId jobId) := by
  simp only [QueryEnv.later, SearchQueries.get, askJobs, query, Fallible.run_orFail_bind,
    Program.call_bind, Program.done_bind, Program.run_call, QueryEnv.handle, Handler.sum,
    JobEnv.handle, attempt_faultless hmemory, attempt_faultless hdatabase]
  cases world.jobs.get jobId with
  | none => rfl
  | some job =>
      by_cases huser : job.userId = userId
      · simp only [huser, ne_eq, not_true_eq_false, if_false, Fallible.run_orFail_bind,
          Program.call_bind, Program.done_bind, Program.run_call, Handler.sum, QueryEnv.query,
          attempt_faultless hmemory, attempt_faultless hdatabase, Fallible.run_pure, Program.run_done,
          sorted_resultsFor]
      · simp [huser]

theorem noRuns_runsOf (h : NoRuns world id) : world.jobs.runsOf id = [] := by
  unfold Jobs.runsOf
  have hnone : (world.jobs.rows.filter fun row => row.recurringSearchId = some id) = [] :=
    List.filter_eq_nil_iff.mpr fun job hjob => by simpa using h job hjob
  rw [hnone]
  rfl

theorem recentUrls_agree (hmemory : memory.Faultless .inMemory)
    (hdatabase : database.Faultless .postgres) {recurringSearchId : Uuid} {limit : Nat}
    (h : recentUrlsForRecurring .inMemory database.jobs.collates world.jobs world.results
        recurringSearchId limit =
      recentUrlsForRecurring .postgres database.jobs.collates world.jobs world.results
        recurringSearchId limit) :
    memory.later world (.recentUrls recurringSearchId limit) =
      database.later world (.recentUrls recurringSearchId limit) := by
  have hurls : recentUrlsForRecurring .inMemory memory.jobs.collates world.jobs world.results
        recurringSearchId limit =
      recentUrlsForRecurring .postgres database.jobs.collates world.jobs world.results
        recurringSearchId limit := h
  simp [QueryEnv.later, QueryEnv.handle, Handler.sum, JobEnv.handle, attempt_faultless hmemory,
    attempt_faultless hdatabase, hmemory.adapter, hdatabase.adapter, hurls]

theorem recentUrls_told (hmemory : memory.Faultless .inMemory)
    (hdatabase : database.Faultless .postgres) {recurringSearchId : Uuid} {limit : Nat}
    (h : (memory.later world (.recentUrls recurringSearchId limit)).1 =
      (database.later world (.recentUrls recurringSearchId limit)).1) :
    recentUrlsForRecurring .inMemory database.jobs.collates world.jobs world.results
        recurringSearchId limit =
      recentUrlsForRecurring .postgres database.jobs.collates world.jobs world.results
        recurringSearchId limit := by
  simp [QueryEnv.later, QueryEnv.handle, Handler.sum, JobEnv.handle, attempt_faultless hmemory,
    attempt_faultless hdatabase, hmemory.adapter, hdatabase.adapter] at h
  exact h

-- What the database purges is purged in memory.
theorem disposable_inMemory {cutoff : Int} {job : ResearchJob} (h : Disposable .postgres cutoff job) :
    Disposable .inMemory cutoff job :=
  ⟨h.1, h.2.1, h.2.2.trans_le (truncSubsecs6_le cutoff)⟩

theorem purge_agree (hmemory : memory.Faultless .inMemory)
    (hdatabase : database.Faultless .postgres) {cutoff : Int}
    (h : ∀ job ∈ world.jobs, Disposable .inMemory cutoff job → Disposable .postgres cutoff job) :
    memory.later world (.purge cutoff) = database.later world (.purge cutoff) := by
  have hdoomed : (world.jobs.rows.filter fun job => Disposable .inMemory cutoff job) =
      world.jobs.rows.filter fun job => Disposable .postgres cutoff job :=
    List.filter_congr fun job hjob => decide_eq_decide.mpr ⟨h job hjob, disposable_inMemory⟩
  have hpurge : deleteFinishedBefore .inMemory world cutoff =
      deleteFinishedBefore .postgres world cutoff := by
    unfold deleteFinishedBefore
    rw [hdoomed]
  simp only [QueryEnv.later, hmemory.adapter, hdatabase.adapter, hpurge]

-- The count alone tells whether the same jobs are purged.
theorem purge_told (hmemory : memory.Faultless .inMemory)
    (hdatabase : database.Faultless .postgres) {cutoff : Int}
    (h : (memory.later world (.purge cutoff)).1 = (database.later world (.purge cutoff)).1) :
    ∀ job ∈ world.jobs, Disposable .inMemory cutoff job → Disposable .postgres cutoff job := by
  simp only [QueryEnv.later, hmemory.adapter, hdatabase.adapter, deleteFinishedBefore,
    List.length_map, Seen.purge.injEq] at h
  have hsublist : (world.jobs.rows.filter fun job => Disposable .postgres cutoff job).Sublist
      (world.jobs.rows.filter fun job => Disposable .inMemory cutoff job) :=
    List.monotone_filter_right _ fun job hjob =>
      decide_eq_true (disposable_inMemory (of_decide_eq_true hjob))
  have hsame := hsublist.eq_of_length h.symm
  intro job hjob hdisposable
  have hmem : job ∈ world.jobs.rows.filter fun job => Disposable .inMemory cutoff job :=
    List.mem_filter.mpr ⟨hjob, decide_eq_true hdisposable⟩
  rw [← hsame] at hmem
  exact of_decide_eq_true (List.mem_filter.mp hmem).2

-- The calls of the reads leave the jobs and their results as they are.
def KeepsJobs (env : QueryEnv) (request : SearchPorts.Call) : Prop :=
  ∀ world, (env.handle request world).2.jobs = world.jobs ∧
    (env.handle request world).2.results = world.results

theorem find_keeps (env : QueryEnv) (jobId : Uuid) :
    (askJobs (.find jobId)).Within (KeepsJobs env) := by
  refine Program.within_call fun world => ?_
  simp only [QueryEnv.handle, Handler.sum, JobEnv.handle, JobEnv.attempt]
  split <;> exact ⟨rfl, rfl⟩

theorem recentUrls_keeps (env : QueryEnv) (recurringSearchId : Uuid) (limit : Nat) :
    (askJobs (.recentUrlsForRecurring recurringSearchId limit)).Within (KeepsJobs env) := by
  refine Program.within_call fun world => ?_
  simp only [QueryEnv.handle, Handler.sum, JobEnv.handle, JobEnv.attempt]
  split <;> exact ⟨rfl, rfl⟩

theorem query_keeps (env : QueryEnv) (request : QueryCall) :
    (query request).Within (KeepsJobs env) :=
  Program.within_call fun _ => query_store request

theorem get_keeps (env : QueryEnv) (userId jobId : Uuid) :
    Fallible.Within (KeepsJobs env) (SearchQueries.get userId jobId) := by
  refine Fallible.Within.bind (Fallible.within_orFail (find_keeps env jobId)) fun found => ?_
  cases found with
  | none => exact Fallible.within_pure none
  | some job =>
      dsimp only
      split
      · exact Fallible.within_pure none
      · refine Fallible.Within.bind (Fallible.within_orFail (query_keeps env _)) fun results => ?_
        refine Fallible.Within.bind (Fallible.within_orFail (query_keeps env _)) fun steps => ?_
        exact Fallible.within_pure _

theorem run_keepsJobs {α : Type} {env : QueryEnv} {p : Program SearchPorts α}
    (h : p.Within (KeepsJobs env)) (world : JobWorld) :
    (p.run env.handle world).2.jobs = world.jobs ∧
      (p.run env.handle world).2.results = world.results := by
  have hkeep : ∀ request later, KeepsJobs env request →
      later.jobs = world.jobs ∧ later.results = world.results →
      (env.handle request later).2.jobs = world.jobs ∧
        (env.handle request later).2.results = world.results :=
    fun _ later hrequest hstore =>
      ⟨(hrequest later).1.trans hstore.1, (hrequest later).2.trans hstore.2⟩
  exact Program.Within.run_keeps hkeep h ⟨rfl, rfl⟩

-- What a request leaves, in memory.
theorem later_leaves (hmemory : memory.Faultless .inMemory) (world : JobWorld) (request : Later) :
    (memory.later world request).2.jobs = (request.leaves world).jobs ∧
      (memory.later world request).2.results = (request.leaves world).results := by
  cases request with
  | list userId => exact run_keepsJobs (Fallible.within_orFail (query_keeps memory _)) world
  | snapshot userId jobId => exact run_keepsJobs (get_keeps memory userId jobId) world
  | recentUrls recurringSearchId limit =>
      exact run_keepsJobs (recentUrls_keeps memory recurringSearchId limit) world
  | purge cutoff =>
      simp only [QueryEnv.later, hmemory.adapter]
      exact ⟨rfl, rfl⟩

-- A purge only takes jobs away.
theorem leaves_jobs (request : Later) {job : ResearchJob} (h : job ∈ (request.leaves world).jobs) :
    job ∈ world.jobs := by
  cases request with
  | list _ | snapshot _ _ | recentUrls _ _ => exact h
  | purge cutoff => exact ((Table.mem_retain _ _ job).mp h).1

-- The condition is on the jobs and the results alone.
theorem answeredAlike_congr {collates : String → String → Bool} {other : JobWorld}
    (hjobs : other.jobs = world.jobs) (hresults : other.results = world.results)
    (requests : List Later) :
    AnsweredAlike collates id other requests ↔ AnsweredAlike collates id world requests := by
  induction requests generalizing other world with
  | nil => exact Iff.rfl
  | cons request rest ih =>
      have hhere : request.Alike collates id other ↔ request.Alike collates id world := by
        cases request <;> simp only [Later.Alike, hjobs, hresults]
      have hrest : (request.leaves other).jobs = (request.leaves world).jobs ∧
          (request.leaves other).results = (request.leaves world).results := by
        cases request <;> simp only [Later.leaves, deleteFinishedBefore, hjobs, hresults, and_self]
      exact and_congr hhere (ih hrest.1 hrest.2)

-- One request, and then any number of them.
theorem later_agree (hmemory : memory.Faultless .inMemory)
    (hdatabase : database.Faultless .postgres) (h : NoRuns world id) {request : Later}
    (hrequest : request.Alike database.jobs.collates id world) :
    memory.later world request = database.later world request := by
  cases request with
  | list userId => exact list_agree hmemory hdatabase userId
  | snapshot userId jobId => exact snapshot_agree hmemory hdatabase userId jobId
  | recentUrls recurringSearchId limit =>
      refine recentUrls_agree hmemory hdatabase ?_
      by_cases hid : recurringSearchId = id
      · rw [hid]
        simp [recentUrlsForRecurring, noRuns_runsOf h, collectUrls]
      · exact hrequest hid
  | purge cutoff => exact purge_agree hmemory hdatabase hrequest

theorem later_told (hmemory : memory.Faultless .inMemory)
    (hdatabase : database.Faultless .postgres) {request : Later}
    (h : (memory.later world request).1 = (database.later world request).1) :
    request.Alike database.jobs.collates id world := by
  cases request with
  | list _ | snapshot _ _ => exact trivial
  | recentUrls recurringSearchId limit => exact fun _ => recentUrls_told hmemory hdatabase h
  | purge cutoff => exact purge_told hmemory hdatabase h

theorem observes_iff (hmemory : memory.Faultless .inMemory)
    (hdatabase : database.Faultless .postgres) (h : NoRuns world id) (requests : List Later) :
    memory.observes world requests = database.observes world requests ↔
      AnsweredAlike database.jobs.collates id world requests := by
  induction requests generalizing world with
  | nil => exact iff_of_true rfl trivial
  | cons request rest ih =>
      unfold QueryEnv.observes AnsweredAlike
      obtain ⟨hjobs, hresults⟩ := later_leaves hmemory world request
      have hlater : NoRuns (memory.later world request).2 id :=
        fun job hjob => h job (leaves_jobs request (hjobs ▸ hjob))
      have hrest := (ih hlater).trans (answeredAlike_congr hjobs hresults rest)
      rw [List.cons.injEq]
      constructor
      · intro ⟨hhere, hmore⟩
        have halike : request.Alike database.jobs.collates id world :=
          later_told hmemory hdatabase hhere
        rw [← later_agree hmemory hdatabase h halike] at hmore
        exact ⟨halike, hrest.mp hmore⟩
      · intro ⟨halike, hmore⟩
        have hhere := later_agree hmemory hdatabase h halike
        rw [← hhere]
        exact ⟨rfl, hrest.mpr hmore⟩

-- The list of a user shows the runs that are still linked.
theorem observes_list {env : QueryEnv} {adapter : Adapter} (henv : env.Faultless adapter)
    (userId : Uuid) :
    env.observes world [.list userId] = [.list (.ok (world.jobs.listForUser userId))] := by
  simp [QueryEnv.observes, QueryEnv.later, SearchQueries.list, QueryEnv.handle, Handler.sum,
    QueryEnv.query, attempt_faultless henv]

theorem observedAlike_iff (hmemory : memory.Faultless .inMemory)
    (hdatabase : database.Faultless .postgres) (hsearch : world.recurring.get id = some search)
    (howner : search.userId = userId) (h : NoRuns world id) (requests : List Later) :
    ObservedAlike memory database world userId id requests ↔
      AnsweredAlike database.jobs.collates id world requests := by
  have hruns : NoRuns (deleteRecurringSearch .inMemory world userId id).2 id := by
    rw [delete_agree h]
    exact noRuns_deleted hsearch howner
  have hjobs := deleted_jobs hsearch howner .inMemory
  have hresults : (deleteRecurringSearch .inMemory world userId id).2.results = world.results := by
    unfold deleteRecurringSearch
    split <;> rfl
  unfold ObservedAlike
  rw [← delete_agree h, observes_iff hmemory hdatabase hruns, answeredAlike_congr hjobs hresults]

-- A run of the search is listed with its link in memory, and without in the
-- database.
theorem noRuns_of_listed (hmemory : memory.Faultless .inMemory)
    (hdatabase : database.Faultless .postgres) (hsearch : world.recurring.get id = some search)
    (howner : search.userId = userId)
    (hlisted : ∀ owner, ObservedAlike memory database world userId id [.list owner]) :
    NoRuns world id := by
  intro job hjob hlink
  have hlists := hlisted job.userId
  unfold ObservedAlike at hlists
  rw [observes_list hmemory, observes_list hdatabase, deleted_jobs hsearch howner .inMemory] at hlists
  simp only [List.cons.injEq, Seen.list.injEq, Except.ok.injEq, and_true] at hlists
  have hmem : job ∈ world.jobs.listForUser job.userId :=
    (List.mem_insertionSort _).mpr (List.mem_filter.mpr ⟨hjob, decide_eq_true rfl⟩)
  rw [hlists] at hmem
  obtain ⟨hdeleted, -⟩ := List.mem_filter.mp ((List.mem_insertionSort _).mp hmem)
  exact noRuns_deleted hsearch howner job hdeleted hlink

end

namespace Sample

def hourlyRun : ResearchJob :=
  { job with status := .completed, recurringSearchId := some hourly.id }

def withHourly (runs : Jobs) : JobWorld :=
  { world with jobs := runs, recurring := Table.empty.insert hourly }

end Sample

end AgentBoilerplate.Job
