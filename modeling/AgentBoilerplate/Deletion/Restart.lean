import AgentBoilerplate.Deletion
import AgentBoilerplate.Effects.Footprint
import AgentBoilerplate.Job.Lemmas
import AgentBoilerplate.Knowledge.Retrieval
import AgentBoilerplate.Session.Lemmas

namespace AgentBoilerplate.Deletion

open Effects Collections

-- Each result and step belongs to a stored job, and each chunk to a stored
-- document, whose owner it carries.
structure Owned (db : Database) : Prop where
  results : ∀ entry ∈ db.jobs.results, ∃ job ∈ db.jobs.jobs, job.id = entry.1
  steps : ∀ entry ∈ db.jobs.steps, ∃ job ∈ db.jobs.jobs, job.id = entry.1
  chunks : ∀ chunk ∈ db.knowledge.store.chunks, ∃ document ∈ db.knowledge.store.documents,
    document.id = chunk.documentId ∧ document.userId = chunk.userId

-- Nothing of the user is left: what there is belongs to someone else.
structure Erased (userId : Uuid) (db : Database) : Prop where
  jobs : ∀ job ∈ db.jobs.jobs, job.userId ≠ userId
  results : ∀ entry ∈ db.jobs.results, ∃ job ∈ db.jobs.jobs, job.id = entry.1
  steps : ∀ entry ∈ db.jobs.steps, ∃ job ∈ db.jobs.jobs, job.id = entry.1
  recurring : ∀ search ∈ db.jobs.recurring, search.userId ≠ userId
  tokens : ∀ token ∈ db.tokens, token.userId ≠ userId
  channels : ∀ channel ∈ db.jobs.channels, channel.userId ≠ userId
  documents : ∀ document ∈ db.knowledge.store.documents, document.userId ≠ userId
  chunks : ∀ chunk ∈ db.knowledge.store.chunks, chunk.userId ≠ userId ∧
    ∃ document ∈ db.knowledge.store.documents, document.id = chunk.documentId
  users : ∀ user ∈ db.users, user.id ≠ userId

-- The records of everyone else are as they were.
structure OthersKept (userId : Uuid) (before after : Database) : Prop where
  jobs : ∀ job, job.userId ≠ userId → (job ∈ after.jobs.jobs ↔ job ∈ before.jobs.jobs)
  results : ∀ job ∈ before.jobs.jobs, job.userId ≠ userId → ∀ results,
    (job.id, results) ∈ after.jobs.results ↔ (job.id, results) ∈ before.jobs.results
  steps : ∀ job ∈ before.jobs.jobs, job.userId ≠ userId → ∀ steps,
    (job.id, steps) ∈ after.jobs.steps ↔ (job.id, steps) ∈ before.jobs.steps
  recurring : ∀ search, search.userId ≠ userId →
    (search ∈ after.jobs.recurring ↔ search ∈ before.jobs.recurring)
  tokens : ∀ token, token.userId ≠ userId → (token ∈ after.tokens ↔ token ∈ before.tokens)
  channels : ∀ channel, channel.userId ≠ userId →
    (channel ∈ after.jobs.channels ↔ channel ∈ before.jobs.channels)
  documents : ∀ document, document.userId ≠ userId →
    (document ∈ after.knowledge.store.documents ↔ document ∈ before.knowledge.store.documents)
  chunks : ∀ chunk, chunk.userId ≠ userId →
    (chunk ∈ after.knowledge.store.chunks ↔ chunk ∈ before.knowledge.store.chunks)
  users : ∀ user, user.id ≠ userId → (user ∈ after.users ↔ user ∈ before.users)

namespace Database

variable (db : Database) (userId : Uuid)

-- The jobs of a user, by their identifiers.
def jobsOf : List Uuid :=
  (db.jobs.jobs.rows.filter fun job => job.userId = userId).map Job.ResearchJob.id

-- The database without what belongs to a user.
def without : Database :=
  { db with
    jobs := { db.jobs with
      jobs := db.jobs.jobs.retain fun job => job.userId ≠ userId
      results := db.jobs.results.retain fun entry => entry.1 ∉ db.jobsOf userId
      steps := db.jobs.steps.retain fun entry => entry.1 ∉ db.jobsOf userId
      recurring := db.jobs.recurring.retain fun search => search.userId ≠ userId
      channels := db.jobs.channels.retain fun channel => channel.userId ≠ userId }
    knowledge := { db.knowledge with
      store := db.knowledge.store.deleteAllForUser .inMemory userId }
    tokens := db.tokens.retain fun token => token.userId ≠ userId
    users := db.users.remove userId }

-- What is stored, whatever calls were made.
def records : Database := { db with calls := 0 }

variable {db userId}

theorem mem_jobsOf {jobId : Uuid} :
    jobId ∈ db.jobsOf userId ↔ ∃ job ∈ db.jobs.jobs, job.userId = userId ∧ job.id = jobId := by
  simp only [jobsOf, List.mem_map, List.mem_filter, decide_eq_true_eq, and_assoc]
  rfl

theorem notMem_jobsOf {job : Job.ResearchJob} (h : job ∈ db.jobs.jobs) (hne : job.userId ≠ userId) :
    job.id ∉ db.jobsOf userId := by
  intro hmem
  obtain ⟨other, hother, howner, hid⟩ := mem_jobsOf.mp hmem
  rw [db.jobs.jobs.eq_of_key hother h hid] at howner
  exact hne howner

-- What is kept of the results or the steps belongs to a job that is kept.
theorem entries_erased {α : Type} {entries : Job.PerJob α}
    (h : ∀ entry ∈ entries, ∃ job ∈ db.jobs.jobs, job.id = entry.1) {entry : Uuid × List α}
    (hentry : entry ∈ entries.retain fun entry => entry.1 ∉ db.jobsOf userId) :
    ∃ job ∈ (db.without userId).jobs.jobs, job.id = entry.1 := by
  obtain ⟨hold, hkept⟩ := (Table.mem_retain _ _ _).mp hentry
  obtain ⟨job, hjob, hid⟩ := h entry hold
  refine ⟨job, (Table.mem_retain _ _ _).mpr ⟨hjob, ?_⟩, hid⟩
  by_contra howner
  exact of_decide_eq_true hkept (mem_jobsOf.mpr ⟨job, hjob, by simpa using howner, hid⟩)

theorem without_erased (h : Owned db) : Erased userId (db.without userId) where
  jobs job hjob := by simpa using ((Table.mem_retain _ _ _).mp hjob).2
  results entry hentry := entries_erased h.results hentry
  steps entry hentry := entries_erased h.steps hentry
  recurring search hsearch := by simpa using ((Table.mem_retain _ _ _).mp hsearch).2
  tokens token htoken := by simpa using ((Table.mem_retain _ _ _).mp htoken).2
  channels channel hchannel := by simpa using ((Table.mem_retain _ _ _).mp hchannel).2
  documents document hdocument := by simpa using ((Table.mem_retain _ _ _).mp hdocument).2
  chunks chunk hchunk := by
    obtain ⟨hold, hkept⟩ := List.mem_filter.mp hchunk
    have howner : chunk.userId ≠ userId := by simpa using hkept
    obtain ⟨document, hdocument, hid, huser⟩ := h.chunks chunk hold
    refine ⟨howner, document, (Table.mem_retain _ _ _).mpr ⟨hdocument, ?_⟩, hid⟩
    simpa [huser] using howner
  users user huser := ((Table.mem_remove _ _ _).mp huser).2

theorem without_othersKept : OthersKept userId db (db.without userId) where
  jobs job hjob := by simp [without, hjob]
  results job hjob hne results := by simp [without, notMem_jobsOf hjob hne]
  steps job hjob hne steps := by simp [without, notMem_jobsOf hjob hne]
  recurring search hsearch := by simp [without, hsearch]
  tokens token htoken := by simp [without, htoken]
  channels channel hchannel := by simp [without, hchannel]
  documents document hdocument := by
    simp [without, Knowledge.DocumentStore.deleteAllForUser, hdocument]
  chunks chunk hchunk := by simp [without, Knowledge.DocumentStore.deleteAllForUser, hchunk]
  users user huser := by simp [without, huser]

theorem jobsOf_deleteJobs : (db.deleteJobs userId).jobsOf userId = [] := by
  refine List.eq_nil_iff_forall_not_mem.mpr fun jobId hmem => ?_
  obtain ⟨job, hjob, howner, -⟩ := mem_jobsOf.mp hmem
  simpa [howner] using ((Table.mem_retain _ _ _).mp hjob).2

-- Whatever has been deleted already makes no difference to what is left.
theorem deleteRecurring_without :
    (db.deleteRecurring .inMemory userId).without userId = db.without userId := by
  have hrecurring : (db.deleteRecurring .inMemory userId).jobs.recurring =
      db.jobs.recurring.retain fun search => search.userId ≠ userId := rfl
  rw [without, hrecurring, Table.retain_retain]
  rfl

theorem deleteJobs_without : (db.deleteJobs userId).without userId = db.without userId := by
  have hjobs : (db.deleteJobs userId).jobs.jobs = db.jobs.jobs.retain fun job => job.userId ≠ userId :=
    rfl
  have hresults : (db.deleteJobs userId).jobs.results =
      db.jobs.results.retain fun entry => entry.1 ∉ db.jobsOf userId := rfl
  have hsteps : (db.deleteJobs userId).jobs.steps =
      db.jobs.steps.retain fun entry => entry.1 ∉ db.jobsOf userId := rfl
  have hall : ∀ {α : Type} (entries : Job.PerJob α),
      (entries.retain fun entry => entry.1 ∉ ([] : List Uuid)) = entries :=
    fun entries => Table.retain_all fun entry _ => by simp
  rw [without, jobsOf_deleteJobs, hall, hall, hjobs, hresults, hsteps, Table.retain_retain]
  rfl

theorem deleteRefreshTokens_without :
    (db.deleteRefreshTokens userId).without userId = db.without userId := by
  have htokens : (db.deleteRefreshTokens userId).tokens =
      db.tokens.retain fun token => token.userId ≠ userId := rfl
  rw [without, htokens, Table.retain_retain]
  rfl

theorem deleteChannels_without : (db.deleteChannels userId).without userId = db.without userId := by
  have hchannels : (db.deleteChannels userId).jobs.channels =
      db.jobs.channels.retain fun channel => channel.userId ≠ userId := rfl
  rw [without, hchannels, Table.retain_retain]
  rfl

theorem deleteDocuments_without :
    (db.deleteDocuments .inMemory userId).without userId = db.without userId := by
  have hstore : (db.deleteDocuments .inMemory userId).knowledge.store =
      db.knowledge.store.deleteAllForUser .inMemory userId := rfl
  have htwice : (db.knowledge.store.deleteAllForUser .inMemory userId).deleteAllForUser .inMemory userId =
      db.knowledge.store.deleteAllForUser .inMemory userId := by
    simp only [Knowledge.DocumentStore.deleteAllForUser, Table.retain_retain, List.filter_filter,
      Bool.and_self]
  rw [without, hstore, htwice]
  rfl

theorem deleteUser_without : (db.deleteUser .inMemory userId).without userId = db.without userId := by
  have husers : (db.deleteUser .inMemory userId).users = db.users.remove userId := rfl
  have htwice : (db.users.remove userId).remove userId = db.users.remove userId :=
    Table.retain_retain db.users _
  rw [without, husers, htwice]
  rfl

end Database

-- Whose records a call deletes.
def DeletionCall.owner : DeletionCall → Uuid
  | .recurring userId | .jobs userId | .refreshTokens userId | .channels userId | .documents userId
  | .user userId => userId

theorem deleteAccount_within (userId : Uuid) :
    Fallible.Within (fun request : DeletionCall => request.owner = userId) (deleteAccount userId) := by
  have hask : ∀ request : DeletionCall, request.owner = userId →
      (ask request).Within fun request : DeletionCall => request.owner = userId :=
    fun request h => Program.within_call h
  refine Fallible.Within.bind (Fallible.within_orFail (hask (.recurring userId) rfl)) fun _ => ?_
  refine Fallible.Within.bind (Fallible.within_orFail (hask (.jobs userId) rfl)) fun _ => ?_
  refine Fallible.Within.bind (Fallible.within_orFail (hask (.refreshTokens userId) rfl)) fun _ => ?_
  refine Fallible.Within.bind (Fallible.within_orFail (hask (.channels userId) rfl)) fun _ => ?_
  refine Fallible.Within.bind (Fallible.within_orFail (hask (.documents userId) rfl)) fun _ => ?_
  exact Fallible.within_orFail (hask (.user userId) rfl)

namespace DatabaseEnv

variable {env : DatabaseEnv} {db : Database} {userId : Uuid}

theorem attempt_without {α : Type} {effect : Database → Except PortError α × Database}
    (heffect : ∀ db, (effect db).2.without userId = db.without userId) :
    ((env.attempt db effect).2.without userId).records = (db.without userId).records := by
  unfold attempt
  split
  · rfl
  · rw [heffect]
    rfl

theorem attempt_ok {α : Type} {effect : Database → Except PortError α × Database} {value : α}
    {later : Database} (h : env.attempt db effect = (.ok value, later)) :
    later = (effect { db with calls := db.calls + 1 }).2 := by
  unfold attempt at h
  split at h
  · cases h
  · rw [h]

-- A call of the deletion, whether it fails or not, leaves the same to be left.
theorem deletion_without (henv : env.adapter = .inMemory) {request : DeletionCall}
    (hrequest : request.owner = userId) :
    ((env.deletion request db).2.without userId).records = (db.without userId).records := by
  subst hrequest
  cases request with
  | recurring userId =>
      refine attempt_without fun db => ?_
      rw [henv]
      exact Database.deleteRecurring_without
  | jobs userId => exact attempt_without fun db => Database.deleteJobs_without
  | refreshTokens userId => exact attempt_without fun db => Database.deleteRefreshTokens_without
  | channels userId => exact attempt_without fun db => Database.deleteChannels_without
  | documents userId =>
      refine attempt_without fun db => ?_
      rw [henv]
      exact Database.deleteDocuments_without
  | user userId =>
      refine attempt_without fun db => ?_
      rw [henv]
      exact Database.deleteUser_without

theorem execute_without (henv : env.adapter = .inMemory) :
    ((env.execute db userId).2.without userId).records = (db.without userId).records := by
  have hstep : ∀ (request : DeletionCall) (later : Database), request.owner = userId →
      (later.without userId).records = (db.without userId).records →
      ((env.deletion request later).2.without userId).records = (db.without userId).records :=
    fun request later hrequest h => (deletion_without henv hrequest).trans h
  exact @Program.Within.run_keeps _ _ _ _ env.deletion
    (fun later : Database => (later.without userId).records = (db.without userId).records) hstep _
    (deleteAccount_within userId) db rfl

-- A deletion that succeeds has made all its calls.
theorem execute_ok (henv : env.adapter = .inMemory) (h : (env.execute db userId).1 = .ok ()) :
    (env.execute db userId).2.records = (db.without userId).records := by
  simp only [execute, deleteAccount, Fallible.run_orFail_bind, Fallible.run_orFail, ask,
    Program.call_bind, Program.done_bind, Program.run_call] at h ⊢
  rcases hrecurring : env.deletion (.recurring userId) db with ⟨_ | _, db₁⟩
  · rw [hrecurring] at h
    cases h
  rw [hrecurring] at h
  rcases hjobs : env.deletion (.jobs userId) db₁ with ⟨_ | _, db₂⟩
  · simp only [Program.run_call, hjobs] at h
    cases h
  rcases htokens : env.deletion (.refreshTokens userId) db₂ with ⟨_ | _, db₃⟩
  · simp only [Program.run_call, hjobs, htokens] at h
    cases h
  rcases hchannels : env.deletion (.channels userId) db₃ with ⟨_ | _, db₄⟩
  · simp only [Program.run_call, hjobs, htokens, hchannels] at h
    cases h
  rcases hdocuments : env.deletion (.documents userId) db₄ with ⟨_ | _, db₅⟩
  · simp only [Program.run_call, hjobs, htokens, hchannels, hdocuments] at h
    cases h
  rcases huser : env.deletion (.user userId) db₅ with ⟨_ | _, db₆⟩
  · simp only [Program.run_call, hjobs, htokens, hchannels, hdocuments, huser] at h
    cases h
  simp only [Program.run_call, Program.run_done, hjobs, htokens, hchannels, hdocuments, huser]
  have hrecurring' : env.attempt db (fun db => (.ok _, db.deleteRecurring env.adapter userId)) = _ :=
    hrecurring
  have hjobs' : env.attempt db₁ (fun db => (.ok _, db.deleteJobs userId)) = _ := hjobs
  have htokens' : env.attempt db₂ (fun db => (.ok _, db.deleteRefreshTokens userId)) = _ := htokens
  have hchannels' : env.attempt db₃ (fun db => (.ok _, db.deleteChannels userId)) = _ := hchannels
  have hdocuments' : env.attempt db₄ (fun db => (.ok _, db.deleteDocuments env.adapter userId)) = _ :=
    hdocuments
  have huser' : env.attempt db₅ (fun db => (.ok (), db.deleteUser env.adapter userId)) = _ := huser
  rw [attempt_ok huser', attempt_ok hdocuments', attempt_ok hchannels', attempt_ok htokens',
    attempt_ok hjobs', attempt_ok hrecurring', henv]
  rfl

end DatabaseEnv

theorem Erased.of_records {userId : Uuid} {db : Database} (h : Erased userId db.records) :
    Erased userId db :=
  ⟨h.jobs, h.results, h.steps, h.recurring, h.tokens, h.channels, h.documents, h.chunks, h.users⟩

theorem OthersKept.of_records {userId : Uuid} {before after : Database}
    (h : OthersKept userId before after.records) : OthersKept userId before after :=
  ⟨h.jobs, h.results, h.steps, h.recurring, h.tokens, h.channels, h.documents, h.chunks, h.users⟩

-- A deletion that failed wherever, and then one that succeeds, leave what one
-- that succeeds at once leaves: nothing of the user, and all of the others'.
theorem deletion_restartable {env env' : DatabaseEnv} (henv : env.adapter = .inMemory)
    (henv' : env'.adapter = .inMemory) {db : Database} (hdb : Owned db) {userId : Uuid}
    (hagain : (env.execute (env.execute db userId).2 userId).1 = .ok ())
    (honce : (env'.execute db userId).1 = .ok ()) :
    (env.execute (env.execute db userId).2 userId).2.records = (env'.execute db userId).2.records ∧
      Erased userId (env'.execute db userId).2 ∧
        OthersKept userId db (env'.execute db userId).2 := by
  have hleft := DatabaseEnv.execute_ok henv' honce
  have herased : Erased userId (db.without userId) := Database.without_erased hdb
  have hkept : OthersKept userId db (db.without userId) := Database.without_othersKept
  refine ⟨?_, Erased.of_records ?_, OthersKept.of_records ?_⟩
  · rw [hleft, DatabaseEnv.execute_ok henv hagain, DatabaseEnv.execute_without henv]
  · rw [hleft]
    exact ⟨herased.jobs, herased.results, herased.steps, herased.recurring, herased.tokens,
      herased.channels, herased.documents, herased.chunks, herased.users⟩
  · rw [hleft]
    exact ⟨hkept.jobs, hkept.results, hkept.steps, hkept.recurring, hkept.tokens, hkept.channels,
      hkept.documents, hkept.chunks, hkept.users⟩

namespace Sample

-- The connection is lost at one of the calls.
def env (adapter : Adapter) (lost : Option Nat) : DatabaseEnv where
  jobs := Job.Sample.env adapter
  knowledge := Knowledge.Sample.env adapter
  adapters := rfl
  fault n := if some n = lost then some ⟨"database error: connection reset"⟩ else none

-- The user has a session and a completed search, another user has a document.
def db : Database where
  jobs := { Job.Sample.world with
    results := Table.empty.insert (Job.Sample.job.id, [])
    steps := Table.empty.insert (Job.Sample.job.id, []) }
  knowledge := { Knowledge.Sample.world with
    store := {
      documents := Table.empty.insert Knowledge.Sample.document
      chunks := [Knowledge.storedChunk Knowledge.Sample.document Knowledge.Sample.chunk] } }
  tokens := Session.Sample.world.tokens
  users := Session.Sample.world.users
  calls := 0

theorem owned : Owned db where
  results entry hentry := by
    obtain rfl := List.mem_singleton.mp hentry
    exact ⟨Job.Sample.job, List.mem_singleton_self _, rfl⟩
  steps entry hentry := by
    obtain rfl := List.mem_singleton.mp hentry
    exact ⟨Job.Sample.job, List.mem_singleton_self _, rfl⟩
  chunks chunk hchunk := by
    obtain rfl := List.mem_singleton.mp hchunk
    exact ⟨Knowledge.Sample.document, List.mem_singleton_self _, rfl, rfl⟩

end Sample

-- The connection is lost after the jobs are deleted, and the user tries again.
theorem deletion_restarted :
    let env := Sample.env .inMemory (some 2)
    let failed := env.execute Sample.db Session.Sample.user.id
    let once := (Sample.env .inMemory none).execute Sample.db Session.Sample.user.id
    failed.1 = .error ⟨"database error: connection reset"⟩ ∧
      (env.execute failed.2 Session.Sample.user.id).2.records = once.2.records ∧
        Erased Session.Sample.user.id once.2 ∧ OthersKept Session.Sample.user.id Sample.db once.2 := by
  refine ⟨by rfl, ?_⟩
  exact deletion_restartable rfl rfl Sample.owned (by rfl) (by rfl)

end AgentBoilerplate.Deletion
