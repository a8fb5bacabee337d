import AgentBoilerplate.Deletion.Restart
import AgentBoilerplate.Job.Absorbing
import AgentBoilerplate.Job.Journal

namespace AgentBoilerplate.Deletion

open Effects Collections

-- No result and no step of the job is stored.
def Bare (db : Database) (jobId : Uuid) : Prop :=
  db.jobs.results.of jobId = [] ∧ db.jobs.steps.of jobId = []

def HasDocument (db : Database) (chunk : Knowledge.StoredChunk) : Prop :=
  ∃ document ∈ db.knowledge.store.documents, document.id = chunk.documentId

-- What no call brings in: a job, or a document, of another identifier or owner;
-- results or steps of a job that is not stored; a chunk of a document that is
-- not stored.
structure Descends (adapter : Adapter) (db later : Database) : Prop where
  jobs : ∀ job ∈ later.jobs.jobs, ∃ old ∈ db.jobs.jobs, old.id = job.id ∧ old.userId = job.userId
  entries : ∀ jobId, (∀ job ∈ later.jobs.jobs, job.id ≠ jobId) →
    ((∃ job ∈ db.jobs.jobs, job.id = jobId) ∨ Bare db jobId) → Bare later jobId
  documents : ∀ document ∈ later.knowledge.store.documents, ∃ old ∈ db.knowledge.store.documents,
    old.id = document.id ∧ old.userId = document.userId
  chunks : ∀ chunk ∈ later.knowledge.store.chunks, chunk ∈ db.knowledge.store.chunks ∨
    ∃ document ∈ db.knowledge.store.documents,
      document.id = chunk.documentId ∧ document.userId = chunk.userId
  stored : adapter = .postgres → (∀ chunk ∈ db.knowledge.store.chunks, HasDocument db chunk) →
    ∀ chunk ∈ later.knowledge.store.chunks, HasDocument later chunk

namespace Descends

variable {adapter : Adapter} {db mid later : Database} {userId : Uuid}

theorem of_same (hjobs : later.jobs.jobs = db.jobs.jobs) (hresults : later.jobs.results = db.jobs.results)
    (hsteps : later.jobs.steps = db.jobs.steps) (hstore : later.knowledge.store = db.knowledge.store) :
    Descends adapter db later where
  jobs job hjob := ⟨job, hjobs ▸ hjob, rfl, rfl⟩
  entries jobId hnone hbare := by
    rw [hjobs] at hnone
    rcases hbare with ⟨job, hjob, hid⟩ | hbare
    · exact absurd hid (hnone job hjob)
    · unfold Bare
      rwa [hresults, hsteps]
  documents document hdocument := ⟨document, hstore ▸ hdocument, rfl, rfl⟩
  chunks chunk hchunk := Or.inl (hstore ▸ hchunk)
  stored _ hall chunk hchunk := by
    unfold HasDocument
    rw [hstore] at hchunk ⊢
    exact hall chunk hchunk

theorem refl (adapter : Adapter) (db : Database) : Descends adapter db db := of_same rfl rfl rfl rfl

theorem trans (h : Descends adapter db mid) (h' : Descends adapter mid later) :
    Descends adapter db later where
  jobs job hjob := by
    obtain ⟨between, hbetween, hid, howner⟩ := h'.jobs job hjob
    obtain ⟨old, hold, hid', howner'⟩ := h.jobs between hbetween
    exact ⟨old, hold, hid'.trans hid, howner'.trans howner⟩
  entries jobId hnone hbare := by
    refine h'.entries jobId hnone ?_
    by_cases hmid : ∃ job ∈ mid.jobs.jobs, job.id = jobId
    · exact Or.inl hmid
    · exact Or.inr (h.entries jobId (fun job hjob hid => hmid ⟨job, hjob, hid⟩) hbare)
  documents document hdocument := by
    obtain ⟨between, hbetween, hid, howner⟩ := h'.documents document hdocument
    obtain ⟨old, hold, hid', howner'⟩ := h.documents between hbetween
    exact ⟨old, hold, hid'.trans hid, howner'.trans howner⟩
  chunks chunk hchunk := by
    rcases h'.chunks chunk hchunk with hmid | ⟨between, hbetween, hid, howner⟩
    · exact h.chunks chunk hmid
    · obtain ⟨old, hold, hid', howner'⟩ := h.documents between hbetween
      exact Or.inr ⟨old, hold, hid'.trans hid, howner'.trans howner⟩
  stored hadapter hall := h'.stored hadapter (h.stored hadapter hall)

theorem deleteRecurring (adapter : Adapter) (db : Database) (userId : Uuid) :
    Descends adapter db (db.deleteRecurring adapter userId) := by
  cases adapter with
  | inMemory => exact of_same rfl rfl rfl rfl
  | postgres =>
      constructor
      · intro job hjob
        obtain ⟨old, hold, rfl⟩ := (Table.mem_mapRows _ _ (by intro; rfl) _).mp hjob
        exact ⟨old, hold, rfl, rfl⟩
      · intro jobId hnone hbare
        rcases hbare with ⟨job, hjob, hid⟩ | hbare
        · have hlater : ∃ row ∈ (db.deleteRecurring .postgres userId).jobs.jobs, row.id = job.id :=
            ⟨_, Table.mem_mapRows_of_mem (by intro; rfl) hjob, rfl⟩
          obtain ⟨row, hrow, hrowid⟩ := hlater
          exact absurd (hrowid.trans hid) (hnone row hrow)
        · exact hbare
      · exact fun document hdocument => ⟨document, hdocument, rfl, rfl⟩
      · exact fun chunk hchunk => Or.inl hchunk
      · exact fun _ hall => hall

theorem retained_of {α : Type} {entries : Job.PerJob α} {doomed : List Uuid} {jobId : Uuid}
    (h : jobId ∈ doomed ∨ entries.of jobId = []) :
    Job.PerJob.of (entries.retain fun entry => entry.1 ∉ doomed) jobId = [] := by
  have hnone : (entries.retain fun entry => entry.1 ∉ doomed).get jobId = none ∨
      entries.of jobId = [] := by
    rcases h with hdoomed | hbare
    · refine Or.inl ((Table.get_eq_none _ _).mpr fun entry hentry hid => ?_)
      have hkept := ((Table.mem_retain _ _ _).mp hentry).2
      exact of_decide_eq_true hkept (hid ▸ hdoomed)
    · exact Or.inr hbare
  unfold Job.PerJob.of
  rcases hnone with hnone | hbare
  · rw [hnone]
    rfl
  · cases hget : (entries.retain fun entry => entry.1 ∉ doomed).get jobId with
    | none => rfl
    | some entry =>
        obtain ⟨hentry, hid⟩ := (Table.get_eq_some _ _ _).mp hget
        have hold := (Table.get_eq_some _ _ _).mpr ⟨((Table.mem_retain _ _ _).mp hentry).1, hid⟩
        rw [Job.PerJob.of, hold] at hbare
        exact hbare

theorem deleteJobs (adapter : Adapter) (db : Database) (userId : Uuid) :
    Descends adapter db (db.deleteJobs userId) where
  jobs job hjob := ⟨job, ((Table.mem_retain _ _ _).mp hjob).1, rfl, rfl⟩
  entries jobId hnone hbare := by
    have hdoomed : jobId ∈ db.jobsOf userId ∨ Bare db jobId := by
      rcases hbare with ⟨job, hjob, rfl⟩ | hbare
      · refine Or.inl (Database.mem_jobsOf.mpr ⟨job, hjob, ?_, rfl⟩)
        by_contra howner
        exact hnone job ((Table.mem_retain _ _ _).mpr ⟨hjob, by simpa using howner⟩) rfl
      · exact Or.inr hbare
    exact ⟨retained_of (hdoomed.imp id And.left), retained_of (hdoomed.imp id And.right)⟩
  documents document hdocument := ⟨document, hdocument, rfl, rfl⟩
  chunks chunk hchunk := Or.inl hchunk
  stored _ hall := hall

-- The deletion of documents, by whichever port.
theorem documents_retained (hjobs : later.jobs = db.jobs)
    (hdocuments : ∀ document ∈ later.knowledge.store.documents,
      document ∈ db.knowledge.store.documents)
    (hchunks : ∀ chunk ∈ later.knowledge.store.chunks, chunk ∈ db.knowledge.store.chunks)
    (hcascade : adapter = .postgres → ∀ chunk ∈ later.knowledge.store.chunks,
      ∀ document ∈ db.knowledge.store.documents, document.id = chunk.documentId →
        document ∈ later.knowledge.store.documents) : Descends adapter db later where
  jobs job hjob := ⟨job, hjobs ▸ hjob, rfl, rfl⟩
  entries jobId hnone hbare := by
    rcases hbare with ⟨job, hjob, hid⟩ | hbare
    · exact absurd hid (hnone job (hjobs ▸ hjob))
    · unfold Bare
      rwa [hjobs]
  documents document hdocument := ⟨document, hdocuments document hdocument, rfl, rfl⟩
  chunks chunk hchunk := Or.inl (hchunks chunk hchunk)
  stored hadapter hall chunk hchunk := by
    obtain ⟨document, hdocument, hid⟩ := hall chunk (hchunks chunk hchunk)
    exact ⟨document, hcascade hadapter chunk hchunk document hdocument hid, hid⟩

theorem deleteDocuments (db : Database) (userId : Uuid) :
    Descends adapter db (db.deleteDocuments adapter userId) := by
  cases adapter with
  | inMemory =>
      refine documents_retained rfl ?_ ?_ ?_
      · exact fun document hdocument => ((Table.mem_retain _ _ _).mp hdocument).1
      · exact fun chunk hchunk => List.mem_of_mem_filter hchunk
      · intro hadapter
        cases hadapter
  | postgres =>
      refine documents_retained rfl ?_ ?_ ?_
      · exact fun document hdocument => ((Table.mem_retain _ _ _).mp hdocument).1
      · exact fun chunk hchunk => List.mem_of_mem_filter hchunk
      · intro _ chunk hchunk document hdocument hid
        have hkept := (List.mem_filter.mp hchunk).2
        rw [(Table.get_eq_some _ _ _).mpr ⟨hdocument, hid⟩] at hkept
        exact (Table.mem_retain _ _ _).mpr ⟨hdocument, by simpa using hkept⟩

theorem deleteUser (db : Database) (userId : Uuid) :
    Descends adapter db (db.deleteUser adapter userId) := by
  cases adapter with
  | inMemory => exact of_same rfl rfl rfl rfl
  | postgres =>
      unfold Database.deleteUser
      dsimp only
      split
      · have htokens : ∀ db : Database, Descends .postgres db (db.deleteRefreshTokens userId) :=
          fun db => of_same rfl rfl rfl rfl
        have hchannels : ∀ db : Database, Descends .postgres db (db.deleteChannels userId) :=
          fun db => of_same rfl rfl rfl rfl
        have hcascade : Descends .postgres db (db.cascade userId) := by
          refine (deleteRecurring .postgres db userId).trans ?_
          refine (deleteJobs .postgres _ userId).trans ?_
          refine (htokens _).trans ?_
          refine (hchannels _).trans ?_
          refine (deleteDocuments _ userId).trans ?_
          refine documents_retained rfl ?_ ?_ ?_
          · exact fun document hdocument => hdocument
          · exact fun chunk hchunk => List.mem_of_mem_filter hchunk
          · exact fun _ chunk _ document hdocument _ => hdocument
        exact hcascade.trans (of_same rfl rfl rfl rfl)
      · exact refl _ db

-- The calls of a deletion, whether they fail or not.
theorem deletion (env : DatabaseEnv) (request : DeletionCall) (db : Database) :
    Descends env.adapter db (env.deletion request db).2 := by
  have hattempt : ∀ {α : Type} {effect : Database → Except PortError α × Database},
      (∀ db, Descends env.adapter db (effect db).2) →
        Descends env.adapter db (env.attempt db effect).2 := by
    intro α effect heffect
    have hcalled : Descends env.adapter db { db with calls := db.calls + 1 } := of_same rfl rfl rfl rfl
    unfold DatabaseEnv.attempt
    split
    · exact hcalled
    · exact hcalled.trans (heffect _)
  cases request with
  | recurring userId => exact hattempt fun db => deleteRecurring env.adapter db userId
  | jobs userId => exact hattempt fun db => deleteJobs env.adapter db userId
  | refreshTokens userId => exact hattempt fun db => of_same rfl rfl rfl rfl
  | channels userId => exact hattempt fun db => of_same rfl rfl rfl rfl
  | documents userId => exact hattempt fun db => deleteDocuments db userId
  | user userId => exact hattempt fun db => deleteUser db userId

end Descends

-- A write of the map finds the job, or the document, that it is of.
def FindsRow (env : DatabaseEnv) (db : Database) : DatabasePorts.Call → Prop
  | .inl (.update job) => env.adapter = .inMemory → env.jobs.fault db.jobs.calls = none →
      ∃ row ∈ db.jobs.jobs.rows, row.id = job.id
  | .inl (.storeResults jobId results) => env.adapter = .inMemory →
      env.jobs.fault db.jobs.calls = none → results = [] ∨ ∃ row ∈ db.jobs.jobs.rows, row.id = jobId
  | .inl (.appendStep jobId _) => env.adapter = .inMemory → env.jobs.fault db.jobs.calls = none →
      ∃ row ∈ db.jobs.jobs.rows, row.id = jobId
  | .inr (.inl (.storeChunks document batch)) => env.adapter = .inMemory →
      env.knowledge.fault db.knowledge.calls = none →
        batch = [] ∨ ∃ row ∈ db.knowledge.store.documents.rows, row.id = document.id
  | _ => True

instance (env : DatabaseEnv) (db : Database) :
    (request : DatabasePorts.Call) → Decidable (FindsRow env db request)
  | .inl (.update job) => inferInstanceAs (Decidable (env.adapter = .inMemory →
      env.jobs.fault db.jobs.calls = none → ∃ row ∈ db.jobs.jobs.rows, row.id = job.id))
  | .inl (.storeResults jobId results) => inferInstanceAs (Decidable (env.adapter = .inMemory →
      env.jobs.fault db.jobs.calls = none →
        results = [] ∨ ∃ row ∈ db.jobs.jobs.rows, row.id = jobId))
  | .inl (.appendStep jobId _) => inferInstanceAs (Decidable (env.adapter = .inMemory →
      env.jobs.fault db.jobs.calls = none → ∃ row ∈ db.jobs.jobs.rows, row.id = jobId))
  | .inr (.inl (.storeChunks document batch)) => inferInstanceAs (Decidable (env.adapter = .inMemory →
      env.knowledge.fault db.knowledge.calls = none →
        batch = [] ∨ ∃ row ∈ db.knowledge.store.documents.rows, row.id = document.id))
  | .inl (.insert _) | .inl (.find _) | .inl (.countCreatedSince _ _)
  | .inl (.listUnfinishedOlderThan _) | .inl (.clearSteps _) | .inl (.addUsage _ _)
  | .inl (.recentUrlsForRecurring _ _) | .inl (.findRecurring _) | .inl (.listDue _)
  | .inl (.markRan _ _) | .inl (.listChannels _) | .inl (.sendDigest _ _) | .inl (.notify _ _)
  | .inl (.dispatch _ _) | .inl .utcNow | .inl .newUuid => isTrue trivial
  | .inr (.inl (.insert _)) | .inr (.inl (.find _)) | .inr (.inl (.listForUser _))
  | .inr (.inl (.markFailed _ _)) | .inr (.inl (.delete _ _)) | .inr (.inl (.retrieve _ _ _))
  | .inr (.inl (.deleteAllForUser _)) | .inr (.inl (.dispatchEmbed _ _ _)) | .inr (.inl .utcNow)
  | .inr (.inl .newUuid) => isTrue trivial
  | .inr (.inr _) => isTrue trivial

-- The owners of the jobs and of the documents that were stored at the start.
def JobOwner (start : Database) (jobId userId : Uuid) : Prop :=
  ∃ job ∈ start.jobs.jobs, job.id = jobId ∧ job.userId = userId

def DocumentOwner (start : Database) (documentId userId : Uuid) : Prop :=
  ∃ document ∈ start.knowledge.store.documents, document.id = documentId ∧ document.userId = userId

theorem JobOwner.unique {start : Database} {jobId userId userId' : Uuid}
    (h : JobOwner start jobId userId) (h' : JobOwner start jobId userId') : userId = userId' := by
  obtain ⟨job, hjob, hid, rfl⟩ := h
  obtain ⟨job', hjob', hid', rfl⟩ := h'
  rw [start.jobs.jobs.eq_of_key hjob hjob' (hid.trans hid'.symm)]

theorem DocumentOwner.unique {start : Database} {documentId userId userId' : Uuid}
    (h : DocumentOwner start documentId userId) (h' : DocumentOwner start documentId userId') :
    userId = userId' := by
  obtain ⟨document, hdocument, hid, rfl⟩ := h
  obtain ⟨document', hdocument', hid', rfl⟩ := h'
  rw [start.knowledge.store.documents.eq_of_key hdocument hdocument' (hid.trans hid'.symm)]

-- Everything stored is of a job or a document of the start, and of its owner;
-- what is gone of them has left nothing behind.
structure Traced (adapter : Adapter) (start db : Database) : Prop where
  jobs : ∀ job ∈ db.jobs.jobs, JobOwner start job.id job.userId
  entries : ∀ job ∈ start.jobs.jobs, (∀ row ∈ db.jobs.jobs, row.id ≠ job.id) → Bare db job.id
  documents : ∀ document ∈ db.knowledge.store.documents,
    DocumentOwner start document.id document.userId
  chunks : ∀ chunk ∈ db.knowledge.store.chunks, DocumentOwner start chunk.documentId chunk.userId
  stored : adapter = .postgres → ∀ chunk ∈ db.knowledge.store.chunks, HasDocument db chunk

namespace Traced

variable {adapter : Adapter} {start db later : Database}

theorem begin
    (hchunks : ∀ chunk ∈ start.knowledge.store.chunks,
      ∃ document ∈ start.knowledge.store.documents,
        document.id = chunk.documentId ∧ document.userId = chunk.userId) :
    Traced adapter start start where
  jobs job hjob := ⟨job, hjob, rfl, rfl⟩
  entries job hjob hnone := absurd rfl (hnone job hjob)
  documents document hdocument := ⟨document, hdocument, rfl, rfl⟩
  chunks := hchunks
  stored _ chunk hchunk := by
    obtain ⟨document, hdocument, hid, -⟩ := hchunks chunk hchunk
    exact ⟨document, hdocument, hid⟩

theorem descends (h : Traced adapter start db) (hlater : Descends adapter db later) :
    Traced adapter start later where
  jobs job hjob := by
    obtain ⟨old, hold, hid, howner⟩ := hlater.jobs job hjob
    rw [← hid, ← howner]
    exact h.jobs old hold
  entries job hjob hnone := by
    refine hlater.entries job.id hnone ?_
    by_cases hstored : ∃ row ∈ db.jobs.jobs, row.id = job.id
    · exact Or.inl hstored
    · exact Or.inr (h.entries job hjob fun row hrow hid => hstored ⟨row, hrow, hid⟩)
  documents document hdocument := by
    obtain ⟨old, hold, hid, howner⟩ := hlater.documents document hdocument
    rw [← hid, ← howner]
    exact h.documents old hold
  chunks chunk hchunk := by
    rcases hlater.chunks chunk hchunk with hold | ⟨document, hdocument, hid, howner⟩
    · exact h.chunks chunk hold
    · rw [← hid, ← howner]
      exact h.documents document hdocument
  stored hadapter := hlater.stored hadapter (h.stored hadapter)

end Traced

namespace Descends

variable {env : DatabaseEnv} {adapter : Adapter} {start db later : Database}

theorem of_jobs (hsame : ∀ row ∈ later.jobs.jobs, ∃ old ∈ db.jobs.jobs, old.id = row.id ∧
      old.userId = row.userId)
    (hkept : ∀ old ∈ db.jobs.jobs, ∃ row ∈ later.jobs.jobs, row.id = old.id)
    (hresults : later.jobs.results = db.jobs.results) (hsteps : later.jobs.steps = db.jobs.steps)
    (hstore : later.knowledge = db.knowledge) : Descends adapter db later where
  jobs := hsame
  entries jobId hnone hbare := by
    rcases hbare with ⟨job, hjob, hid⟩ | hbare
    · obtain ⟨row, hrow, hrowid⟩ := hkept job hjob
      exact absurd (hrowid.trans hid) (hnone row hrow)
    · unfold Bare
      rwa [hresults, hsteps]
  documents document hdocument := ⟨document, hstore ▸ hdocument, rfl, rfl⟩
  chunks chunk hchunk := Or.inl (hstore ▸ hchunk)
  stored _ hall chunk hchunk := by
    unfold HasDocument
    rw [hstore] at hchunk ⊢
    exact hall chunk hchunk

theorem of_entries (hjobs : later.jobs.jobs = db.jobs.jobs) (hstore : later.knowledge = db.knowledge)
    (hbare : ∀ jobId, (∀ job ∈ db.jobs.jobs, job.id ≠ jobId) → Bare db jobId → Bare later jobId) :
    Descends adapter db later where
  jobs job hjob := ⟨job, hjobs ▸ hjob, rfl, rfl⟩
  entries jobId hnone hold := by
    rw [hjobs] at hnone
    rcases hold with ⟨job, hjob, hid⟩ | hold
    · exact absurd hid (hnone job hjob)
    · exact hbare jobId hnone hold
  documents document hdocument := ⟨document, hstore ▸ hdocument, rfl, rfl⟩
  chunks chunk hchunk := Or.inl (hstore ▸ hchunk)
  stored _ hall chunk hchunk := by
    unfold HasDocument
    rw [hstore] at hchunk ⊢
    exact hall chunk hchunk

theorem job_attempt {α : Type} {effect : Job.JobWorld → Except PortError α × Job.JobWorld}
    (heffect : env.jobs.fault db.jobs.calls = none →
      Descends adapter db { db with jobs := (effect { db.jobs with calls := db.jobs.calls + 1 }).2 }) :
    Descends adapter db { db with jobs := (env.jobs.attempt db.jobs effect).2 } := by
  unfold Job.JobEnv.attempt
  split
  · exact of_same rfl rfl rfl rfl
  · rename_i hfault
    exact heffect hfault

theorem of_insert {α : Type} (entries : Job.PerJob α) (jobId : Uuid) (values : List α) (id : Uuid) :
    Job.PerJob.of (entries.insert (jobId, values)) id = if id = jobId then values else entries.of id := by
  rw [Job.PerJob.of, Table.get_insert]
  split <;> rfl

theorem updated {jobs : Job.Jobs} {job row : Job.ResearchJob}
    (hfound : adapter = .inMemory → ∃ old ∈ jobs, old.id = job.id ∧ old.userId = job.userId)
    (h : row ∈ jobs.update adapter job) : ∃ old ∈ jobs, old.id = row.id ∧ old.userId = row.userId := by
  unfold Job.Jobs.update at h
  cases adapter with
  | inMemory =>
      rcases (Table.mem_insert _ _ _).mp h with rfl | ⟨hold, -⟩
      · exact hfound rfl
      · exact ⟨row, hold, rfl, rfl⟩
  | postgres =>
      simp only [Table.mem_modify] at h
      obtain ⟨old, hold, rfl⟩ := h
      refine ⟨old, hold, ?_⟩
      split <;> exact ⟨rfl, rfl⟩

theorem usageAdded {jobs : Job.Jobs} {jobId : Uuid} {usage : Job.JobUsage} {row : Job.ResearchJob}
    (h : row ∈ jobs.addUsage jobId usage) : ∃ old ∈ jobs, old.id = row.id ∧ old.userId = row.userId := by
  simp only [Job.Jobs.addUsage, Table.mem_modify] at h
  obtain ⟨old, hold, rfl⟩ := h
  refine ⟨old, hold, ?_⟩
  split <;> exact ⟨rfl, rfl⟩

-- The calls of an operation on jobs that launches nothing, each write of which
-- finds its job.
theorem jobHandler (h : Traced env.adapter start db) {request : Job.JobCall}
    (hinsert : ∀ job, request ≠ .insert job)
    (hupdate : ∀ job, request = .update job → JobOwner start job.id job.userId)
    (hfinds : FindsRow env db (.inl request)) :
    Descends env.adapter db (env.jobHandler request db).2 := by
  cases request with
  | insert job => exact absurd rfl (hinsert job)
  | update job =>
      refine job_attempt fun hfault => of_jobs (fun row hrow => updated ?_ hrow) ?_ rfl rfl rfl
      · intro hadapter
        obtain ⟨old, hold, hid⟩ := hfinds hadapter hfault
        have howner := h.jobs old hold
        rw [hid] at howner
        exact ⟨old, hold, hid, howner.unique (hupdate job rfl)⟩
      · intro old hold
        obtain ⟨row, hrow, hid, -⟩ := Job.Jobs.update_mem env.adapter job hold
        exact ⟨row, hrow, hid⟩
  | addUsage jobId usage =>
      refine job_attempt fun _ => of_jobs (fun row hrow => usageAdded hrow) ?_ rfl rfl rfl
      intro old hold
      obtain ⟨row, hrow, hid, -⟩ := Job.Jobs.addUsage_mem jobId usage hold
      exact ⟨row, hrow, hid⟩
  | storeResults jobId results =>
      simp only [DatabaseEnv.jobHandler]
      split
      · exact job_attempt fun _ => of_same rfl rfl rfl rfl
      · rename_i hkept
        refine job_attempt fun hfault => of_entries rfl rfl fun id hnone hbare => ⟨?_, hbare.2⟩
        refine (of_insert db.jobs.results jobId results id).trans ?_
        split
        · rename_i hid
          by_contra hresults
          have hmissing : db.jobs.jobs.get jobId = none := by
            rw [Table.get_eq_none, ← hid]
            exact hnone
          cases hadapter : env.adapter with
          | inMemory =>
              rcases hfinds hadapter hfault with hempty | ⟨row, hrow, hrowid⟩
              · exact hresults hempty
              · exact hnone row hrow (hrowid.trans hid.symm)
          | postgres => exact hkept ⟨hadapter, by simpa using hresults, by simp [hmissing]⟩
        · exact hbare.1
  | appendStep jobId step =>
      simp only [DatabaseEnv.jobHandler]
      split
      · exact job_attempt fun _ => of_same rfl rfl rfl rfl
      · rename_i hkept
        refine job_attempt fun hfault => of_entries rfl rfl fun id hnone hbare => ⟨hbare.1, ?_⟩
        refine (Job.appendStep_of db.jobs.steps jobId step id).trans ?_
        split
        · rename_i hid
          have hmissing : db.jobs.jobs.get jobId = none := by
            rw [Table.get_eq_none, ← hid]
            exact hnone
          cases hadapter : env.adapter with
          | inMemory =>
              obtain ⟨row, hrow, hrowid⟩ := hfinds hadapter hfault
              exact absurd (hrowid.trans hid.symm) (hnone row hrow)
          | postgres => exact absurd ⟨hadapter, by simp [hmissing]⟩ hkept
        · exact hbare.2
  | clearSteps jobId =>
      refine job_attempt fun _ => of_entries rfl rfl fun id hnone hbare => ⟨hbare.1, ?_⟩
      refine (Job.remove_of db.jobs.steps jobId id).trans ?_
      split
      · rfl
      · exact hbare.2
  | utcNow | newUuid => exact of_same rfl rfl rfl rfl
  | _ => exact job_attempt fun _ => of_same rfl rfl rfl rfl

theorem of_documents (hjobs : later.jobs = db.jobs)
    (hdocuments : ∀ document ∈ later.knowledge.store.documents,
      ∃ old ∈ db.knowledge.store.documents, old.id = document.id ∧ old.userId = document.userId)
    (hkept : ∀ old ∈ db.knowledge.store.documents,
      ∃ document ∈ later.knowledge.store.documents, document.id = old.id)
    (hchunks : ∀ chunk ∈ later.knowledge.store.chunks, chunk ∈ db.knowledge.store.chunks ∨
      ∃ document ∈ db.knowledge.store.documents,
        document.id = chunk.documentId ∧ document.userId = chunk.userId) :
    Descends adapter db later where
  jobs job hjob := ⟨job, hjobs ▸ hjob, rfl, rfl⟩
  entries jobId hnone hbare := by
    rcases hbare with ⟨job, hjob, hid⟩ | hbare
    · exact absurd hid (hnone job (hjobs ▸ hjob))
    · unfold Bare
      rwa [hjobs]
  documents := hdocuments
  chunks := hchunks
  stored _ hall chunk hchunk := by
    have hstored : HasDocument db chunk := by
      rcases hchunks chunk hchunk with hold | ⟨document, hdocument, hid, -⟩
      · exact hall chunk hold
      · exact ⟨document, hdocument, hid⟩
    obtain ⟨old, hold, hid⟩ := hstored
    obtain ⟨document, hdocument, hid'⟩ := hkept old hold
    exact ⟨document, hdocument, hid'.trans hid⟩

theorem knowledge_attempt {α : Type}
    {effect : Knowledge.KnowledgeWorld → Except PortError α × Knowledge.KnowledgeWorld}
    (heffect : env.knowledge.fault db.knowledge.calls = none → Descends adapter db
      { db with knowledge := (effect { db.knowledge with calls := db.knowledge.calls + 1 }).2 }) :
    Descends adapter db { db with knowledge := (env.knowledge.attempt db.knowledge effect).2 } := by
  unfold Knowledge.KnowledgeEnv.attempt
  split
  · exact of_same rfl rfl rfl rfl
  · rename_i hfault
    exact heffect hfault

-- A mark changes neither the identifier nor the owner of a document.
theorem marked {documents : Table Knowledge.Document.id} {id : Uuid}
    {mark : Knowledge.Document → Knowledge.Document} (hid : ∀ document, (mark document).id = document.id)
    (howner : ∀ document, (mark document).userId = document.userId) :
    (∀ document ∈ documents.modify id mark hid, ∃ old ∈ documents, old.id = document.id ∧
      old.userId = document.userId) ∧
    ∀ old ∈ documents, ∃ document ∈ documents.modify id mark hid, document.id = old.id := by
  constructor
  · intro document hdocument
    obtain ⟨old, hold, rfl⟩ := (Table.mem_modify _ _ _ _ _).mp hdocument
    refine ⟨old, hold, ?_⟩
    split
    · exact ⟨(hid old).symm, (howner old).symm⟩
    · exact ⟨rfl, rfl⟩
  · intro old hold
    refine ⟨_, (Table.mem_modify _ _ _ _ _).mpr ⟨old, hold, rfl⟩, ?_⟩
    split
    · exact hid old
    · rfl

theorem storeChunks {document : Knowledge.Document} {batch : List Knowledge.NewChunk}
    (howner : DocumentOwner start document.id document.userId) (h : Traced adapter start db)
    (hfinds : adapter = .inMemory →
      batch = [] ∨ ∃ row ∈ db.knowledge.store.documents, row.id = document.id) :
    Descends adapter db { db with knowledge := { db.knowledge with
      store := (db.knowledge.store.storeChunks adapter document batch).2 } } := by
  have hmarked := @marked db.knowledge.store.documents document.id Knowledge.markReady
    (fun _ => rfl) fun _ => rfl
  have hnew : (batch = [] ∨ ∃ row ∈ db.knowledge.store.documents, row.id = document.id) →
      ∀ chunk ∈ batch.map (Knowledge.storedChunk document), ∃ row ∈ db.knowledge.store.documents,
        row.id = chunk.documentId ∧ row.userId = chunk.userId := by
    rintro (rfl | ⟨row, hrow, hid⟩) chunk hchunk
    · cases hchunk
    · obtain ⟨new, -, rfl⟩ := List.mem_map.mp hchunk
      have hrowOwner := h.documents row hrow
      rw [hid] at hrowOwner
      exact ⟨row, hrow, hid, hrowOwner.unique howner⟩
  cases adapter with
  | inMemory =>
      refine of_documents rfl hmarked.1 hmarked.2 fun chunk hchunk => ?_
      exact (List.mem_append.mp hchunk).imp id (hnew (hfinds rfl) chunk)
  | postgres =>
      simp only [Knowledge.DocumentStore.storeChunks]
      split
      · exact of_same rfl rfl rfl rfl
      · rename_i hkept
        split
        · exact of_same rfl rfl rfl rfl
        · refine of_documents rfl hmarked.1 hmarked.2 fun chunk hchunk => ?_
          refine (List.mem_append.mp hchunk).imp List.mem_of_mem_filter (hnew ?_ chunk)
          by_contra hmissing
          push Not at hmissing
          refine hkept ⟨by simpa using hmissing.1, ?_⟩
          rw [(Table.get_eq_none _ _).mpr hmissing.2]
          rfl

-- The calls of an operation on documents that uploads none, each batch of which
-- finds its document.
theorem knowledgeHandler (h : Traced env.adapter start db) {request : Knowledge.KnowledgeCall}
    (hinsert : ∀ document, request ≠ .insert document)
    (hstore : ∀ document batch, request = .storeChunks document batch →
      DocumentOwner start document.id document.userId)
    (hfinds : FindsRow env db (.inr (.inl request))) :
    Descends env.adapter db (env.knowledgeHandler request db).2 := by
  cases request with
  | insert document => exact absurd rfl (hinsert document)
  | storeChunks document batch =>
      refine knowledge_attempt fun hfault => ?_
      have hadapter : env.knowledge.adapter = env.adapter := env.adapters
      rw [hadapter]
      exact (storeChunks (hstore document batch rfl) h fun hmemory => hfinds hmemory hfault).trans
        (of_same rfl rfl rfl rfl)
  | markFailed id error =>
      have hmarked := @marked db.knowledge.store.documents id
        (fun document => { document with status := .failed, error := some error })
        (fun _ => rfl) fun _ => rfl
      exact knowledge_attempt fun _ => of_documents rfl hmarked.1 hmarked.2 fun _ => Or.inl
  | delete userId id =>
      refine knowledge_attempt fun _ => ?_
      simp only [Knowledge.DocumentStore.delete]
      split
      · refine documents_retained rfl ?_ ?_ ?_
        · exact fun document hdocument => ((Table.mem_remove _ _ _).mp hdocument).1
        · exact fun chunk hchunk => List.mem_of_mem_filter hchunk
        · intro _ chunk hchunk document hdocument hid
          have hkept := (List.mem_filter.mp hchunk).2
          exact (Table.mem_remove _ _ _).mpr ⟨hdocument, by simpa [hid] using hkept⟩
      · exact of_same rfl rfl rfl rfl
  | deleteAllForUser userId =>
      refine knowledge_attempt fun _ => ?_
      have hadapter : env.knowledge.adapter = env.adapter := env.adapters
      rw [hadapter]
      exact (deleteDocuments db userId).trans (of_same rfl rfl rfl rfl)
  | utcNow | newUuid => exact of_same rfl rfl rfl rfl
  | _ => exact knowledge_attempt fun _ => of_same rfl rfl rfl rfl

end Descends

-- The operations beside the deletions: they launch no job and upload nothing.
def DatabaseOp.creates : DatabaseOp → Bool
  | .job op => op.launches
  | .knowledge (.upload _ _ _) => true
  | _ => false

-- A batch is stored for a document that was read.
def StoresRead (past : List (Event Knowledge.KnowledgePorts)) : Knowledge.KnowledgeCall → Prop
  | .insert _ => False
  | .storeChunks document _ =>
      ∃ id, (⟨.find id, .ok (some document)⟩ : Event Knowledge.KnowledgePorts) ∈ past
  | _ => True

theorem knowledge_storesRead {op : Knowledge.KnowledgeOp}
    (hop : (DatabaseOp.knowledge op).creates = false) :
    op.program.Calls StoresRead [] := by
  cases op with
  | upload userId name content => cases hop
  | storeChunks documentId batch =>
      refine (Program.calls_bind_pure _ _ _).mpr ⟨trivial, ?_⟩
      rintro (e | _ | document)
      · trivial
      · trivial
      · exact ⟨⟨documentId, List.mem_singleton_self _⟩, fun answer => by cases answer <;> trivial⟩
  | list userId =>
      refine (Program.calls_bind_pure _ _ _).mpr ⟨trivial, ?_⟩
      rintro (e | documents) <;> trivial
  | delete userId id =>
      refine (Program.calls_bind_pure _ _ _).mpr ⟨trivial, ?_⟩
      rintro (e | found) <;> trivial
  | markFailed documentId error =>
      refine (Program.calls_bind_pure _ _ _).mpr ⟨trivial, ?_⟩
      rintro (e | _) <;> trivial

-- A deletion that has succeeded has deleted the jobs and the documents.
def Deleted (userId : Uuid) (past : List (Event DeletionPorts)) : Prop :=
  (∃ n, (⟨.jobs userId, .ok n⟩ : Event DeletionPorts) ∈ past) ∧
    ∃ n, (⟨.documents userId, .ok n⟩ : Event DeletionPorts) ∈ past

theorem deleteAccount_deleted (userId : Uuid) :
    (deleteAccount userId).run.Ends (fun past result => result = .ok () → Deleted userId past) [] := by
  simp only [deleteAccount, Fallible.run_orFail_bind, Fallible.run_orFail, ask, Program.call_bind,
    Program.done_bind]
  rintro (e | n)
  · exact fun h => by cases h
  rintro (e | jobs)
  · exact fun h => by cases h
  rintro (e | n)
  · exact fun h => by cases h
  rintro (e | n)
  · exact fun h => by cases h
  rintro (e | documents)
  · exact fun h => by cases h
  rintro (e | _)
  · exact fun h => by cases h
  exact fun _ => ⟨⟨jobs, by simp⟩, ⟨documents, by simp⟩⟩

-- What an operation does next, and what a deletion has done when it succeeds.
def Follows (op : DatabaseOp) (past : List (Event DatabasePorts))
    (p : Program DatabasePorts DatabaseOutcome) : Prop :=
  match op with
  | .job op => p.Asks (OnLeft (Job.WritesCopy op.completes) past)
  | .knowledge _ => p.Asks (OnRight (OnLeft StoresRead) past)
  | .deleteAccount userId => p.Asks (OnRight (OnRight fun _ _ => True) past) ∧
      ∀ value, p = .done value → value = .deleteAccount (.ok ()) → Deleted userId (rights (rights past))

theorem op_follows (config : Job.JobConfig) {op : DatabaseOp} (hop : op.creates = false) :
    (op.program config).Along (Follows op) [] := by
  cases op with
  | job op => exact (Program.calls_bind_pure _ _ _).mpr (Program.inl_calls (Job.op_calls config hop))
  | knowledge op =>
      exact (Program.calls_bind_pure _ _ _).mpr
        (Program.inr_calls (Program.inl_calls (knowledge_storesRead hop)))
  | deleteAccount userId =>
      have hcalls : (deleteAccount userId).run.Calls (fun _ _ => True) [] :=
        Program.Calls.mono (fun _ _ _ => trivial) ((deleteAccount_within userId).calls [])
      have hends := deleteAccount_deleted userId
      refine Program.Along.and ((Program.calls_bind_pure _ _ _).mpr
        (Program.inr_calls (Program.inr_calls hcalls))) (Program.Ends.along ?_)
      rw [DatabaseOp.program, Program.ends_bind]
      refine (Program.inr_ends (Program.inr_ends hends)).mono fun past result hdeleted hvalue => ?_
      cases hvalue
      exact hdeleted rfl

def NoJobs (userId : Uuid) (db : Database) : Prop := ∀ job ∈ db.jobs.jobs, job.userId ≠ userId

def NoDocuments (userId : Uuid) (db : Database) : Prop :=
  (∀ document ∈ db.knowledge.store.documents, document.userId ≠ userId) ∧
    ∀ chunk ∈ db.knowledge.store.chunks, chunk.userId ≠ userId

-- What an answer says of the store stays so.
def Sound (start db : Database) : Event DatabasePorts → Prop
  | ⟨.inl (.find _), .ok (some copy)⟩ => JobOwner start copy.id copy.userId
  | ⟨.inl (.listUnfinishedOlderThan _), .ok stale⟩ => ∀ copy ∈ stale, JobOwner start copy.id copy.userId
  | ⟨.inr (.inl (.find _)), .ok (some document)⟩ => DocumentOwner start document.id document.userId
  | ⟨.inr (.inr (.jobs userId)), .ok _⟩ => NoJobs userId db
  | ⟨.inr (.inr (.documents userId)), .ok _⟩ => NoDocuments userId db
  | _ => True

section Answers

variable {env : DatabaseEnv} {adapter : Adapter} {start db later : Database} {userId : Uuid}

theorem NoJobs.descends (h : NoJobs userId db) (hlater : Descends adapter db later) :
    NoJobs userId later := by
  intro job hjob
  obtain ⟨old, hold, -, howner⟩ := hlater.jobs job hjob
  rw [← howner]
  exact h old hold

theorem NoDocuments.descends (h : NoDocuments userId db) (hlater : Descends adapter db later) :
    NoDocuments userId later := by
  constructor
  · intro document hdocument
    obtain ⟨old, hold, -, howner⟩ := hlater.documents document hdocument
    rw [← howner]
    exact h.1 old hold
  · intro chunk hchunk
    rcases hlater.chunks chunk hchunk with hold | ⟨document, hdocument, -, howner⟩
    · exact h.2 chunk hold
    · rw [← howner]
      exact h.1 document hdocument

theorem Sound.descends {event : Event DatabasePorts} (h : Sound start db event)
    (hlater : Descends adapter db later) : Sound start later event := by
  rcases event with ⟨request | request | request, answer⟩
  · cases request with
    | find jobId => rcases answer with e | _ | copy <;> exact h
    | listUnfinishedOlderThan cutoff => cases answer <;> exact h
    | _ => trivial
  · cases request with
    | find id => rcases answer with e | _ | document <;> exact h
    | _ => trivial
  · cases request with
    | jobs userId =>
        cases answer with
        | error e => trivial
        | ok n => exact NoJobs.descends h hlater
    | documents userId =>
        cases answer with
        | error e => trivial
        | ok n => exact NoDocuments.descends h hlater
    | _ => trivial

theorem deletion_noJobs {n : Nat} (h : (env.deletion (.jobs userId) db).1 = .ok n) :
    NoJobs userId (env.deletion (.jobs userId) db).2 := by
  simp only [DatabaseEnv.deletion, DatabaseEnv.attempt] at h ⊢
  split at h
  · cases h
  · intro job hjob
    simpa using ((Table.mem_retain _ _ _).mp hjob).2

theorem deletion_noDocuments (hdb : Traced env.adapter start db) {n : Nat}
    (h : (env.deletion (.documents userId) db).1 = .ok n) :
    NoDocuments userId (env.deletion (.documents userId) db).2 := by
  simp only [DatabaseEnv.deletion, DatabaseEnv.attempt] at h ⊢
  split at h
  · cases h
  clear h
  cases hadapter : env.adapter with
  | inMemory =>
      constructor
      · intro document hdocument
        simpa using ((Table.mem_retain _ _ _).mp hdocument).2
      · intro chunk hchunk
        simpa using (List.mem_filter.mp hchunk).2
  | postgres =>
      constructor
      · intro document hdocument
        simpa using ((Table.mem_retain _ _ _).mp hdocument).2
      · intro chunk hchunk howner
        obtain ⟨hold, hkept⟩ := List.mem_filter.mp hchunk
        obtain ⟨document, hdocument, hid⟩ := hdb.stored hadapter chunk hold
        have hdocumentOwner := hdb.documents document hdocument
        rw [hid] at hdocumentOwner
        have hsame := hdocumentOwner.unique (hdb.chunks chunk hold)
        rw [(Table.get_eq_some _ _ _).mpr ⟨hdocument, hid⟩] at hkept
        simp [hsame, howner] at hkept

theorem sound_handle (hdb : Traced env.adapter start db) (request : DatabasePorts.Call) :
    Sound start (env.handle request db).2 ⟨request, (env.handle request db).1⟩ := by
  rcases request with request | request | request
  · cases request with
    | find jobId =>
        generalize hanswer : (env.handle (.inl (.find jobId)) db).1 = answer
        rcases answer with e | _ | copy
        · trivial
        · trivial
        · have hmem := (@Job.JobEnv.handle_find env.jobs _ _ _ hanswer).1
          exact hdb.jobs copy hmem
    | listUnfinishedOlderThan cutoff =>
        generalize hanswer : (env.handle (.inl (.listUnfinishedOlderThan cutoff)) db).1 = answer
        cases answer with
        | error e => trivial
        | ok stale =>
            intro copy hcopy
            have hmem := @Job.JobEnv.handle_listUnfinishedOlderThan env.jobs _ _ _ hanswer copy hcopy
            exact hdb.jobs copy hmem
    | _ => trivial
  · cases request with
    | find id =>
        generalize hanswer : (env.handle (.inr (.inl (.find id))) db).1 = answer
        rcases answer with e | _ | document
        · trivial
        · trivial
        · have hfound : (env.knowledge.handle (.find id) db.knowledge).1 = .ok (some document) := hanswer
          simp only [Knowledge.KnowledgeEnv.handle, Knowledge.KnowledgeEnv.attempt] at hfound
          split at hfound
          · cases hfound
          · exact hdb.documents document ((Table.get_eq_some _ _ _).mp (Except.ok.inj hfound)).1
    | _ => trivial
  · cases request with
    | jobs userId =>
        generalize hanswer : (env.handle (.inr (.inr (.jobs userId))) db).1 = answer
        cases answer with
        | error e => trivial
        | ok n => exact deletion_noJobs hanswer
    | documents userId =>
        generalize hanswer : (env.handle (.inr (.inr (.documents userId))) db).1 = answer
        cases answer with
        | error e => trivial
        | ok n => exact deletion_noDocuments hdb hanswer
    | _ => trivial

end Answers

section Runs

variable {env : DatabaseEnv} {ι : Type} {ops : ι → DatabaseOp} {start : Database}

-- What holds between any two calls.
structure Safe (env : DatabaseEnv) (ops : ι → DatabaseOp) (start : Database) (c : DatabaseRuns ι) :
    Prop where
  traced : Traced env.adapter start c.store
  answered : c.Answered (Sound start c.store)
  threaded : c.Threaded fun i => Follows (ops i)

namespace Safe

variable {c : DatabaseRuns ι} {i : ι}

theorem copies_owner (h : Safe env ops start c) {copy : Job.ResearchJob}
    (hcopy : copy ∈ Job.copies (lefts (c.threads i).past)) : JobOwner start copy.id copy.userId := by
  obtain ⟨⟨request, answer⟩, hevent, hmem⟩ := List.mem_flatMap.mp hcopy
  have hsound := h.answered i _ (mem_lefts.mp hevent)
  cases request with
  | find jobId =>
      rcases answer with e | _ | job
      · cases hmem
      · cases hmem
      · obtain rfl := List.mem_singleton.mp hmem
        exact hsound
  | listUnfinishedOlderThan cutoff =>
      cases answer with
      | error e => cases hmem
      | ok stale => exact hsound copy hmem
  | _ => cases hmem

-- A job that an operation writes has the owner of a copy that was read.
theorem update_owner (h : Safe env ops start c) {completes : Bool} {job : Job.ResearchJob}
    (hwrites : Job.WritesCopy completes (lefts (c.threads i).past) (.update job)) :
    JobOwner start job.id job.userId := by
  simp only [Job.WritesCopy] at hwrites
  split at hwrites
  · obtain ⟨copy, hcopy, clock, rfl⟩ := hwrites
    have howner : JobOwner start copy.id copy.userId := h.copies_owner hcopy
    exact howner
  · obtain ⟨copy, hcopy, calls, rfl, -⟩ := hwrites
    have hidentity := Job.ResearchJob.after_identity copy calls
    have hid : (copy.after calls).id = copy.id := congrArg Prod.fst hidentity
    have howner : (copy.after calls).userId = copy.userId := congrArg (fun x => x.2.1) hidentity
    rw [hid, howner]
    exact h.copies_owner hcopy

variable {request : DatabasePorts.Call}
  {next : DatabasePorts.Answer request → Program DatabasePorts DatabaseOutcome}

theorem store_descends (h : Safe env ops start c) (hrest : (c.threads i).rest = .call request next)
    (hfinds : FindsRow env c.store request) :
    Descends env.adapter c.store (env.handle request c.store).2 := by
  have hfollows := h.threaded.here hrest
  rcases request with request | request | request
  · cases hop : ops i with
    | job op =>
        rw [hop] at hfollows
        have hwrites : Job.WritesCopy op.completes (lefts (c.threads i).past) request := hfollows
        refine Descends.jobHandler h.traced ?_ ?_ hfinds
        · rintro job rfl
          exact hwrites
        · rintro job rfl
          exact h.update_owner hwrites
    | knowledge op =>
        rw [hop] at hfollows
        exact False.elim hfollows
    | deleteAccount userId =>
        rw [hop] at hfollows
        exact False.elim hfollows.1
  · cases hop : ops i with
    | job op =>
        rw [hop] at hfollows
        exact False.elim hfollows
    | knowledge op =>
        rw [hop] at hfollows
        have hreads : StoresRead (lefts (rights (c.threads i).past)) request := hfollows
        refine Descends.knowledgeHandler h.traced ?_ ?_ hfinds
        · rintro document rfl
          exact hreads
        · rintro document batch rfl
          obtain ⟨id, hfound⟩ := hreads
          exact h.answered i _ (mem_rights.mp (mem_lefts.mp hfound))
    | deleteAccount userId =>
        rw [hop] at hfollows
        exact False.elim hfollows.1
  · exact Descends.deletion env request c.store

theorem advance [DecidableEq ι] (h : Safe env ops start c)
    (hrest : (c.threads i).rest = .call request next) (hfinds : FindsRow env c.store request) :
    Safe env ops start (c.advance env.handle i request next) where
  traced := h.traced.descends (h.store_descends hrest hfinds)
  answered := by
    have hkept : c.Answered (Sound start (env.handle request c.store).2) := fun j event hevent =>
      (h.answered j event hevent).descends (h.store_descends hrest hfinds)
    exact hkept.advance (sound_handle h.traced request)
  threaded := h.threaded.advance hrest

theorem begin (config : Job.JobConfig) (hops : ∀ i, (ops i).creates = false)
    (hchunks : ∀ chunk ∈ start.knowledge.store.chunks,
      ∃ document ∈ start.knowledge.store.documents,
        document.id = chunk.documentId ∧ document.userId = chunk.userId) :
    Safe env ops start (databaseRuns config start ops) where
  traced := Traced.begin hchunks
  answered := Config.answered_start _ _ _
  threaded := Config.threaded_start (fun i => op_follows config (hops i)) start

end Safe

variable [DecidableEq ι]

-- An account is deleted beside any operations that launch and upload nothing,
-- none of which writes for a job or a document that is gone: the user has no
-- job, no result, no step, no document and no chunk left.
theorem no_resurrection (env : DatabaseEnv) (config : Job.JobConfig)
    (hops : ∀ i, (ops i).creates = false)
    (hchunks : ∀ chunk ∈ start.knowledge.store.chunks,
      ∃ document ∈ start.knowledge.store.documents,
        document.id = chunk.documentId ∧ document.userId = chunk.userId)
    (schedule : List ι) {c : DatabaseRuns ι}
    (hc : c = (databaseRuns config start ops).run env.handle schedule)
    (hfinds : (databaseRuns config start ops).Respects env.handle
      (fun _ db _ request => FindsRow env db request) schedule)
    {i : ι} {userId : Uuid} (hop : ops i = .deleteAccount userId)
    (hdone : (c.threads i).rest = .done (.deleteAccount (.ok ()))) :
    NoJobs userId c.store ∧ (∀ job ∈ start.jobs.jobs, job.userId = userId → Bare c.store job.id) ∧
      NoDocuments userId c.store := by
  have hsafe : Safe env ops start c := by
    rw [hc]
    exact Config.run_induction (Safe env ops start)
      (fun _ _ _ _ h hrest hguard => h.advance hrest hguard) (Safe.begin config hops hchunks) hfinds
  have hfollows := hsafe.threaded.here hdone
  rw [hop] at hfollows
  obtain ⟨⟨n, hjobs⟩, ⟨m, hdocuments⟩⟩ := hfollows.2 _ rfl rfl
  have hnojobs : NoJobs userId c.store :=
    hsafe.answered i _ (mem_rights.mp (mem_rights.mp hjobs))
  refine ⟨hnojobs, fun job hjob howner => ?_, ?_⟩
  · refine hsafe.traced.entries job hjob fun row hrow hid => hnojobs row hrow ?_
    have hrowOwner := hsafe.traced.jobs row hrow
    rw [hid] at hrowOwner
    exact hrowOwner.unique ⟨job, hjob, rfl, howner⟩
  · exact hsafe.answered i _ (mem_rights.mp (mem_rights.mp hdocuments))

end Runs

namespace Sample

-- The worker starts the job and reports a step while its user's account is
-- deleted.
def callbacks : Fin 3 → DatabaseOp
  | 0 => .job (.start Job.Sample.job.id)
  | 1 => .job (.recordStep Job.Sample.job.id ⟨1, "search", "rust release", "", 3⟩)
  | 2 => .deleteAccount Session.Sample.user.id

theorem callbacks_create : ∀ i, (callbacks i).creates = false := by
  intro i
  match i with
  | 0 | 1 | 2 => rfl

end Sample

-- Both have read the job before the deletion, and write it after.
theorem deleted_job_stored_again :
    let handle := (Sample.env .inMemory none).handle
    let c := (databaseRuns Job.Sample.config Sample.db Sample.callbacks).run handle
      ([0, 1] ++ List.replicate 6 2 ++ [0, 1])
    (c.threads 0).rest = .done (.job (.ingest (.ok ()))) ∧
      (c.threads 1).rest = .done (.job (.ingest (.ok ()))) ∧
      (c.threads 2).rest = .done (.deleteAccount (.ok ())) ∧
      c.store.jobs.jobs.rows.map (fun job => (job.userId, job.status)) =
        [(Session.Sample.user.id, .running)] ∧
      c.store.jobs.steps.of Job.Sample.job.id = [⟨1, "search", "rust release", "", 3⟩] :=
  ⟨rfl, rfl, rfl, by decide +kernel, by decide +kernel⟩

-- Both are under way when the deletion begins, and write before it deletes the jobs.
theorem nothing_left_in_turn :
    let handle := (Sample.env .inMemory none).handle
    let c := (databaseRuns Job.Sample.config Sample.db Sample.callbacks).run handle
      ([0, 2, 1, 0, 1] ++ List.replicate 5 2)
    NoJobs Session.Sample.user.id c.store ∧ Bare c.store Job.Sample.job.id ∧
      NoDocuments Session.Sample.user.id c.store := by
  have hnone := no_resurrection (Sample.env .inMemory none) Job.Sample.config Sample.callbacks_create
    Sample.owned.chunks ([0, 2, 1, 0, 1] ++ List.replicate 5 2) rfl (by decide +kernel)
    (show Sample.callbacks 2 = .deleteAccount Session.Sample.user.id from rfl) rfl
  exact ⟨hnone.1, hnone.2.1 Job.Sample.job (List.mem_singleton_self _) (by decide), hnone.2.2⟩

end AgentBoilerplate.Deletion
