import AgentBoilerplate.Tenancy.Answers

namespace AgentBoilerplate.Tenancy

open Effects Collections Job Knowledge Deletion Profile

variable {tenant : Tenant} {db db' : Database}

namespace Tenant.Same

theorem refl (db : Database) : tenant.Same db db := ⟨rfl, rfl, rfl, rfl, rfl, rfl, rfl, rfl, rfl⟩

theorem symm (h : tenant.Same db db') : tenant.Same db' db :=
  ⟨h.jobs.symm, h.results.symm, h.steps.symm, h.recurring.symm, h.channels.symm, h.documents.symm,
    h.chunks.symm, h.tokens.symm, h.users.symm⟩

theorem trans {later : Database} (h : tenant.Same db db') (h' : tenant.Same db' later) :
    tenant.Same db later :=
  ⟨h.jobs.trans h'.jobs, h.results.trans h'.results, h.steps.trans h'.steps,
    h.recurring.trans h'.recurring, h.channels.trans h'.channels, h.documents.trans h'.documents,
    h.chunks.trans h'.chunks, h.tokens.trans h'.tokens, h.users.trans h'.users⟩

end Tenant.Same

section Rows

variable {α : Type} {key : α → Uuid} {t t' : Table key} {mine : α → Bool} {id : Uuid}

-- What is done to a row of others is not seen among the user's.
theorem insert_other (hapart : ∀ a ∈ t, tenant.owned (key a) = mine a) {a : α} (ha : mine a = false)
    (hid : tenant.owned (key a) = false) : (t.insert a).retain mine = t.retain mine := by
  refine Table.retain_insert_other t ha fun b hb hkey => ?_
  rw [← hapart b hb, hkey, hid]

theorem modify_other (hapart : ∀ a ∈ t, tenant.owned (key a) = mine a) {f : α → α}
    (hid : tenant.owned id = false) (hf : ∀ a, key (f a) = key a := by intro; rfl)
    (hmine : ∀ a, mine (f a) = mine a := by intro; rfl) :
    (t.modify id f hf).retain mine = t.retain mine := by
  refine Table.retain_modify_other t hf hmine fun a ha hkey => ?_
  rw [← hapart a ha, hkey, hid]

theorem remove_other (hapart : ∀ a ∈ t, tenant.owned (key a) = mine a)
    (hid : tenant.owned id = false) : (t.remove id).retain mine = t.retain mine := by
  refine Table.retain_remove_other t fun a ha hkey => ?_
  rw [← hapart a ha, hkey, hid]

-- What is done to a row of the user's is done among the user's.
theorem insert_mine (hsame : t.retain mine = t'.retain mine) {a : α} (ha : mine a = true) :
    (t.insert a).retain mine = (t'.insert a).retain mine := by
  rw [Table.retain_insert t ha, Table.retain_insert t' ha, hsame]

theorem modify_mine (hsame : t.retain mine = t'.retain mine) {f : α → α}
    (hf : ∀ a, key (f a) = key a := by intro; rfl)
    (hmine : ∀ a, mine (f a) = mine a := by intro; rfl) :
    (t.modify id f hf).retain mine = (t'.modify id f hf).retain mine := by
  rw [Table.retain_modify t hf hmine, Table.retain_modify t' hf hmine, hsame]

theorem remove_mine (hsame : t.retain mine = t'.retain mine) :
    (t.remove id).retain mine = (t'.remove id).retain mine := by
  rw [Table.retain_remove t, Table.retain_remove t', hsame]

theorem retain_mine (hsame : t.retain mine = t'.retain mine) (keep : α → Bool) :
    (t.retain keep).retain mine = (t'.retain keep).retain mine := by
  rw [Table.retain_comm t, Table.retain_comm t', hsame]

theorem get_mine (hsame : t.retain mine = t'.retain mine)
    (hid : ∀ a ∈ t, key a = id → mine a = true) (hid' : ∀ a ∈ t', key a = id → mine a = true) :
    t.get id = t'.get id := by
  rw [← Table.get_retain hid, ← Table.get_retain hid', hsame]

theorem any_mine (hsame : t.retain mine = t'.retain mine) {pick : α → Bool}
    (hpick : ∀ a, pick a = true → mine a = true) : (t.get id).any pick = (t'.get id).any pick := by
  rw [Table.any_retained (Table.Reordered.refl t) fun a _ => hpick a,
    Table.any_retained (Table.Reordered.refl t') fun a _ => hpick a, hsame]

-- The deletion of all that another user has.
theorem purge_other {owner : α → Uuid} {userId : Uuid} (huser : tenant.is userId = false) :
    (t.retain fun a => owner a ≠ userId).retain (fun a => tenant.is (owner a)) =
      t.retain fun a => tenant.is (owner a) := by
  refine Table.retain_retain_other t fun a _ hmine => decide_eq_true fun heq => ?_
  rw [heq, huser] at hmine
  cases hmine

-- A record that is removed by its owner is on the side of the owner.
theorem owned_of_any {owner : α → Uuid} (hapart : ∀ a ∈ t, tenant.owned (key a) = tenant.is (owner a))
    {userId : Uuid} (h : ((t.get id).any fun a => owner a = userId) = true) :
    tenant.owned id = tenant.is userId := by
  obtain ⟨a, hget, howner⟩ := (Option.any_eq_true _ _).mp h
  obtain ⟨hmem, hkey⟩ := (Table.get_eq_some t id a).mp hget
  rw [← hkey, hapart a hmem, of_decide_eq_true howner]

end Rows

namespace Tenant.Apart

variable (h : tenant.Apart db)

include h

theorem job_owned : ∀ job ∈ db.jobs.jobs, tenant.owned job.id = tenant.is job.userId :=
  fun job hjob => (h.jobs job hjob).1.2

theorem search_owned : ∀ search ∈ db.jobs.recurring, tenant.owned search.id = tenant.is search.userId :=
  fun search hsearch => (h.recurring search hsearch).2

theorem channel_owned :
    ∀ channel ∈ db.jobs.channels, tenant.owned channel.id = tenant.is channel.userId :=
  fun channel hchannel => (h.channels channel hchannel).2

theorem document_owned : ∀ document ∈ db.knowledge.store.documents,
    tenant.owned document.id = tenant.is document.userId :=
  fun document hdocument => (h.documents document hdocument).2

end Tenant.Apart

theorem chunks_other {chunks : List StoredChunk} {keep : StoredChunk → Bool}
    (h : ∀ chunk ∈ chunks, tenant.is chunk.userId = true → keep chunk = true) :
    ((chunks.filter keep).filter fun chunk => tenant.is chunk.userId) =
      chunks.filter fun chunk => tenant.is chunk.userId := by
  rw [List.filter_filter]
  refine List.filter_congr fun chunk hchunk => ?_
  by_cases hmine : tenant.is chunk.userId = true
  · rw [hmine, h chunk hchunk hmine]
    rfl
  · rw [Bool.eq_false_iff.mpr hmine]
    rfl

theorem stored_other {document : Document} (h : tenant.is document.userId = false)
    (batch : List NewChunk) :
    (batch.map (storedChunk document)).filter (fun chunk => tenant.is chunk.userId) = [] := by
  refine List.filter_eq_nil_iff.mpr fun chunk hchunk => ?_
  obtain ⟨_, -, rfl⟩ := List.mem_map.mp hchunk
  exact Bool.eq_false_iff.mp h

-- The removal of a record by its owner, as a case distinction.
theorem deleteChannel_state (similarity : Embedding → Embedding → Int) (userId id : Uuid) :
    (serve similarity (.inr (.inr (.inr (.deleteChannel userId id)))) db).2 =
      if (db.jobs.channels.get id).any fun channel => channel.userId = userId then
        { db with jobs := { db.jobs with channels := db.jobs.channels.remove id } }
      else db := by
  change (profileHandler (.deleteChannel userId id) db).2 = _
  unfold profileHandler deleteChannel
  dsimp only
  split <;> rfl

theorem deleteSearch_state (similarity : Embedding → Embedding → Int) (userId id : Uuid) :
    (serve similarity (.inr (.inr (.inr (.deleteSearch userId id)))) db).2 =
      if (db.jobs.recurring.get id).any fun search => search.userId = userId then
        { db with jobs := { db.jobs with recurring := db.jobs.recurring.remove id } }
      else db := by
  change (profileHandler (.deleteSearch userId id) db).2 = _
  unfold profileHandler deleteRecurringSearch
  dsimp only
  split <;> rfl

theorem delete_state (store : DocumentStore) (userId id : Uuid) :
    (store.delete userId id).2 =
      if (store.documents.get id).any fun document => document.userId = userId then
        { documents := store.documents.remove id
          chunks := store.chunks.filter fun chunk => chunk.documentId ≠ id }
      else store := by
  unfold DocumentStore.delete
  split <;> rfl

theorem chunks_elsewhere {chunks : List StoredChunk} {userId : Uuid} (h : tenant.is userId = false) :
    ∀ chunk ∈ chunks, tenant.is chunk.userId = true → decide (chunk.userId ≠ userId) = true := by
  intro chunk _ hmine
  refine decide_eq_true fun heq => ?_
  rw [heq, h] at hmine
  cases hmine

theorem delete_other (hapart : tenant.Apart db) {userId : Uuid} (h : tenant.is userId = false)
    (id : Uuid) :
    ((db.knowledge.store.delete userId id).2.documents.retain fun document =>
        tenant.is document.userId) = tenant.documentsOf db ∧
      ((db.knowledge.store.delete userId id).2.chunks.filter fun chunk => tenant.is chunk.userId) =
        tenant.chunksOf db := by
  rw [delete_state]
  split
  · rename_i hany
    have hid := (owned_of_any hapart.document_owned hany).trans h
    refine ⟨remove_other hapart.document_owned hid, chunks_other fun chunk hchunk hmine => ?_⟩
    refine decide_eq_true fun heq => ?_
    have howned := (hapart.chunks chunk hchunk).2
    rw [heq, hid, hmine] at howned
    cases howned
  · exact ⟨rfl, rfl⟩

-- The jobs that are deleted with the account of another user are not the user's.
theorem doomed_other (hapart : tenant.Apart db) {userId : Uuid} (h : tenant.is userId = false)
    (id : Uuid) (howned : tenant.owned id = true) :
    decide (id ∉ (db.jobs.jobs.rows.filter fun job => job.userId = userId).map ResearchJob.id) =
      true := by
  refine decide_eq_true fun hid => ?_
  obtain ⟨job, hjob, rfl⟩ := List.mem_map.mp hid
  obtain ⟨hmem, huser⟩ := List.mem_filter.mp hjob
  rw [hapart.job_owned job hmem, of_decide_eq_true huser, h] at howned
  cases howned

-- What another user, or the worker on a job or a document of another user, does
-- is not seen in what the stores hold of the user.
theorem serve_other (similarity : Embedding → Embedding → Int) (hapart : tenant.Apart db)
    {request : TenantPorts.Call}
    (hallowed : (tenant.boundary.beyond external).allowed false request) :
    tenant.Same (serve similarity request db).2 db := by
  obtain ⟨hallowed, hexternal⟩ := hallowed
  have hrefl : tenant.Same db db := .refl db
  rcases request with (request | request) | request | request | request
  · cases request with
    | insert job =>
        exact { hrefl with jobs := insert_other hapart.job_owned hallowed.1.1 hallowed.1.2 }
    | update job =>
        exact { hrefl with jobs := insert_other hapart.job_owned hallowed.1.1 hallowed.1.2 }
    | storeResults jobId results =>
        exact { hrefl with results := insert_other (fun _ _ => rfl) hallowed hallowed }
    | appendStep jobId step =>
        refine { hrefl with steps := ?_ }
        change (Job.appendStep db.jobs.steps jobId step).retain _ = _
        unfold Job.appendStep
        dsimp only
        split
        · rfl
        · exact insert_other (fun _ _ => rfl) hallowed hallowed
    | clearSteps jobId => exact { hrefl with steps := remove_other (fun _ _ => rfl) hallowed }
    | addUsage jobId usage =>
        exact { hrefl with jobs := modify_other hapart.job_owned hallowed }
    | listUnfinishedOlderThan cutoff => exact hallowed.elim
    | listDue now => exact hallowed.elim
    | markRan id at_ => exact hallowed.elim
    | _ => exact ⟨rfl, rfl, rfl, rfl, rfl, rfl, rfl, rfl, rfl⟩
  · cases request <;> exact ⟨rfl, rfl, rfl, rfl, rfl, rfl, rfl, rfl, rfl⟩
  · cases request with
    | insert document =>
        exact { hrefl with documents := insert_other hapart.document_owned hallowed.1 hallowed.2 }
    | delete userId id =>
        have hdelete := delete_other hapart hallowed id
        exact { hrefl with documents := hdelete.1, chunks := hdelete.2 }
    | storeChunks document batch =>
        exact { hrefl with
          documents := modify_other hapart.document_owned hallowed.2
          chunks := by
            change (db.knowledge.store.chunks ++ batch.map (storedChunk document)).filter _ = _
            rw [List.filter_append, stored_other hallowed.1, List.append_nil]
            rfl }
    | markFailed id error =>
        exact { hrefl with
          documents := modify_other hapart.document_owned hallowed }
    | deleteAllForUser userId =>
        exact { hrefl with
          documents := purge_other hallowed
          chunks := chunks_other (chunks_elsewhere hallowed) }
    | _ => exact ⟨rfl, rfl, rfl, rfl, rfl, rfl, rfl, rfl, rfl⟩
  · cases request with
    | recurring userId => exact { hrefl with recurring := purge_other hallowed }
    | jobs userId =>
        have hdoomed := doomed_other hapart hallowed
        exact { hrefl with
          jobs := purge_other hallowed
          results := Table.retain_retain_other _ fun entry _ => hdoomed entry.1
          steps := Table.retain_retain_other _ fun entry _ => hdoomed entry.1 }
    | refreshTokens userId => exact { hrefl with tokens := purge_other hallowed }
    | channels userId => exact { hrefl with channels := purge_other hallowed }
    | documents userId =>
        exact { hrefl with
          documents := purge_other hallowed
          chunks := chunks_other (chunks_elsewhere hallowed) }
    | user userId =>
        refine { hrefl with users := Table.retain_remove_other _ fun user _ hkey => ?_ }
        rw [hkey]
        exact hallowed
  · cases request with
    | insertChannel channel =>
        exact { hrefl with channels := insert_other hapart.channel_owned hallowed.1 hallowed.2 }
    | deleteChannel userId id =>
        rw [deleteChannel_state]
        split
        · rename_i hany
          have hid := (owned_of_any hapart.channel_owned hany).trans hallowed
          exact { hrefl with channels := remove_other hapart.channel_owned hid }
        · exact hrefl
    | insertSearch search =>
        exact { hrefl with recurring := insert_other hapart.search_owned hallowed.1 hallowed.2 }
    | deleteSearch userId id =>
        rw [deleteSearch_state]
        split
        · rename_i hany
          have hid := (owned_of_any hapart.search_owned hany).trans hallowed
          exact { hrefl with recurring := remove_other hapart.search_owned hid }
        · exact hrefl
    | _ => exact ⟨rfl, rfl, rfl, rfl, rfl, rfl, rfl, rfl, rfl⟩

theorem chunks_mine (hsame : tenant.chunksOf db = tenant.chunksOf db') (keep : StoredChunk → Bool) :
    ((db.knowledge.store.chunks.filter keep).filter fun chunk => tenant.is chunk.userId) =
      (db'.knowledge.store.chunks.filter keep).filter fun chunk => tenant.is chunk.userId := by
  have hcomm : ∀ chunks : List StoredChunk,
      ((chunks.filter keep).filter fun chunk => tenant.is chunk.userId) =
        (chunks.filter fun chunk => tenant.is chunk.userId).filter keep :=
    fun _ => List.filter_comm _ _ _
  rw [hcomm, hcomm]
  exact congrArg (List.filter keep) hsame

theorem delete_mine (hsame : tenant.Same db db') {userId : Uuid} (h : tenant.is userId = true)
    (id : Uuid) :
    ((db.knowledge.store.delete userId id).2.documents.retain fun document =>
        tenant.is document.userId) =
      ((db'.knowledge.store.delete userId id).2.documents.retain fun document =>
        tenant.is document.userId) ∧
      ((db.knowledge.store.delete userId id).2.chunks.filter fun chunk => tenant.is chunk.userId) =
        (db'.knowledge.store.delete userId id).2.chunks.filter fun chunk => tenant.is chunk.userId := by
  rw [delete_state, delete_state, any_mine hsame.documents (tenant.picked Document.userId h)]
  split
  · exact ⟨remove_mine hsame.documents, chunks_mine hsame.chunks _⟩
  · exact ⟨hsame.documents, hsame.chunks⟩

-- The account of the user has the same jobs in both.
theorem doomed_mine (hsame : tenant.Same db db') {userId : Uuid} (h : tenant.is userId = true) :
    (db.jobs.jobs.rows.filter fun job => job.userId = userId) =
      db'.jobs.jobs.rows.filter fun job => job.userId = userId := by
  have hpicked := tenant.picked ResearchJob.userId h
  rw [← Table.filter_retained fun job _ => hpicked job,
    ← Table.filter_retained (t := db'.jobs.jobs) fun job _ => hpicked job]
  exact congrArg (fun jobs : Jobs => jobs.rows.filter _) hsame.jobs

-- What the user does, or the worker on a job or a document of the user, comes to
-- the same in two databases that hold the same of the user.
theorem serve_mine (similarity : Embedding → Embedding → Int) (hapart : tenant.Apart db)
    (hapart' : tenant.Apart db') (hsame : tenant.Same db db') {request : TenantPorts.Call}
    (hallowed : (tenant.boundary.beyond external).allowed true request) :
    tenant.Same (serve similarity request db).2 (serve similarity request db').2 := by
  obtain ⟨hallowed, hexternal⟩ := hallowed
  obtain ⟨hjobs, hresults, hsteps, hrecurring, hchannels, hdocuments, hchunks, htokens, husers⟩ :=
    id hsame
  rcases request with (request | request) | request | request | request
  · cases request with
    | insert job => exact { hsame with jobs := insert_mine hsame.jobs hallowed.1.1 }
    | update job =>
        have hget : db.jobs.jobs.get job.id = db'.jobs.jobs.get job.id := by
          refine get_mine hsame.jobs (fun row hrow hkey => ?_) fun row hrow hkey => ?_
          · rw [← hapart.job_owned row hrow, hkey, hallowed.1.2]
          · rw [← hapart'.job_owned row hrow, hkey, hallowed.1.2]
        refine { hsame with jobs := ?_ }
        change (db.jobs.jobs.update .inMemory job).retain _ = (db'.jobs.jobs.update .inMemory job).retain _
        unfold Jobs.update
        dsimp only
        rw [hget]
        exact insert_mine hsame.jobs hallowed.1.1
    | storeResults jobId results =>
        exact { hsame with results := insert_mine hsame.results hallowed }
    | appendStep jobId step =>
        refine { hsame with steps := ?_ }
        have hsteps : db.jobs.steps.of jobId = db'.jobs.steps.of jobId := by
          rw [of_own (Table.Reordered.refl _) hallowed,
            of_own (Table.Reordered.refl db'.jobs.steps) hallowed]
          exact congrArg (PerJob.of · jobId) hsame.steps
        change (Job.appendStep db.jobs.steps jobId step).retain _ =
          (Job.appendStep db'.jobs.steps jobId step).retain _
        unfold Job.appendStep
        dsimp only
        rw [hsteps]
        split
        · exact hsame.steps
        · exact insert_mine hsame.steps hallowed
    | clearSteps jobId => exact { hsame with steps := remove_mine hsame.steps }
    | addUsage jobId usage => exact { hsame with jobs := modify_mine hsame.jobs }
    | listUnfinishedOlderThan cutoff => exact hallowed.elim
    | listDue now => exact hallowed.elim
    | markRan id at_ => exact hallowed.elim
    | _ =>
        exact ⟨hjobs, hresults, hsteps, hrecurring, hchannels, hdocuments, hchunks, htokens, husers⟩
  · cases request <;>
      exact ⟨hjobs, hresults, hsteps, hrecurring, hchannels, hdocuments, hchunks, htokens, husers⟩
  · cases request with
    | insert document => exact { hsame with documents := insert_mine hsame.documents hallowed.1 }
    | delete userId id =>
        have hdelete := delete_mine hsame hallowed id
        exact { hsame with documents := hdelete.1, chunks := hdelete.2 }
    | storeChunks document batch =>
        exact { hsame with
          documents := modify_mine hsame.documents
          chunks := by
            change (db.knowledge.store.chunks ++ batch.map (storedChunk document)).filter _ =
              (db'.knowledge.store.chunks ++ batch.map (storedChunk document)).filter _
            rw [List.filter_append, List.filter_append]
            exact congrArg (· ++ _) hsame.chunks }
    | markFailed id error => exact { hsame with documents := modify_mine hsame.documents }
    | deleteAllForUser userId =>
        exact { hsame with
          documents := retain_mine hsame.documents _
          chunks := chunks_mine hsame.chunks _ }
    | _ =>
        exact ⟨hjobs, hresults, hsteps, hrecurring, hchannels, hdocuments, hchunks, htokens, husers⟩
  · cases request with
    | recurring userId => exact { hsame with recurring := retain_mine hsame.recurring _ }
    | jobs userId =>
        have hdoomed := doomed_mine hsame hallowed
        refine { hsame with jobs := retain_mine hsame.jobs _, results := ?_, steps := ?_ }
        · change (db.jobs.results.retain _).retain _ = (db'.jobs.results.retain _).retain _
          rw [hdoomed]
          exact retain_mine hsame.results _
        · change (db.jobs.steps.retain _).retain _ = (db'.jobs.steps.retain _).retain _
          rw [hdoomed]
          exact retain_mine hsame.steps _
    | refreshTokens userId => exact { hsame with tokens := retain_mine hsame.tokens _ }
    | channels userId => exact { hsame with channels := retain_mine hsame.channels _ }
    | documents userId =>
        exact { hsame with
          documents := retain_mine hsame.documents _
          chunks := chunks_mine hsame.chunks _ }
    | user userId => exact { hsame with users := remove_mine hsame.users }
  · cases request with
    | insertChannel channel => exact { hsame with channels := insert_mine hsame.channels hallowed.1 }
    | deleteChannel userId id =>
        rw [deleteChannel_state, deleteChannel_state,
          any_mine hsame.channels (tenant.picked NotificationChannel.userId hallowed)]
        split
        · exact { hsame with channels := remove_mine hsame.channels }
        · exact hsame
    | insertSearch search => exact { hsame with recurring := insert_mine hsame.recurring hallowed.1 }
    | deleteSearch userId id =>
        rw [deleteSearch_state, deleteSearch_state,
          any_mine hsame.recurring (tenant.picked RecurringSearch.userId hallowed)]
        split
        · exact { hsame with recurring := remove_mine hsame.recurring }
        · exact hsame
    | _ =>
        exact ⟨hjobs, hresults, hsteps, hrecurring, hchannels, hdocuments, hchunks, htokens, husers⟩

theorem Tenant.Holds.apart {side : Bool} {userId id : Uuid} (h : tenant.Holds side userId id) :
    tenant.Holds (tenant.is userId) userId id := by
  rw [h.1]
  exact h

theorem Tenant.JobOf.self {side : Bool} {job : ResearchJob} (h : tenant.JobOf side job) :
    tenant.JobOf (tenant.is job.userId) job := by
  rw [h.1.1]
  exact h

-- Records stay on the side of their owners.
theorem serve_apart (similarity : Embedding → Embedding → Int) (hapart : tenant.Apart db) {side : Bool}
    {request : TenantPorts.Call}
    (hallowed : (tenant.boundary.beyond external).allowed side request) :
    tenant.Apart (serve similarity request db).2 := by
  obtain ⟨hallowed, -⟩ := hallowed
  obtain ⟨hjobs, hrecurring, hchannels, hdocuments, hchunks⟩ := id hapart
  have hkept : ∀ keep : StoredChunk → Bool, ∀ chunk ∈ db.knowledge.store.chunks.filter keep,
      tenant.Holds (tenant.is chunk.userId) chunk.userId chunk.documentId :=
    fun _ chunk hchunk => hchunks chunk (List.mem_of_mem_filter hchunk)
  rcases request with (request | request) | request | request | request
  · cases request with
    | insert job => exact { hapart with jobs := Table.forall_insert hjobs hallowed.self }
    | update job => exact { hapart with jobs := Table.forall_insert hjobs hallowed.self }
    | addUsage jobId usage => exact { hapart with jobs := Table.forall_modify hjobs }
    | listUnfinishedOlderThan cutoff => exact hallowed.elim
    | listDue now => exact hallowed.elim
    | markRan id at_ => exact hallowed.elim
    | _ => exact ⟨hjobs, hrecurring, hchannels, hdocuments, hchunks⟩
  · cases request <;> exact ⟨hjobs, hrecurring, hchannels, hdocuments, hchunks⟩
  · cases request with
    | insert document =>
        exact { hapart with documents := Table.forall_insert hdocuments hallowed.apart }
    | delete userId id =>
        have hstate := delete_state db.knowledge.store userId id
        refine { hapart with documents := ?_, chunks := ?_ }
        · change ∀ document ∈ (db.knowledge.store.delete userId id).2.documents, _
          rw [hstate]
          split
          · exact Table.forall_retain hdocuments _
          · exact hdocuments
        · change ∀ chunk ∈ (db.knowledge.store.delete userId id).2.chunks, _
          rw [hstate]
          split
          · exact hkept _
          · exact hchunks
    | storeChunks document batch =>
        exact { hapart with
          documents := Table.forall_modify hdocuments
          chunks := by
            intro chunk hchunk
            obtain hold | hnew := List.mem_append.mp hchunk
            · exact hchunks chunk hold
            · obtain ⟨_, -, rfl⟩ := List.mem_map.mp hnew
              exact hallowed.apart }
    | markFailed id error =>
        exact { hapart with documents := Table.forall_modify hdocuments }
    | deleteAllForUser userId =>
        exact { hapart with documents := Table.forall_retain hdocuments _, chunks := hkept _ }
    | _ => exact ⟨hjobs, hrecurring, hchannels, hdocuments, hchunks⟩
  · cases request with
    | recurring userId => exact { hapart with recurring := Table.forall_retain hrecurring _ }
    | jobs userId => exact { hapart with jobs := Table.forall_retain hjobs _ }
    | refreshTokens userId => exact ⟨hjobs, hrecurring, hchannels, hdocuments, hchunks⟩
    | channels userId => exact { hapart with channels := Table.forall_retain hchannels _ }
    | documents userId =>
        exact { hapart with documents := Table.forall_retain hdocuments _, chunks := hkept _ }
    | user userId => exact ⟨hjobs, hrecurring, hchannels, hdocuments, hchunks⟩
  · cases request with
    | insertChannel channel =>
        exact { hapart with channels := Table.forall_insert hchannels hallowed.apart }
    | deleteChannel userId id =>
        rw [deleteChannel_state]
        split
        · exact { hapart with channels := Table.forall_retain hchannels _ }
        · exact hapart
    | insertSearch search =>
        exact { hapart with recurring := Table.forall_insert hrecurring hallowed.apart }
    | deleteSearch userId id =>
        rw [deleteSearch_state]
        split
        · exact { hapart with recurring := Table.forall_retain hrecurring _ }
        · exact hapart
    | _ => exact ⟨hjobs, hrecurring, hchannels, hdocuments, hchunks⟩

end AgentBoilerplate.Tenancy
