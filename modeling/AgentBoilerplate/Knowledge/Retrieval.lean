import AgentBoilerplate.Knowledge
import AgentBoilerplate.Effects.Runs

namespace AgentBoilerplate.Knowledge

open Effects Collections

namespace DocumentStore

variable {adapter : Adapter} {store : DocumentStore} {similarity : Embedding → Embedding → Int}
  {userId : Uuid} {embedding : Embedding} {k : Int} {chunk : StoredChunk}

theorem mem_chunks_of_nearest (h : chunk ∈ store.nearest adapter similarity userId embedding k) :
    chunk ∈ store.chunks := by
  have hvisible : chunk ∈ store.visible adapter userId :=
    (List.mem_insertionSort _).mp (List.mem_of_mem_take h)
  unfold visible at hvisible
  cases adapter <;> exact List.mem_of_mem_filter hvisible

-- A retrieval that asks for enough returns every chunk it can choose.
theorem mem_nearest (h : chunk ∈ store.visible adapter userId) :
    chunk ∈ store.nearest adapter similarity userId embedding (store.visible adapter userId).length := by
  unfold nearest
  rw [Int.toNat_natCast, List.take_of_length_le (by rw [List.length_insertionSort])]
  exact (List.mem_insertionSort _).mpr h

theorem mem_visible (h : chunk ∈ store.chunks)
    (hstored : adapter = .postgres → ∃ document ∈ store.documents, document.id = chunk.documentId) :
    chunk ∈ store.visible adapter chunk.userId := by
  unfold visible
  cases adapter with
  | inMemory => exact List.mem_filter.mpr ⟨h, by simp⟩
  | postgres =>
      obtain ⟨document, hdocument, hid⟩ := hstored rfl
      have hget := (Table.get_eq_some _ _ _).mpr ⟨hdocument, hid⟩
      exact List.mem_filter.mpr ⟨h, by simp [hget]⟩

-- Every stored chunk is of a document that exists and is ready.
def AllReady (store : DocumentStore) : Prop :=
  ∀ chunk ∈ store.chunks, ∃ document ∈ store.documents,
    document.id = chunk.documentId ∧ document.status = .ready

theorem markReady_mem (id : Uuid) {document : Document}
    (hdocument : document ∈ store.documents) (hready : document.id = id ∨ document.status = .ready) :
    ∃ later ∈ store.documents.modify id markReady, later.id = document.id ∧
      later.status = .ready := by
  refine ⟨_, (Table.mem_modify _ _ _ _ _).mpr ⟨document, hdocument, rfl⟩, ?_⟩
  split
  · exact ⟨rfl, rfl⟩
  · rename_i hid
    exact ⟨rfl, hready.resolve_left hid⟩

end DocumentStore

-- Whoever retrieves, with whatever embedding and however many: the chunks are
-- of documents that exist and are ready.
def Grounded (env : KnowledgeEnv) (store : DocumentStore) : Prop :=
  ∀ userId embedding k, ∀ chunk ∈ store.nearest env.adapter env.similarity userId embedding k,
    ∃ document ∈ store.documents, document.id = chunk.documentId ∧ document.status = .ready

-- A document is marked failed while no chunk of it is stored; and the map is
-- given a batch of a stored document, and new documents that no chunk refers to.
def KeepsReady (env : KnowledgeEnv) (world : KnowledgeWorld) : KnowledgeCall → Prop
  | .markFailed id _ => env.fault world.calls = none →
      ∀ chunk ∈ world.store.chunks, chunk.documentId ≠ id
  | .storeChunks document batch => env.fault world.calls = none → env.adapter = .inMemory →
      batch = [] ∨ ∃ row ∈ world.store.documents, row.id = document.id
  | .insert document => env.fault world.calls = none → env.adapter = .inMemory →
      ∀ chunk ∈ world.store.chunks, chunk.documentId ≠ document.id
  | _ => True

instance (env : KnowledgeEnv) (world : KnowledgeWorld) :
    (request : KnowledgeCall) → Decidable (KeepsReady env world request)
  | .markFailed id _ => inferInstanceAs (Decidable (env.fault world.calls = none →
      ∀ chunk ∈ world.store.chunks, chunk.documentId ≠ id))
  | .storeChunks document batch => inferInstanceAs (Decidable (env.fault world.calls = none →
      env.adapter = .inMemory →
        batch = [] ∨ ∃ row ∈ world.store.documents.rows, row.id = document.id))
  | .insert document => inferInstanceAs (Decidable (env.fault world.calls = none →
      env.adapter = .inMemory → ∀ chunk ∈ world.store.chunks, chunk.documentId ≠ document.id))
  | .listForUser _ | .find _ | .delete _ _ | .retrieve _ _ _ | .deleteAllForUser _
  | .dispatchEmbed _ _ _ | .utcNow | .newUuid => isTrue trivial

def CallsKeepReady {ι : Type} (env : KnowledgeEnv) (c : KnowledgeRuns ι) (i : ι) : Prop :=
  (c.threads i).rest.Asks (KeepsReady env c.store)

instance {ι : Type} (env : KnowledgeEnv) (c : KnowledgeRuns ι) (i : ι) :
    Decidable (CallsKeepReady env c i) := Program.decidableAsks _

-- An upload stores a pending document, and no operation deletes an account.
def Uploads : KnowledgeCall → Prop
  | .insert document => document.status = .pending
  | .deleteAllForUser _ => False
  | _ => True

theorem ask_uploads {wrap : PortError → PortError} {α : Type}
    {p : Program KnowledgePorts (Except PortError α)} {past : List (Event KnowledgePorts)}
    (h : p.Calls (fun _ request => Uploads request) past) :
    (orFail wrap p).run.Calls (fun _ request => Uploads request) past := by
  rw [Fallible.run_orFail]
  refine h.bind fun later result _ => ?_
  cases result <;> trivial

theorem new_bind {α : Type} (userId : Uuid) (name : String)
    (f : Except DocumentError Document → Program KnowledgePorts α) :
    (Document.new userId name >>= f) =
      if (trim name).isEmpty then f (.error .emptyName)
      else if (trim name).length > maxDocumentNameLen then f (.error .nameTooLong)
      else .call .newUuid fun id => .call .utcNow fun now => f (.ok {
        id, userId, name := trim name, status := .pending, error := none,
        createdAt := truncSubsecs6 now }) := by
  unfold Document.new
  dsimp only
  split_ifs <;> rfl

theorem upload_uploads (userId : Uuid) (name content : String) :
    (upload userId name content).run.Calls (fun _ request => Uploads request) [] := by
  simp only [upload, Fallible.run_orFail_bind, Program.pure_eq, Program.done_bind]
  cases validateContent content with
  | error e => trivial
  | ok _ =>
      dsimp only
      rw [new_bind]
      -- which check refuses the name plays no part
      generalize (trim name).length = length
      generalize (trim name).isEmpty = empty
      refine Program.calls_ite (fun _ => trivial) fun _ =>
        Program.calls_ite (fun _ => trivial) fun _ => ?_
      simp only [Fallible.run_lift_bind, ask, Program.call_bind, Program.done_bind]
      refine ⟨trivial, fun id => ⟨trivial, fun now => ⟨rfl, ?_⟩⟩⟩
      rintro (e | _)
      · trivial
      refine ⟨trivial, ?_⟩
      rintro (e | _)
      · exact ⟨trivial, fun _ => trivial⟩
      · trivial

theorem storeChunks_uploads (documentId : Uuid) (batch : List NewChunk) :
    (storeChunks documentId batch).run.Calls (fun _ request => Uploads request) [] := by
  simp only [storeChunks, Fallible.run_orFail_bind, ask, Program.call_bind, Program.done_bind]
  refine ⟨trivial, ?_⟩
  rintro (e | _ | document)
  · trivial
  · trivial
  · exact ⟨trivial, fun answer => by cases answer <;> trivial⟩

theorem op_uploads (op : KnowledgeOp) :
    op.program.Calls (fun _ request => Uploads request) [] := by
  cases op with
  | upload userId name content =>
      -- not `exact`, which would evaluate the checks of the content
      simp only [KnowledgeOp.program, Program.calls_bind_pure, upload_uploads]
  | list userId =>
      exact (Program.calls_bind_pure _ _ _).mpr (ask_uploads ⟨trivial, fun _ => trivial⟩)
  | delete userId id =>
      exact (Program.calls_bind_pure _ _ _).mpr (ask_uploads ⟨trivial, fun _ => trivial⟩)
  | storeChunks documentId batch =>
      exact (Program.calls_bind_pure _ _ _).mpr (storeChunks_uploads documentId batch)
  | markFailed documentId error =>
      exact (Program.calls_bind_pure _ _ _).mpr (ask_uploads ⟨trivial, fun _ => trivial⟩)

section Grounded

variable {env : KnowledgeEnv} {world : KnowledgeWorld} {request : KnowledgeCall}

theorem DocumentStore.AllReady.grounded {store : DocumentStore} (h : store.AllReady) :
    Grounded env store :=
  fun _ _ _ chunk hchunk => h chunk (DocumentStore.mem_chunks_of_nearest hchunk)

-- A chunk whose document is missing or not ready is retrieved all the same.
theorem not_grounded {store : DocumentStore} {chunk : StoredChunk} (hchunk : chunk ∈ store.chunks)
    (hstored : env.adapter = .postgres →
      ∃ document ∈ store.documents, document.id = chunk.documentId)
    (hready : ∀ document ∈ store.documents, document.id = chunk.documentId →
      document.status ≠ .ready) : ¬ Grounded env store := by
  intro hgrounded
  have hvisible := DocumentStore.mem_visible hchunk hstored
  obtain ⟨document, hdocument, hid, hstatus⟩ :=
    hgrounded chunk.userId [] _ chunk (DocumentStore.mem_nearest hvisible)
  exact hready document hdocument hid hstatus

theorem AllReady.insert {adapter : Adapter} {store : DocumentStore} {document : Document}
    (h : store.AllReady)
    (hfree : adapter = .inMemory → ∀ chunk ∈ store.chunks, chunk.documentId ≠ document.id) :
    (store.insert adapter document).2.AllReady := by
  have hkeep : (∀ chunk ∈ store.chunks, chunk.documentId ≠ document.id) →
      ({ store with documents := store.documents.insert document } : DocumentStore).AllReady := by
    intro hne chunk hchunk
    obtain ⟨old, hold, hid, hstatus⟩ := h chunk hchunk
    refine ⟨old, (Table.mem_insert _ _ _).mpr (Or.inr ⟨hold, ?_⟩), hid, hstatus⟩
    exact fun heq => hne chunk hchunk (hid.symm.trans heq)
  unfold DocumentStore.insert
  cases adapter with
  | inMemory => exact hkeep (hfree rfl)
  | postgres =>
      dsimp only
      split
      · exact h
      · rename_i hnone
        refine hkeep fun chunk hchunk heq => hnone ?_
        obtain ⟨old, hold, hid, -⟩ := h chunk hchunk
        exact List.any_eq_true.mpr ⟨old, hold, by simp [hid, heq]⟩

theorem AllReady.delete {store : DocumentStore} (h : store.AllReady) (userId id : Uuid) :
    (store.delete userId id).2.AllReady := by
  unfold DocumentStore.delete
  split
  · intro chunk hchunk
    obtain ⟨hold, hne⟩ := List.mem_filter.mp hchunk
    obtain ⟨document, hdocument, hid, hstatus⟩ := h chunk hold
    refine ⟨document, (Table.mem_remove _ _ _).mpr ⟨hdocument, ?_⟩, hid, hstatus⟩
    exact fun heq => (of_decide_eq_true hne) (hid.symm.trans heq)
  · exact h

theorem AllReady.storeChunks {adapter : Adapter} {store : DocumentStore} {document : Document}
    {batch : List NewChunk} (h : store.AllReady)
    (hstored : adapter = .inMemory → batch = [] ∨ ∃ row ∈ store.documents, row.id = document.id) :
    (store.storeChunks adapter document batch).2.AllReady := by
  have hold : ∀ chunk ∈ store.chunks,
      ∃ later ∈ store.documents.modify document.id markReady,
        later.id = chunk.documentId ∧ later.status = .ready := by
    intro chunk hchunk
    obtain ⟨row, hrow, hid, hstatus⟩ := h chunk hchunk
    obtain ⟨later, hlater, hlid, hready⟩ :=
      DocumentStore.markReady_mem document.id hrow (Or.inr hstatus)
    exact ⟨later, hlater, hlid.trans hid, hready⟩
  have hnew : (batch = [] ∨ ∃ row ∈ store.documents, row.id = document.id) →
      ∀ chunk ∈ batch.map (storedChunk document),
        ∃ later ∈ store.documents.modify document.id markReady,
          later.id = chunk.documentId ∧ later.status = .ready := by
    intro hexists chunk hchunk
    obtain ⟨new, hnew, rfl⟩ := List.mem_map.mp hchunk
    rcases hexists with rfl | ⟨row, hrow, hid⟩
    · cases hnew
    · obtain ⟨later, hlater, hlid, hready⟩ :=
        DocumentStore.markReady_mem document.id hrow (Or.inl hid)
      exact ⟨later, hlater, hlid.trans hid, hready⟩
  unfold DocumentStore.storeChunks
  cases adapter with
  | inMemory =>
      intro chunk hchunk
      rcases List.mem_append.mp hchunk with hmem | hmem
      · exact hold chunk hmem
      · exact hnew (hstored rfl) chunk hmem
  | postgres =>
      dsimp only
      split
      · exact h
      split
      · exact h
      rename_i hforeign _
      have hexists : batch = [] ∨ ∃ row ∈ store.documents, row.id = document.id := by
        by_cases hempty : batch = []
        · exact Or.inl hempty
        · right
          cases hget : store.documents.get document.id with
          | none => exact absurd ⟨by simpa using hempty, by simp [hget]⟩ hforeign
          | some row =>
              obtain ⟨hrow, hid⟩ := (Table.get_eq_some _ _ _).mp hget
              exact ⟨row, hrow, hid⟩
      intro chunk hchunk
      rcases List.mem_append.mp hchunk with hmem | hmem
      · exact hold chunk (List.mem_of_mem_filter hmem)
      · exact hnew hexists chunk hmem

theorem AllReady.markFailed {store : DocumentStore} (h : store.AllReady) {id : Uuid}
    (hfree : ∀ chunk ∈ store.chunks, chunk.documentId ≠ id) (error : String) :
    (store.markFailed id error).AllReady := by
  intro chunk hchunk
  obtain ⟨document, hdocument, hid, hstatus⟩ := h chunk hchunk
  refine ⟨document, ?_, hid, hstatus⟩
  simp only [DocumentStore.markFailed, Table.mem_modify]
  refine ⟨document, hdocument, ?_⟩
  rw [if_neg fun heq => hfree chunk hchunk (hid.symm.trans heq)]

theorem AllReady.handle (h : world.store.AllReady) (hupload : Uploads request)
    (hkeeps : KeepsReady env world request) : (env.handle request world).2.store.AllReady := by
  cases request with
  | utcNow | newUuid => exact h
  | insert document =>
      simp only [KnowledgeEnv.handle, KnowledgeEnv.attempt]
      split
      · exact h
      · rename_i hfault
        exact AllReady.insert h (hkeeps hfault)
  | delete userId id =>
      simp only [KnowledgeEnv.handle, KnowledgeEnv.attempt]
      split
      · exact h
      · exact AllReady.delete h userId id
  | storeChunks document batch =>
      simp only [KnowledgeEnv.handle, KnowledgeEnv.attempt]
      split
      · exact h
      · rename_i hfault
        exact AllReady.storeChunks h (hkeeps hfault)
  | markFailed id error =>
      simp only [KnowledgeEnv.handle, KnowledgeEnv.attempt]
      split
      · exact h
      · rename_i hfault
        exact AllReady.markFailed h (hkeeps hfault) error
  | deleteAllForUser userId => exact absurd hupload id
  | listForUser | find | retrieve | dispatchEmbed =>
      simp only [KnowledgeEnv.handle, KnowledgeEnv.attempt]
      split <;> exact h

-- A call outside the condition breaks the property at once.
theorem KeepsReady.breaks (h : world.store.AllReady) (hupload : Uploads request)
    (hkeeps : ¬ KeepsReady env world request) :
    ¬ Grounded env (env.handle request world).2.store := by
  cases request with
  | insert document =>
      simp only [KeepsReady] at hkeeps
      push Not at hkeeps
      obtain ⟨hfault, hadapter, chunk, hchunk, hid⟩ := hkeeps
      simp only [KnowledgeEnv.handle, KnowledgeEnv.attempt, hfault, DocumentStore.insert, hadapter]
      refine not_grounded hchunk (by simp [hadapter]) fun row hrow hrowid => ?_
      rcases (Table.mem_insert _ _ _).mp hrow with rfl | ⟨-, hne⟩
      · rw [hupload]
        decide
      · exact absurd (hrowid.trans hid) hne
  | storeChunks document batch =>
      simp only [KeepsReady] at hkeeps
      push Not at hkeeps
      obtain ⟨hfault, hadapter, hbatch, hmissing⟩ := hkeeps
      simp only [KnowledgeEnv.handle, KnowledgeEnv.attempt, hfault, DocumentStore.storeChunks,
        hadapter]
      obtain ⟨new, hnew⟩ := List.exists_mem_of_ne_nil batch hbatch
      refine not_grounded (List.mem_append_right _ (List.mem_map_of_mem hnew))
        (by simp [hadapter])
        fun row hrow hrowid => ?_
      obtain ⟨old, hold, rfl⟩ := (Table.mem_modify world.store.documents document.id markReady
        (fun _ => rfl) row).mp hrow
      have hne := hmissing old hold
      rw [if_neg hne] at hrowid
      exact absurd hrowid hne
  | markFailed id error =>
      simp only [KeepsReady] at hkeeps
      push Not at hkeeps
      obtain ⟨hfault, chunk, hchunk, hid⟩ := hkeeps
      simp only [KnowledgeEnv.handle, KnowledgeEnv.attempt, hfault, DocumentStore.markFailed]
      obtain ⟨document, hdocument, hdid, -⟩ := h chunk hchunk
      have hsame : document.id = id := hdid.trans hid
      refine not_grounded hchunk (fun _ => ?_) fun row hrow hrowid => ?_
      · simp only [Table.mem_modify]
        refine ⟨_, ⟨document, hdocument, rfl⟩, ?_⟩
        rw [if_pos hsame]
        exact hdid
      · simp only [Table.mem_modify] at hrow
        obtain ⟨old, hold, rfl⟩ := hrow
        by_cases holdid : old.id = id
        · rw [if_pos holdid]
          simp
        · rw [if_neg holdid] at hrowid
          exact absurd (hrowid.trans hid) holdid
  | listForUser | find | delete | retrieve | deleteAllForUser | dispatchEmbed | utcNow | newUuid =>
      exact absurd trivial hkeeps

variable {ι : Type} [DecidableEq ι] {ops : ι → KnowledgeOp}

-- From a store whose chunks are all of ready documents, every retrieval along a
-- run returns chunks of existing, ready documents only, exactly for the runs
-- whose calls keep it so.
theorem retrieval_grounded (env : KnowledgeEnv) (ops : ι → KnowledgeOp) {world : KnowledgeWorld}
    (hready : world.store.AllReady) (schedule : List ι) :
    Always (Config.step env.handle) (fun c => Grounded env c.store.store) (knowledgeRuns world ops)
        schedule ↔
      Permits (Config.step env.handle) (CallsKeepReady env) (knowledgeRuns world ops) schedule := by
  have hstart : (knowledgeRuns world ops).store.store.AllReady ∧
      (knowledgeRuns world ops).Threaded fun _ _ p => p.Asks Uploads :=
    ⟨hready, Config.threaded_start (fun i => op_uploads (ops i)) world⟩
  refine always_iff_permits (fun c (h : c.store.store.AllReady ∧ c.Threaded fun _ _ p => p.Asks Uploads) =>
    h.1.grounded) ?_ ?_ hstart (always_true _ _)
  · intro c i h _ hkeeps
    cases hrest : (c.threads i).rest with
    | done value => rwa [Config.step_done _ _ _ _ hrest]
    | call request next =>
        rw [CallsKeepReady, hrest] at hkeeps
        rw [Config.step_call _ _ _ _ _ hrest]
        exact ⟨AllReady.handle h.1 (h.2.here hrest) hkeeps, h.2.advance hrest⟩
  · intro c i h _ hkeeps
    cases hrest : (c.threads i).rest with
    | done value =>
        rw [CallsKeepReady, hrest] at hkeeps
        exact absurd trivial hkeeps
    | call request next =>
        rw [CallsKeepReady, hrest] at hkeeps
        rw [Config.step_call _ _ _ _ _ hrest]
        exact KeepsReady.breaks h.1 (h.2.here hrest) hkeeps

end Grounded

-- One uploaded document, and the notifications of its worker.
namespace Sample

def document : Document where
  id := ⟨"0d6a1f83-52c7-4e19-8b40-f3a97e2d6c15"⟩
  userId := ⟨"f0b7c7f2-8a4e-4f0e-a0f5-2c64dd1b6a10"⟩
  name := "notes.md"
  status := .pending
  error := none
  createdAt := 1767225600000000000

def chunk : NewChunk where
  seq := 0
  content := "the sky is blue"
  embedding := List.replicate embeddingLen 1

def env (adapter : Adapter) : KnowledgeEnv where
  adapter := adapter
  similarity _ _ := 0
  clock n := 1767225660000000000 + 1000000 * n
  uuid n := ⟨"6e2b9c04-1f7d-4a58-93e6-b0c85d" ++ toString (100000 + n)⟩
  fault _ := none

def world : KnowledgeWorld where
  store := { documents := Table.empty.insert document, chunks := [] }
  embedded := []
  calls := 0
  readings := 0
  uuids := 0

-- The worker stores its batch, and then reports a failure.
def callbacks : Bool → KnowledgeOp
  | false => .storeChunks document.id [chunk]
  | true => .markFailed document.id "embedding failed: timed out"

end Sample

-- The acknowledgement of the batch was lost, and the worker reported a failure:
-- the chunk of the failed document is retrieved.
theorem retrieved_from_failed :
    let c := (knowledgeRuns Sample.world Sample.callbacks).run (Sample.env .postgres).handle
      [false, false, true]
    c.store.store.retrieve .postgres (Sample.env .postgres).similarity Sample.document.userId [] 5 =
        [⟨"the sky is blue", "notes.md"⟩] ∧
      c.store.store.documents.rows.map Document.status = [.failed] ∧
      ¬ Grounded (Sample.env .postgres) c.store.store := by
  refine ⟨by decide +kernel, by decide +kernel, fun hgrounded => ?_⟩
  obtain ⟨document, hdocument, -, hready⟩ := hgrounded Sample.document.userId [] 5
    (storedChunk Sample.document Sample.chunk) (by decide +kernel)
  have hfailed : ∀ row ∈ ((knowledgeRuns Sample.world Sample.callbacks).run
      (Sample.env .postgres).handle [false, false, true]).store.store.documents.rows,
      row.status = .failed := by
    decide +kernel
  rw [hfailed document hdocument] at hready
  cases hready

theorem retrieval_grounded_in_turn :
    Always (Config.step (Sample.env .postgres).handle)
      (fun c => Grounded (Sample.env .postgres) c.store.store)
      (knowledgeRuns Sample.world Sample.callbacks) [true, false, false] := by
  refine (retrieval_grounded (Sample.env .postgres) Sample.callbacks ?_ _).mpr (by decide +kernel)
  exact fun chunk hchunk => by cases hchunk

end AgentBoilerplate.Knowledge
