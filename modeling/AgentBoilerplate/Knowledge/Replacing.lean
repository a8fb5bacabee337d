import AgentBoilerplate.Knowledge.Retrieval

namespace AgentBoilerplate.Knowledge

open Effects Collections

-- The calls of a sequence: a worker's callback with its batch, and a deletion.
inductive ChunkCall where
  | storeChunks (documentId : Uuid) (batch : List NewChunk)
  | delete (userId id : Uuid)
deriving DecidableEq

def ChunkCall.op : ChunkCall → KnowledgeOp
  | .storeChunks documentId batch => .storeChunks documentId batch
  | .delete userId id => .delete userId id

-- The database, with the last batch that was stored for each document and the
-- documents that were deleted, as the callers were told.
structure Ledger where
  world : KnowledgeWorld
  batches : Uuid → List NewChunk
  deleted : List Uuid

def Ledger.answered (ledger : Ledger) (call : ChunkCall) (outcome : KnowledgeOutcome)
    (world : KnowledgeWorld) : Ledger :=
  match call, outcome with
  | .storeChunks documentId batch, .storeChunks (.ok ()) =>
      ⟨world, Function.update ledger.batches documentId batch, ledger.deleted⟩
  | .delete _ id, .delete (.ok true) => ⟨world, ledger.batches, id :: ledger.deleted⟩
  | _, _ => ⟨world, ledger.batches, ledger.deleted⟩

-- One call after the other.
def Ledger.serve (env : KnowledgeEnv) (ledger : Ledger) (call : ChunkCall) : Ledger :=
  let answer := call.op.program.run env.handle ledger.world
  ledger.answered call answer.1 answer.2

-- What its owner can retrieve of an existing document is its last batch, and nobody
-- retrieves anything of a deleted one. The retrievals ask for enough chunks.
def Ledger.Replaced (env : KnowledgeEnv) (ledger : Ledger) : Prop :=
  let store := ledger.world.store
  (∀ document ∈ store.documents, ∀ embedding k,
    ((store.visible env.adapter document.userId).length : Int) ≤ k →
      ((store.nearest env.adapter env.similarity document.userId embedding k).filter fun chunk =>
        chunk.documentId = document.id).Perm
          ((ledger.batches document.id).map (storedChunk document))) ∧
    ∀ id ∈ ledger.deleted, ∀ userId embedding k,
      ∀ chunk ∈ store.nearest env.adapter env.similarity userId embedding k, chunk.documentId ≠ id

section

variable {env : KnowledgeEnv} {ledger : Ledger} {documentId userId id : Uuid} {batch : List NewChunk}
  {document : Document}

-- The callback finds its document, and its batch is stored.
structure Accepted (env : KnowledgeEnv) (world : KnowledgeWorld) (documentId : Uuid)
    (batch : List NewChunk) (document : Document) : Prop where
  finds : env.fault world.calls = none
  found : world.store.documents.get documentId = some document
  stores : env.fault (world.calls + 1) = none
  stored : (world.store.storeChunks env.adapter document batch).1 = .ok ()

theorem serve_accepted (h : Accepted env ledger.world documentId batch document) :
    ledger.serve env (.storeChunks documentId batch) =
      { world := { ledger.world with
          store := (ledger.world.store.storeChunks env.adapter document batch).2
          calls := ledger.world.calls + 1 + 1 }
        batches := Function.update ledger.batches documentId batch
        deleted := ledger.deleted } := by
  unfold Ledger.serve
  simp only [ChunkCall.op, KnowledgeOp.program, Knowledge.storeChunks, Fallible.run_orFail_bind, ask,
    Program.call_bind, Program.done_bind, Program.run_call, KnowledgeEnv.handle, KnowledgeEnv.attempt,
    h.finds, h.found, h.stores, h.stored, Fallible.run_orFail, Program.run_done, Program.pure_eq]
  rfl

theorem storeChunks_error {adapter : Adapter} {store : DocumentStore} {e : PortError}
    (h : (store.storeChunks adapter document batch).1 = .error e) :
    (store.storeChunks adapter document batch).2 = store := by
  unfold DocumentStore.storeChunks at h ⊢
  cases adapter with
  | inMemory => cases h
  | postgres =>
    dsimp only at h ⊢
    split
    · rfl
    · rename_i hforeign
      rw [if_neg hforeign] at h
      split
      · rfl
      · rename_i hlength
        rw [if_neg hlength] at h
        cases h

theorem serve_refused (h : ∀ document, ¬ Accepted env ledger.world documentId batch document) :
    (ledger.serve env (.storeChunks documentId batch)).world.store = ledger.world.store ∧
      (ledger.serve env (.storeChunks documentId batch)).batches = ledger.batches ∧
      (ledger.serve env (.storeChunks documentId batch)).deleted = ledger.deleted := by
  unfold Ledger.serve
  simp only [ChunkCall.op, KnowledgeOp.program, Knowledge.storeChunks, Fallible.run_orFail_bind, ask,
    Program.call_bind, Program.done_bind, Program.run_call, KnowledgeEnv.handle, KnowledgeEnv.attempt]
  cases hfinds : env.fault ledger.world.calls with
  | some e =>
    simp only [Program.done_bind, Program.run_done, Program.pure_eq]
    exact ⟨rfl, rfl, rfl⟩
  | none =>
    cases hfound : ledger.world.store.documents.get documentId with
    | none =>
      simp only [Fallible.run_throw, Program.done_bind, Program.run_done, Program.pure_eq]
      exact ⟨rfl, rfl, rfl⟩
    | some document =>
      simp only [Fallible.run_orFail, Program.call_bind, Program.done_bind, Program.run_call,
        KnowledgeEnv.handle, KnowledgeEnv.attempt]
      cases hstores : env.fault (ledger.world.calls + 1) with
      | some e =>
        simp only [Program.done_bind, Program.run_done, Program.pure_eq]
        exact ⟨rfl, rfl, rfl⟩
      | none =>
        cases hstored : (ledger.world.store.storeChunks env.adapter document batch).1 with
        | ok _ => exact absurd ⟨hfinds, hfound, hstores, hstored⟩ (h document)
        | error e =>
          simp only [Program.done_bind, Program.run_done, Program.pure_eq]
          exact ⟨storeChunks_error hstored, rfl, rfl⟩

-- A deletion that is answered `true` has removed the document and its chunks; any other
-- one has changed nothing.
theorem serve_delete :
    ((ledger.serve env (.delete userId id)).world.store = ledger.world.store ∧
        (ledger.serve env (.delete userId id)).batches = ledger.batches ∧
        (ledger.serve env (.delete userId id)).deleted = ledger.deleted) ∨
      ((ledger.serve env (.delete userId id)).world.store = {
          documents := ledger.world.store.documents.remove id
          chunks := ledger.world.store.chunks.filter fun chunk => chunk.documentId ≠ id } ∧
        (ledger.serve env (.delete userId id)).batches = ledger.batches ∧
        (ledger.serve env (.delete userId id)).deleted = id :: ledger.deleted) := by
  unfold Ledger.serve
  simp only [ChunkCall.op, KnowledgeOp.program, Knowledge.delete, Fallible.run_orFail, ask,
    Program.call_bind, Program.done_bind, Program.run_call, KnowledgeEnv.handle, KnowledgeEnv.attempt]
  cases hfault : env.fault ledger.world.calls with
  | some e =>
    simp only [Program.done_bind, Program.run_done, Program.pure_eq]
    exact Or.inl ⟨rfl, rfl, rfl⟩
  | none =>
    simp only [DocumentStore.delete]
    by_cases howner : (ledger.world.store.documents.get id).any fun document => document.userId = userId
    · simp only [if_pos howner, Program.done_bind, Program.run_done, Program.pure_eq]
      exact Or.inr ⟨rfl, rfl, rfl⟩
    · simp only [if_neg howner, Program.done_bind, Program.run_done, Program.pure_eq]
      exact Or.inl ⟨rfl, rfl, rfl⟩

-- What holds as long as each batch that is stored finds no chunk of its document.
structure Filed (ledger : Ledger) : Prop where
  exists_document : ∀ chunk ∈ ledger.world.store.chunks,
    ∃ document ∈ ledger.world.store.documents, document.id = chunk.documentId
  batches : ∀ document ∈ ledger.world.store.documents,
    ledger.world.store.chunks.filter (fun chunk => chunk.documentId = document.id) =
      (ledger.batches document.id).map (storedChunk document)
  deleted : ∀ id ∈ ledger.deleted, ∀ document ∈ ledger.world.store.documents, document.id ≠ id

-- The batch is stored where none of its document is.
def StoresAfresh (env : KnowledgeEnv) (ledger : Ledger) : ChunkCall → Prop
  | .storeChunks documentId batch => env.adapter = .inMemory →
      ∀ document, Accepted env ledger.world documentId batch document →
        ∀ chunk ∈ ledger.world.store.chunks, chunk.documentId ≠ documentId
  | .delete _ _ => True

-- The chunks of an existing document are all visible to its owner.
theorem Filed.visible (h : Filed ledger) {adapter : Adapter} (hdocument : document ∈ ledger.world.store.documents) :
    (ledger.world.store.visible adapter document.userId).filter
        (fun chunk => chunk.documentId = document.id) =
      (ledger.batches document.id).map (storedChunk document) := by
  rw [← h.batches document hdocument]
  have howner : ∀ chunk ∈ ledger.world.store.chunks, chunk.documentId = document.id →
      chunk.userId = document.userId := by
    intro chunk hchunk hid
    have hmem : chunk ∈ (ledger.batches document.id).map (storedChunk document) := by
      rw [← h.batches document hdocument]
      exact List.mem_filter.mpr ⟨hchunk, decide_eq_true hid⟩
    obtain ⟨new, _, rfl⟩ := List.mem_map.mp hmem
    rfl
  have hget : ledger.world.store.documents.get document.id = some document :=
    (Table.get_eq_some _ _ _).mpr ⟨hdocument, rfl⟩
  unfold DocumentStore.visible
  cases adapter with
  | inMemory =>
    dsimp only
    rw [List.filter_filter]
    refine List.filter_congr fun chunk hchunk => ?_
    by_cases hid : chunk.documentId = document.id
    · simp [hid, howner chunk hchunk hid]
    · simp [hid]
  | postgres =>
    dsimp only
    rw [List.filter_filter]
    refine List.filter_congr fun chunk hchunk => ?_
    by_cases hid : chunk.documentId = document.id
    · simp [hid, howner chunk hchunk hid, hget]
    · simp [hid]

theorem nearest_perm {store : DocumentStore} {adapter : Adapter}
    {similarity : Embedding → Embedding → Int} {embedding : Embedding} {k : Int}
    (hk : ((store.visible adapter userId).length : Int) ≤ k) :
    (store.nearest adapter similarity userId embedding k).Perm (store.visible adapter userId) := by
  unfold DocumentStore.nearest
  rw [List.take_of_length_le (by rw [List.length_insertionSort]; omega)]
  exact List.perm_insertionSort _ _

theorem Filed.replaced (h : Filed ledger) : ledger.Replaced env := by
  refine ⟨fun document hdocument embedding k hk => ?_, fun id hid userId embedding k chunk hchunk heq => ?_⟩
  · rw [← h.visible hdocument]
    exact (nearest_perm hk).filter _
  · obtain ⟨document, hdocument, hsame⟩ :=
      h.exists_document chunk (DocumentStore.mem_chunks_of_nearest hchunk)
    exact h.deleted id hid document hdocument (hsame.trans heq)

theorem accepted_store (h : Accepted env ledger.world documentId batch document)
    (hafresh : StoresAfresh env ledger (.storeChunks documentId batch)) :
    (ledger.world.store.storeChunks env.adapter document batch).2 = {
      documents := ledger.world.store.documents.modify document.id markReady
      chunks := (ledger.world.store.chunks.filter fun chunk => chunk.documentId ≠ document.id) ++
        batch.map (storedChunk document) } := by
  have hstored := h.stored
  unfold DocumentStore.storeChunks at hstored ⊢
  cases hadapter : env.adapter with
  | inMemory =>
    have hid : document.id = documentId := ((Table.get_eq_some _ _ _).mp h.found).2
    have hkept : (ledger.world.store.chunks.filter fun chunk => chunk.documentId ≠ document.id) =
        ledger.world.store.chunks := by
      refine List.filter_eq_self.mpr fun chunk hchunk => decide_eq_true ?_
      rw [hid]
      exact hafresh hadapter document h chunk hchunk
    dsimp only
    rw [hkept]
  | postgres =>
    rw [hadapter] at hstored
    dsimp only at hstored ⊢
    split
    · rename_i hforeign
      rw [if_pos hforeign] at hstored
      cases hstored
    · rename_i hforeign
      rw [if_neg hforeign] at hstored
      split
      · rename_i hlength
        rw [if_pos hlength] at hstored
        cases hstored
      · rfl

-- The document's chunks are replaced, in both adapters.
theorem Filed.file (h : Filed ledger) (hdocument : document ∈ ledger.world.store.documents)
    (batch : List NewChunk) {later : Ledger}
    (hdocuments : later.world.store.documents = ledger.world.store.documents.modify document.id markReady)
    (hchunks : later.world.store.chunks =
      (ledger.world.store.chunks.filter fun chunk => chunk.documentId ≠ document.id) ++
        batch.map (storedChunk document))
    (hbatches : later.batches = Function.update ledger.batches document.id batch)
    (hdeleted : later.deleted = ledger.deleted) : Filed later := by
  -- A row is as before, except for its status.
  have hrow : ∀ row ∈ later.world.store.documents, ∃ old ∈ ledger.world.store.documents,
      row.id = old.id ∧ storedChunk row = storedChunk old := by
    intro row hrow
    rw [hdocuments] at hrow
    obtain ⟨old, hold, rfl⟩ := (Table.mem_modify _ _ _ _ _).mp hrow
    refine ⟨old, hold, ?_⟩
    split <;> exact ⟨rfl, rfl⟩
  have hkept : ∀ old ∈ ledger.world.store.documents, ∃ row ∈ later.world.store.documents, row.id = old.id := by
    intro old hold
    rw [hdocuments]
    refine ⟨_, (Table.mem_modify _ _ _ _ _).mpr ⟨old, hold, rfl⟩, ?_⟩
    split <;> rfl
  refine ⟨fun chunk hchunk => ?_, fun row hmem => ?_, fun id hid row hmem => ?_⟩
  · rw [hchunks] at hchunk
    obtain hold | hnew := List.mem_append.mp hchunk
    · obtain ⟨old, hin, hsame⟩ := h.exists_document chunk (List.mem_filter.mp hold).1
      obtain ⟨row, hrow, hid⟩ := hkept old hin
      exact ⟨row, hrow, hid.trans hsame⟩
    · obtain ⟨new, _, rfl⟩ := List.mem_map.mp hnew
      exact hkept document hdocument
  · obtain ⟨old, hold, hid, hsame⟩ := hrow row hmem
    rw [hchunks, hbatches, hid, hsame, List.filter_append, List.filter_filter]
    by_cases heq : old.id = document.id
    · obtain rfl := Table.eq_of_key _ hold hdocument heq
      rw [Function.update_self]
      have hnone : (ledger.world.store.chunks.filter fun chunk =>
          decide (chunk.documentId = old.id) && decide (chunk.documentId ≠ old.id)) = [] :=
        List.filter_eq_nil_iff.mpr fun chunk _ => by simp
      rw [hnone, List.nil_append]
      refine List.filter_eq_self.mpr fun chunk hchunk => ?_
      obtain ⟨new, _, rfl⟩ := List.mem_map.mp hchunk
      exact decide_eq_true rfl
    · rw [Function.update_of_ne heq, ← h.batches old hold]
      have hnone : ((batch.map (storedChunk document)).filter fun chunk => chunk.documentId = old.id) = [] := by
        refine List.filter_eq_nil_iff.mpr fun chunk hchunk => ?_
        obtain ⟨new, _, rfl⟩ := List.mem_map.mp hchunk
        exact fun hin => heq (of_decide_eq_true hin).symm
      rw [hnone, List.append_nil]
      refine List.filter_congr fun chunk _ => ?_
      by_cases hchunk : chunk.documentId = old.id
      · simp [hchunk, heq]
      · simp [hchunk]
  · obtain ⟨old, hold, hsame, _⟩ := hrow row hmem
    rw [hdeleted] at hid
    rw [hsame]
    exact h.deleted id hid old hold

theorem Filed.serve_store (h : Filed ledger) (hafresh : StoresAfresh env ledger (.storeChunks documentId batch)) :
    Filed (ledger.serve env (.storeChunks documentId batch)) := by
  by_cases haccepted : ∃ document, Accepted env ledger.world documentId batch document
  · obtain ⟨document, haccepted⟩ := haccepted
    obtain ⟨hmem, hid⟩ := (Table.get_eq_some _ _ _).mp haccepted.found
    obtain rfl : document.id = documentId := hid
    rw [serve_accepted haccepted, accepted_store haccepted hafresh]
    exact h.file hmem batch rfl rfl rfl rfl
  · obtain ⟨hstore, hbatches, hdeleted⟩ := serve_refused (not_exists.mp haccepted)
    exact ⟨by rw [hstore]; exact h.exists_document, by rw [hstore, hbatches]; exact h.batches,
      by rw [hstore, hdeleted]; exact h.deleted⟩

theorem Filed.serve_delete (h : Filed ledger) : Filed (ledger.serve env (.delete userId id)) := by
  obtain ⟨hstore, hbatches, hdeleted⟩ | ⟨hstore, hbatches, hdeleted⟩ :=
    @Knowledge.serve_delete env ledger userId id
  · exact ⟨by rw [hstore]; exact h.exists_document, by rw [hstore, hbatches]; exact h.batches,
      by rw [hstore, hdeleted]; exact h.deleted⟩
  · refine ⟨?_, ?_, ?_⟩
    · rw [hstore]
      intro chunk hchunk
      obtain ⟨hold, hne⟩ := List.mem_filter.mp hchunk
      obtain ⟨document, hdocument, hsame⟩ := h.exists_document chunk hold
      refine ⟨document, (Table.mem_remove _ _ _).mpr ⟨hdocument, fun heq => ?_⟩, hsame⟩
      exact of_decide_eq_true hne (hsame.symm.trans heq)
    · rw [hstore, hbatches]
      intro document hdocument
      obtain ⟨hold, hne⟩ := (Table.mem_remove _ _ _).mp hdocument
      rw [← h.batches document hold]
      dsimp only
      rw [List.filter_filter]
      refine List.filter_congr fun chunk _ => ?_
      by_cases hid : chunk.documentId = document.id
      · simp [hid, hne]
      · simp [hid]
    · rw [hstore, hdeleted]
      intro gone hgone document hdocument
      obtain ⟨hold, hne⟩ := (Table.mem_remove _ _ _).mp hdocument
      obtain rfl | hbefore := List.mem_cons.mp hgone
      · exact hne
      · exact h.deleted gone hbefore document hold

-- The map keeps an earlier batch: there are more chunks than the last batch has.
theorem Filed.breaks (h : Filed ledger) {call : ChunkCall} (hafresh : ¬ StoresAfresh env ledger call) :
    ¬ (ledger.serve env call).Replaced env := by
  cases call with
  | delete userId id => exact absurd trivial hafresh
  | storeChunks documentId batch =>
    simp only [StoresAfresh] at hafresh
    push Not at hafresh
    obtain ⟨hadapter, document, haccepted, chunk, hchunk, hid⟩ := hafresh
    obtain ⟨hmem, hdid⟩ := (Table.get_eq_some _ _ _).mp haccepted.found
    obtain rfl : document.id = documentId := hdid
    rw [serve_accepted haccepted]
    intro ⟨hreplaced, _⟩
    dsimp only at hreplaced
    rw [hadapter] at hreplaced
    have hready : markReady document ∈
        (ledger.world.store.storeChunks .inMemory document batch).2.documents :=
      (Table.mem_modify _ _ markReady (fun _ => rfl) _).mpr ⟨document, hmem, (if_pos rfl).symm⟩
    have hperm := hreplaced (markReady document) hready [] _ (le_refl _)
    have hlength := hperm.length_eq
    rw [((nearest_perm (le_refl _)).filter _).length_eq] at hlength
    change ((((ledger.world.store.chunks ++ batch.map (storedChunk document)).filter fun chunk =>
        chunk.userId = document.userId).filter fun chunk => chunk.documentId = document.id).length) =
      ((Function.update ledger.batches document.id batch document.id).map (storedChunk document)).length
      at hlength
    rw [Function.update_self, List.filter_append, List.filter_append, List.length_append] at hlength
    have hold : chunk ∈ (ledger.world.store.chunks.filter fun chunk =>
        chunk.userId = document.userId).filter fun chunk => chunk.documentId = document.id := by
      have hin : chunk ∈ (ledger.batches document.id).map (storedChunk document) := by
        rw [← h.batches document hmem]
        exact List.mem_filter.mpr ⟨hchunk, decide_eq_true hid⟩
      obtain ⟨new, _, rfl⟩ := List.mem_map.mp hin
      exact List.mem_filter.mpr ⟨List.mem_filter.mpr ⟨hchunk, decide_eq_true rfl⟩, decide_eq_true rfl⟩
    have hnew : ∀ chunk ∈ batch.map (storedChunk document),
        chunk.userId = document.userId ∧ chunk.documentId = document.id := by
      intro chunk hchunk
      obtain ⟨new, _, rfl⟩ := List.mem_map.mp hchunk
      exact ⟨rfl, rfl⟩
    rw [List.filter_eq_self.mpr fun chunk hchunk => decide_eq_true (hnew chunk hchunk).1,
      List.filter_eq_self.mpr fun chunk hchunk => decide_eq_true (hnew chunk hchunk).2] at hlength
    have hpos := List.length_pos_of_mem hold
    omega

variable (env) in
-- From a database without chunks, after each of the calls every document has its last
-- batch and no deleted document has any, exactly if no batch is stored on top of an
-- earlier one in memory.
theorem storeChunks_replaces {world : KnowledgeWorld} (hempty : world.store.chunks = [])
    (calls : List ChunkCall) :
    Always (Ledger.serve env) (Ledger.Replaced env) ⟨world, fun _ => [], []⟩ calls ↔
      Permits (Ledger.serve env) (StoresAfresh env) ⟨world, fun _ => [], []⟩ calls := by
  have hfiled : Filed ⟨world, fun _ => [], []⟩ := by
    refine ⟨?_, ?_, fun id hid => absurd hid List.not_mem_nil⟩
    · dsimp only
      rw [hempty]
      exact fun chunk hchunk => absurd hchunk List.not_mem_nil
    · dsimp only
      rw [hempty]
      exact fun document _ => rfl
  refine always_iff_permits (fun ledger (h : Filed ledger) => h.replaced) ?_ ?_ hfiled (always_true _ _)
  · intro ledger call h _ hafresh
    cases call with
    | storeChunks documentId batch => exact h.serve_store hafresh
    | delete userId id => exact h.serve_delete
  · exact fun ledger call h _ hafresh => h.breaks hafresh

end

-- A batch and its deletion in memory, and in the database a batch that replaces another.
theorem storeChunks_replaces_once :
    Always (Ledger.serve (Sample.env .inMemory)) (Ledger.Replaced (Sample.env .inMemory))
      ⟨Sample.world, fun _ => [], []⟩
      [.storeChunks Sample.document.id [Sample.chunk],
        .delete Sample.document.userId Sample.document.id] ∧
    Always (Ledger.serve (Sample.env .postgres)) (Ledger.Replaced (Sample.env .postgres))
      ⟨Sample.world, fun _ => [], []⟩
      [.storeChunks Sample.document.id [Sample.chunk],
        .storeChunks Sample.document.id
          [{ Sample.chunk with content := "the sea is blue" }, { Sample.chunk with seq := 1 }],
        .delete Sample.document.userId Sample.document.id] := by
  refine ⟨(storeChunks_replaces (Sample.env .inMemory) rfl _).mpr ⟨?_, trivial, trivial⟩,
    (storeChunks_replaces (Sample.env .postgres) rfl _).mpr ⟨?_, ?_, trivial, trivial⟩⟩
  · exact fun _ document _ chunk hchunk => absurd hchunk List.not_mem_nil
  · exact fun hadapter => by cases hadapter
  · exact fun hadapter => by cases hadapter

-- The worker's callback is delivered twice: both copies of the chunk are retrieved.
theorem storeChunks_duplicates :
    let ledger := [ChunkCall.storeChunks Sample.document.id [Sample.chunk],
      .storeChunks Sample.document.id [Sample.chunk]].foldl (Ledger.serve (Sample.env .inMemory))
        ⟨Sample.world, fun _ => [], []⟩
    ledger.world.store.retrieve .inMemory (Sample.env .inMemory).similarity Sample.document.userId [] 5 =
        [⟨"the sky is blue", "notes.md"⟩, ⟨"the sky is blue", "notes.md"⟩] ∧
      ¬ ledger.Replaced (Sample.env .inMemory) := by
  intro ledger
  refine ⟨by decide +kernel, fun hreplaced => ?_⟩
  have hready : markReady Sample.document ∈ ledger.world.store.documents.rows := by decide +kernel
  have hperm := hreplaced.1 (markReady Sample.document) hready [] 5 (by decide +kernel)
  exact absurd hperm.length_eq (by decide +kernel)

end AgentBoilerplate.Knowledge
