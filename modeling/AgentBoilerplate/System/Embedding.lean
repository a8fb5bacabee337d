import AgentBoilerplate.Agent.Chunks
import AgentBoilerplate.Effects.Protocol
import AgentBoilerplate.Job.Lemmas
import AgentBoilerplate.Knowledge.Retrieval

-- The way of an uploaded document: the backend stores and dispatches it, a worker cuts
-- it and embeds the pieces, and the backend stores what the worker posts.
namespace AgentBoilerplate.System

open Effects Collections Knowledge

attribute [local irreducible] trim

-- What the worker posts to the backend.
inductive Callback where
  | chunks (documentId : Uuid) (batch : List NewChunk)
  | failure (documentId : Uuid) (error : String)
deriving DecidableEq

abbrev EmbedTask := Uuid × String × String

-- What a worker asks of its queue, of the model and of the network, and what a request
-- of the network brings to the backend.
inductive EmbeddingCall where
  | take
  | embed (texts : List String)
  | post (request : Callback)
  | receive
deriving DecidableEq

@[reducible] def EmbeddingCall.Answer : EmbeddingCall → Type
  | .take => Option EmbedTask
  | .embed _ => Except String (List Embedding)
  | .post _ => Except String Unit
  | .receive => Option Callback

@[reducible] def EmbeddingPorts : Interface :=
  KnowledgePorts.sum ⟨EmbeddingCall, EmbeddingCall.Answer⟩

@[simp] def askWorker (request : EmbeddingCall) : Program EmbeddingPorts request.Answer :=
  .call (.inr request) .done

-- `enumerate(zip(chunks, embeddings, strict=True))`, each pair as a chunk.
def zipStrict (chunks : List String) (embeddings : List Embedding) :
    Except String (List NewChunk) :=
  if embeddings.length < chunks.length then
    .error "zip() argument 2 is shorter than argument 1"
  else if chunks.length < embeddings.length then
    .error "zip() argument 2 is longer than argument 1"
  else
    .ok ((chunks.zip embeddings).mapIdx fun i pair =>
      { seq := i, content := pair.1, embedding := pair.2 })

-- The `try` of `embed_document_task`.
def embedDocument (documentId : Uuid) (content : String) : Fallible EmbeddingPorts String Nat := do
  let chunks := Agent.chunkText content
  if chunks.isEmpty then
    raising (askWorker (.post (.failure documentId "document has no embeddable text")))
    return 0
  else
    let embeddings ← raising (askWorker (.embed chunks))
    let payload ← orRaise (zipStrict chunks embeddings)
    raising (askWorker (.post (.chunks documentId payload)))
    return payload.length

-- A delivery of the queue. That the failure cannot be reported is ignored.
def embedDocumentTask : Program EmbeddingPorts Nat := do
  match ← askWorker .take with
  | none => return 0
  | some (documentId, _, content) =>
      match ← (embedDocument documentId content).run with
      | .ok stored => return stored
      | .error e =>
          let _ ← askWorker (.post (.failure documentId s!"embedding failed: {e}"))
          return 0

-- The requests of users and the deletion of an account, the deliveries of the queue, and
-- the requests that reach the backend from its workers.
inductive EmbeddingOp where
  | upload (userId : Uuid) (name content : String)
  | list (userId : Uuid)
  | delete (userId id : Uuid)
  | retrieve (userId : Uuid) (embedding : Embedding) (k : Int)
  | deleteAllForUser (userId : Uuid)
  | task
  | callback

inductive EmbeddingOutcome where
  | knowledge (outcome : KnowledgeOutcome)
  | retrieve (result : Except PortError (List RetrievedChunk))
  | deleteAllForUser (result : Except PortError Nat)
  | task (stored : Nat)
  | idle

def serveCallback : Program EmbeddingPorts EmbeddingOutcome := do
  match ← askWorker .receive with
  | none => return .idle
  | some (.chunks documentId batch) =>
      return .knowledge (← (KnowledgeOp.storeChunks documentId batch).program.inl)
  | some (.failure documentId error) =>
      return .knowledge (← (KnowledgeOp.markFailed documentId error).program.inl)

def EmbeddingOp.program : EmbeddingOp → Program EmbeddingPorts EmbeddingOutcome
  | .upload userId name content => do
      return .knowledge (← (KnowledgeOp.upload userId name content).program.inl)
  | .list userId => do return .knowledge (← (KnowledgeOp.list userId).program.inl)
  | .delete userId id => do return .knowledge (← (KnowledgeOp.delete userId id).program.inl)
  | .retrieve userId embedding k => do
      return .retrieve (← (Knowledge.ask (.retrieve userId embedding k)).inl)
  | .deleteAllForUser userId => do
      return .deleteAllForUser (← (Knowledge.ask (.deleteAllForUser userId)).inl)
  | .task => do return .task (← embedDocumentTask)
  | .callback => serveCallback

-- What the surroundings decide: what they decide of the ports, whether a dispatch that
-- fails has been queued all the same, what a worker and the backend are delivered of what
-- was sent (any of it, any number of times), what the model answers, and whether a
-- request gets into the network and what comes back. No identifier is drawn twice.
structure EmbeddingEnv where
  knowledge : KnowledgeEnv
  distinct : Function.Injective knowledge.uuid
  queued : Nat → Bool
  delivery : Nat → Nat
  embedder : Nat → List String → Except String (List Embedding)
  sent : Nat → Bool
  reply : Nat → Except String Unit

structure EmbeddingWorld where
  knowledge : KnowledgeWorld
  posted : List Callback
  asked : Nat

namespace EmbeddingEnv

variable (env : EmbeddingEnv)

def worker : Handler ⟨EmbeddingCall, EmbeddingCall.Answer⟩ EmbeddingWorld
  | .take, world => (world.knowledge.embedded[env.delivery world.asked]?, world)
  | .embed texts, world => (env.embedder world.asked texts, world)
  | .post request, world => (env.reply world.asked,
      { world with
        posted := if env.sent world.asked then world.posted ++ [request] else world.posted })
  | .receive, world => (world.posted[env.delivery world.asked]?, world)

def backend : Handler KnowledgePorts KnowledgeWorld
  | .dispatchEmbed documentId name content, world =>
      match env.knowledge.fault world.calls with
      | some e => (.error e,
          { world with
            calls := world.calls + 1
            embedded := if env.queued world.calls
              then world.embedded ++ [(documentId, name, content)] else world.embedded })
      | none => env.knowledge.handle (.dispatchEmbed documentId name content) world
  | request, world => env.knowledge.handle request world

def handle : Handler EmbeddingPorts EmbeddingWorld
  | .inl request, world =>
      ((env.backend request world.knowledge).1,
        { world with knowledge := (env.backend request world.knowledge).2 })
  | .inr request, world =>
      let answered := env.worker request world
      (answered.1, { answered.2 with asked := answered.2.asked + 1 })

end EmbeddingEnv

-- A knowledge base before its first upload.
def EmbeddingWorld.empty : EmbeddingWorld where
  knowledge := {
    store := ⟨Table.empty, []⟩
    embedded := []
    calls := 0
    readings := 0
    uuids := 0 }
  posted := []
  asked := 0

abbrev EmbeddingRuns (ι : Type) := Config EmbeddingPorts EmbeddingWorld ι EmbeddingOutcome

def embeddingRuns {ι : Type} (ops : ι → EmbeddingOp) : EmbeddingRuns ι :=
  .start .empty fun i => (ops i).program

-- What a thread has been told so far: the identifier it has drawn, the task and the
-- request it was delivered, and the document it has found under an identifier.
structure Embedder where
  op : EmbeddingOp
  issued : Option Uuid
  task : Option EmbedTask
  received : Option Callback
  found : Option (Uuid × Document)

def Embedder.of (op : EmbeddingOp) : Embedder := ⟨op, none, none, none, none⟩

def Embedder.next (phase : Embedder) : Event EmbeddingPorts → Embedder
  | ⟨.inl .newUuid, id⟩ => { phase with issued := some id }
  | ⟨.inl (.find id), .ok found⟩ => { phase with found := found.map fun document => (id, document) }
  | ⟨.inr .take, task⟩ => { phase with task := task }
  | ⟨.inr .receive, request⟩ => { phase with received := request }
  | _ => phase

-- A user's upload is stored and dispatched under the identifier it has drawn; a worker
-- posts the pieces of the task it was delivered, all of them and in order; and the backend
-- stores what it was posted for the document it has found.
def Embedder.Permits (phase : Embedder) : EmbeddingPorts.Call → Prop
  | .inl .newUuid => phase.issued = none
  | .inl (.insert document) => phase.issued = some document.id ∧
      ∃ name content, phase.op = .upload document.userId name content ∧ document.name = trim name
  | .inl (.dispatchEmbed documentId _ content) => phase.issued = some documentId ∧
      ∃ userId name, phase.op = .upload userId name content
  | .inl (.storeChunks document batch) =>
      ∃ id, phase.found = some (id, document) ∧ phase.received = some (.chunks id batch)
  | .inr (.post (.chunks documentId batch)) => ∃ name content,
      phase.task = some (documentId, name, content) ∧
        batch.map NewChunk.content = Agent.chunkText content
  | _ => True

def provenance : Protocol EmbeddingPorts Embedder := ⟨Embedder.Permits, Embedder.next⟩

theorem zipStrict_content {chunks : List String} {embeddings : List Knowledge.Embedding}
    {payload : List NewChunk} (h : zipStrict chunks embeddings = .ok payload) :
    payload.map NewChunk.content = chunks := by
  unfold zipStrict at h
  split at h
  · cases h
  · split at h
    · cases h
    · rename_i hshort hlong
      obtain rfl := Except.ok.inj h
      have hlength : chunks.length ≤ embeddings.length := Nat.le_of_not_lt hshort
      refine List.ext_getElem ?_ fun i hi hi' => ?_
      · simp only [List.length_map, List.length_mapIdx, List.length_zip]
        omega
      · simp

section Obeys

variable {phase : Embedder}

theorem embedDocument_obeys {documentId : Uuid} {name content : String}
    (htask : phase.task = some (documentId, name, content)) :
    (embedDocument documentId content).run.Obeys provenance (fun _ _ => True) phase := by
  unfold embedDocument
  dsimp only
  split
  · simp only [Fallible.run_raising_bind, askWorker, Program.call_bind, Program.done_bind]
    refine ⟨trivial, ?_⟩
    rintro (e | _) <;> trivial
  · simp only [Fallible.run_raising_bind, Fallible.run_orRaise_bind, askWorker,
      Program.call_bind, Program.done_bind]
    refine ⟨trivial, ?_⟩
    rintro (e | embeddings)
    · trivial
    · dsimp only
      cases hzip : zipStrict (Agent.chunkText content) embeddings with
      | error e => trivial
      | ok payload =>
          refine ⟨⟨name, content, htask, zipStrict_content hzip⟩, ?_⟩
          rintro (e | _) <;> trivial

theorem embedDocumentTask_obeys :
    embedDocumentTask.Obeys provenance (fun _ _ => True) phase := by
  refine ⟨trivial, ?_⟩
  rintro (_ | ⟨documentId, name, content⟩)
  · trivial
  · have htask : ({ phase with task := some (documentId, name, content) } : Embedder).task =
        some (documentId, name, content) := rfl
    refine (embedDocument_obeys htask).bind fun later result _ => ?_
    cases result with
    | ok stored => trivial
    | error e => exact ⟨trivial, fun _ => trivial⟩

theorem storeChunks_obeys {documentId : Uuid} {batch : List NewChunk}
    (hreceived : phase.received = some (.chunks documentId batch)) :
    (KnowledgeOp.storeChunks documentId batch).program.inl.Obeys provenance (fun _ _ => True)
      phase := by
  refine Program.inl_obeys ⟨trivial, ?_⟩
  rintro (e | (_ | document))
  · trivial
  · trivial
  · refine ⟨⟨documentId, rfl, hreceived⟩, ?_⟩
    rintro (e | _) <;> trivial

theorem markFailed_obeys (documentId : Uuid) (error : String) :
    (KnowledgeOp.markFailed documentId error).program.inl.Obeys provenance (fun _ _ => True)
      phase := by
  refine Program.inl_obeys ⟨trivial, ?_⟩
  rintro (e | _) <;> trivial

theorem serveCallback_obeys : serveCallback.Obeys provenance (fun _ _ => True) phase := by
  refine ⟨trivial, ?_⟩
  rintro (_ | (⟨documentId, batch⟩ | ⟨documentId, error⟩))
  · trivial
  · exact (storeChunks_obeys rfl).bind fun _ _ _ => trivial
  · exact (markFailed_obeys documentId error).bind fun _ _ _ => trivial

theorem upload_obeys (userId : Uuid) (name content : String) :
    (Knowledge.upload userId name content).run.Obeys provenance.left (fun _ _ => True)
      (.of (.upload userId name content)) := by
  unfold Knowledge.upload
  rw [Fallible.run_orFail_bind]
  cases validateContent content with
  | error e => trivial
  | ok _ =>
      simp only [Program.pure_eq, Program.done_bind]
      rw [Fallible.run_orFail_bind]
      unfold Document.new
      dsimp only
      split
      · trivial
      · split
        · trivial
        · refine ⟨rfl, fun id => ⟨trivial, fun now => ?_⟩⟩
          refine ⟨⟨rfl, name, content, rfl, rfl⟩, ?_⟩
          rintro (e | _)
          · trivial
          · refine ⟨⟨rfl, userId, name, rfl⟩, ?_⟩
            rintro (e | _)
            · exact ⟨trivial, fun _ => trivial⟩
            · trivial

theorem op_obeys (op : EmbeddingOp) :
    op.program.Obeys provenance (fun _ _ => True) (.of op) := by
  cases op with
  | upload userId name content =>
      have hupload : (KnowledgeOp.upload userId name content).program.Obeys provenance.left
          (fun _ _ => True) (.of (.upload userId name content)) :=
        (upload_obeys userId name content).bind fun _ _ _ => trivial
      exact (Program.inl_obeys hupload).bind fun _ _ _ => trivial
  | list userId => exact ⟨trivial, by rintro (e | _) <;> trivial⟩
  | delete userId id => exact ⟨trivial, by rintro (e | _) <;> trivial⟩
  | retrieve userId embedding k => exact ⟨trivial, fun _ => trivial⟩
  | deleteAllForUser userId => exact ⟨trivial, fun _ => trivial⟩
  | task => exact embedDocumentTask_obeys.bind fun _ _ _ => trivial
  | callback => exact serveCallback_obeys

end Obeys

section Sources

variable {ι : Type} {ops : ι → EmbeddingOp} {issued later : ι → Option Uuid} {env : EmbeddingEnv}
  {world : EmbeddingWorld} {phase : Embedder}

-- The upload that has drawn an identifier, and what it uploads.
def Issued (ops : ι → EmbeddingOp) (issued : ι → Option Uuid) (id userId : Uuid)
    (name content : String) : Prop :=
  ∃ i, ops i = .upload userId name content ∧ issued i = some id

-- A text that was uploaded under an identifier, and a request with all of its pieces.
def Dispatched (ops : ι → EmbeddingOp) (issued : ι → Option Uuid) (id : Uuid) (content : String) :
    Prop :=
  ∃ userId name, Issued ops issued id userId name content

def Whole (ops : ι → EmbeddingOp) (issued : ι → Option Uuid) : Callback → Prop
  | .chunks id batch => ∃ content, Dispatched ops issued id content ∧
      batch.map NewChunk.content = Agent.chunkText content
  | .failure _ _ => True

-- A document of the upload that has drawn its identifier.
def Owned (ops : ι → EmbeddingOp) (issued : ι → Option Uuid) (document : Document) : Prop :=
  ∃ name content, Issued ops issued document.id document.userId name content ∧
    document.name = trim name

-- What a thread has been told comes from an upload.
structure Told (ops : ι → EmbeddingOp) (issued : ι → Option Uuid) (phase : Embedder) : Prop where
  task : ∀ task, phase.task = some task → Dispatched ops issued task.1 task.2.2
  received : ∀ request, phase.received = some request → Whole ops issued request
  found : ∀ id document, phase.found = some (id, document) →
    document.id = id ∧ Owned ops issued document

-- The stored pieces of a document, in their order.
def piecesOf (store : DocumentStore) (id : Uuid) : List String :=
  (store.chunks.filter fun chunk => chunk.documentId = id).map StoredChunk.content

-- A document's pieces are those of its text, as often as they were posted, or once.
def Repeats (adapter : Adapter) (pieces chunks : List String) : Prop :=
  ∃ n, (adapter = .postgres → n ≤ 1) ∧ pieces = (List.replicate n chunks).flatten

-- The identifiers are apart, and all that is stored, queued and posted comes from uploads.
structure Sourced (env : EmbeddingEnv) (ops : ι → EmbeddingOp) (issued : ι → Option Uuid)
    (world : EmbeddingWorld) : Prop where
  drawn : ∀ i id, issued i = some id →
    ∃ k < world.knowledge.uuids, id = env.knowledge.uuid k
  apart : ∀ i j id, issued i = some id → issued j = some id → i = j
  documents : ∀ document ∈ world.knowledge.store.documents, Owned ops issued document
  queued : ∀ task ∈ world.knowledge.embedded, Dispatched ops issued task.1 task.2.2
  posted : ∀ request ∈ world.posted, Whole ops issued request
  chunks : ∀ chunk ∈ world.knowledge.store.chunks, ∃ name content,
    Issued ops issued chunk.documentId chunk.userId name content ∧ chunk.documentName = trim name
  pieces : ∀ id userId name content, Issued ops issued id userId name content →
    Repeats env.knowledge.adapter (piecesOf world.knowledge.store id) (Agent.chunkText content)

theorem Issued.mono {id userId : Uuid} {name content : String}
    (h : Issued ops issued id userId name content)
    (hgrow : ∀ i id, issued i = some id → later i = some id) :
    Issued ops later id userId name content := by
  obtain ⟨i, hop, hissued⟩ := h
  exact ⟨i, hop, hgrow i id hissued⟩

theorem Dispatched.mono {id : Uuid} {content : String} (h : Dispatched ops issued id content)
    (hgrow : ∀ i id, issued i = some id → later i = some id) :
    Dispatched ops later id content := by
  obtain ⟨userId, name, hissued⟩ := h
  exact ⟨userId, name, hissued.mono hgrow⟩

theorem Whole.mono {request : Callback} (h : Whole ops issued request)
    (hgrow : ∀ i id, issued i = some id → later i = some id) : Whole ops later request := by
  cases request with
  | chunks id batch =>
      obtain ⟨content, hdispatched, hbatch⟩ := h
      exact ⟨content, hdispatched.mono hgrow, hbatch⟩
  | failure id error => trivial

theorem Owned.mono {document : Document} (h : Owned ops issued document)
    (hgrow : ∀ i id, issued i = some id → later i = some id) : Owned ops later document := by
  obtain ⟨name, content, hissued, hname⟩ := h
  exact ⟨name, content, hissued.mono hgrow, hname⟩

theorem Told.mono (h : Told ops issued phase)
    (hgrow : ∀ i id, issued i = some id → later i = some id) : Told ops later phase := by
  refine ⟨fun task htask => (h.task task htask).mono hgrow,
    fun request hrequest => (h.received request hrequest).mono hgrow,
    fun id document hfound => ?_⟩
  obtain ⟨hid, howned⟩ := h.found id document hfound
  exact ⟨hid, howned.mono hgrow⟩

theorem Told.start (op : EmbeddingOp) : Told ops issued (.of op) := by
  refine ⟨fun task h => ?_, fun request h => ?_, fun id document h => ?_⟩ <;> cases h

theorem Sourced.unique (h : Sourced env ops issued world) {id userId userId' : Uuid}
    {name name' content content' : String} (hissued : Issued ops issued id userId name content)
    (hissued' : Issued ops issued id userId' name' content') :
    userId = userId' ∧ name = name' ∧ content = content' := by
  obtain ⟨i, hop, hi⟩ := hissued
  obtain ⟨j, hop', hj⟩ := hissued'
  obtain rfl := h.apart i j id hi hj
  have hsame := hop.symm.trans hop'
  simpa using hsame

theorem Repeats.nothing (adapter : Adapter) (chunks : List String) : Repeats adapter [] chunks :=
  ⟨0, fun _ => Nat.zero_le 1, rfl⟩

theorem Sourced.start (env : EmbeddingEnv) (ops : ι → EmbeddingOp) :
    Sourced env ops (fun _ => none) .empty := by
  refine ⟨by simp, by simp, fun document h => absurd h (Table.notMem_empty _),
    fun task h => absurd h List.not_mem_nil, fun request h => absurd h List.not_mem_nil,
    fun chunk h => absurd h List.not_mem_nil, fun id userId name content h => ?_⟩
  exact .nothing _ _

-- A step that draws nothing and stores no pieces: documents keep their names and owners,
-- and pieces go by document and owner.
theorem Sourced.thin (h : Sourced env ops issued world) {next : EmbeddingWorld}
    (huuids : next.knowledge.uuids = world.knowledge.uuids)
    (hdocuments : ∀ document ∈ next.knowledge.store.documents, Owned ops issued document)
    (hqueued : ∀ task ∈ next.knowledge.embedded, Dispatched ops issued task.1 task.2.2)
    (hposted : ∀ request ∈ next.posted, Whole ops issued request) (keep : Uuid → Uuid → Bool)
    (hchunks : next.knowledge.store.chunks = world.knowledge.store.chunks.filter
      fun chunk => keep chunk.documentId chunk.userId) :
    Sourced env ops issued next := by
  refine ⟨fun i id hid => huuids ▸ h.drawn i id hid, h.apart, hdocuments, hqueued, hposted,
    fun chunk hmem => ?_, fun id userId name content hissued => ?_⟩
  · rw [hchunks] at hmem
    exact h.chunks chunk (List.mem_of_mem_filter hmem)
  · have hof : ∀ chunk ∈ world.knowledge.store.chunks, chunk.documentId = id →
        chunk.userId = userId := by
      rintro chunk hmem rfl
      obtain ⟨name', content', hissued', -⟩ := h.chunks chunk hmem
      exact (h.unique hissued' hissued).1
    unfold piecesOf
    rw [hchunks, List.filter_filter]
    by_cases hkeep : keep id userId = true
    · have hsame : (world.knowledge.store.chunks.filter fun chunk =>
          decide (chunk.documentId = id) && keep chunk.documentId chunk.userId) =
          world.knowledge.store.chunks.filter fun chunk => chunk.documentId = id := by
        refine List.filter_congr fun chunk hmem => ?_
        by_cases hid : chunk.documentId = id
        · rw [hof chunk hmem hid, hid, hkeep, Bool.and_true]
        · simp [hid]
      rw [hsame]
      exact h.pieces id userId name content hissued
    · have hnone : (world.knowledge.store.chunks.filter fun chunk =>
          decide (chunk.documentId = id) && keep chunk.documentId chunk.userId) = [] := by
        refine List.filter_eq_nil_iff.mpr fun chunk hmem => ?_
        by_cases hid : chunk.documentId = id
        · rw [hof chunk hmem hid, hid]
          simpa using hkeep
        · simp [hid]
      rw [hnone]
      exact .nothing _ _

theorem Sourced.keep (h : Sourced env ops issued world) {next : EmbeddingWorld}
    (huuids : next.knowledge.uuids = world.knowledge.uuids)
    (hchunks : next.knowledge.store.chunks = world.knowledge.store.chunks)
    (hdocuments : ∀ document ∈ next.knowledge.store.documents, Owned ops issued document)
    (hqueued : ∀ task ∈ next.knowledge.embedded, Dispatched ops issued task.1 task.2.2)
    (hposted : ∀ request ∈ next.posted, Whole ops issued request) :
    Sourced env ops issued next :=
  h.thin huuids hdocuments hqueued hposted (fun _ _ => true)
    (hchunks.trans (List.filter_true _).symm)

theorem Issued.drawn (h : Sourced env ops issued world) {id userId : Uuid} {name content : String}
    (hissued : Issued ops issued id userId name content) :
    id ≠ env.knowledge.uuid world.knowledge.uuids := by
  obtain ⟨i, -, hi⟩ := hissued
  obtain ⟨k, hk, rfl⟩ := h.drawn i id hi
  exact fun heq => Nat.ne_of_lt hk (env.distinct heq)

-- An identifier that is drawn is nobody's yet, and has no pieces.
theorem Sourced.draw [DecidableEq ι] (h : Sourced env ops issued world) {i : ι}
    (hnone : issued i = none) :
    (∀ j id, issued j = some id →
      Function.update issued i (some (env.knowledge.uuid world.knowledge.uuids)) j = some id) ∧
    Sourced env ops
      (Function.update issued i (some (env.knowledge.uuid world.knowledge.uuids)))
      { world with knowledge := { world.knowledge with uuids := world.knowledge.uuids + 1 } } := by
  have hgrow : ∀ j id, issued j = some id →
      Function.update issued i (some (env.knowledge.uuid world.knowledge.uuids)) j = some id := by
    intro j id hj
    have hne : j ≠ i := by
      rintro rfl
      rw [hnone] at hj
      cases hj
    rw [Function.update_of_ne hne]
    exact hj
  -- an identifier drawn before is not this one
  have hbefore : ∀ j id, issued j = some id → id ≠ env.knowledge.uuid world.knowledge.uuids := by
    intro j id hj heq
    obtain ⟨k, hk, rfl⟩ := h.drawn j id hj
    exact Nat.ne_of_lt hk (env.distinct heq)
  refine ⟨hgrow, fun j id hj => ?_, fun j j' id hj hj' => ?_,
    fun document hmem => (h.documents document hmem).mono hgrow,
    fun task hmem => (h.queued task hmem).mono hgrow,
    fun request hmem => (h.posted request hmem).mono hgrow, fun chunk hmem => ?_,
    fun id userId name content hissued => ?_⟩
  · by_cases hji : j = i
    · subst hji
      rw [Function.update_self] at hj
      exact ⟨world.knowledge.uuids, Nat.lt_succ_self _, (Option.some.inj hj).symm⟩
    · rw [Function.update_of_ne hji] at hj
      obtain ⟨k, hk, hid⟩ := h.drawn j id hj
      exact ⟨k, Nat.lt_succ_of_lt hk, hid⟩
  · by_cases hji : j = i
    · by_cases hji' : j' = i
      · rw [hji, hji']
      · rw [Function.update_of_ne hji'] at hj'
        rw [hji, Function.update_self] at hj
        exact absurd (Option.some.inj hj).symm (hbefore j' id hj')
    · rw [Function.update_of_ne hji] at hj
      by_cases hji' : j' = i
      · rw [hji', Function.update_self] at hj'
        exact absurd (Option.some.inj hj').symm (hbefore j id hj)
      · rw [Function.update_of_ne hji'] at hj'
        exact h.apart j j' id hj hj'
  · obtain ⟨name, content, hissued, hname⟩ := h.chunks chunk hmem
    exact ⟨name, content, hissued.mono hgrow, hname⟩
  · obtain ⟨j, hop, hj⟩ := hissued
    by_cases hji : j = i
    · subst hji
      rw [Function.update_self] at hj
      obtain rfl := Option.some.inj hj
      have hempty : (world.knowledge.store.chunks.filter fun chunk =>
          chunk.documentId = env.knowledge.uuid world.knowledge.uuids) = [] := by
        refine List.filter_eq_nil_iff.mpr fun chunk hmem => ?_
        obtain ⟨name', content', hissued', -⟩ := h.chunks chunk hmem
        simpa using Issued.drawn h hissued'
      unfold piecesOf
      rw [hempty]
      exact .nothing _ _
    · rw [Function.update_of_ne hji] at hj
      exact h.pieces id userId name content ⟨j, hop, hj⟩

theorem owned_markReady {document : Document} (h : Owned ops issued document) :
    Owned ops issued (markReady document) := h

theorem owned_modify {documents : Table Document.id} {id : Uuid} {f : Document → Document}
    (hf : ∀ document, (f document).id = document.id)
    (howned : ∀ document, Owned ops issued document → Owned ops issued (f document))
    (h : ∀ document ∈ documents, Owned ops issued document) :
    ∀ document ∈ documents.modify id f hf, Owned ops issued document := by
  intro document hmem
  obtain ⟨old, hold, rfl⟩ := (Table.mem_modify _ _ _ hf _).mp hmem
  split
  · exact howned old (h old hold)
  · exact h old hold

-- The pieces that are stored for a document are all of its text's: after those before, or
-- in their place.
theorem Sourced.add (h : Sourced env ops issued world) {document : Document}
    (howned : Owned ops issued document) {batch : List NewChunk}
    (hwhole : Whole ops issued (.chunks document.id batch)) {documents : Table Document.id}
    (hdocuments : ∀ document ∈ documents, Owned ops issued document) {kept : List StoredChunk}
    (hkept : kept = world.knowledge.store.chunks ∧ env.knowledge.adapter ≠ .postgres ∨
      kept = world.knowledge.store.chunks.filter fun chunk => chunk.documentId ≠ document.id) :
    Sourced env ops issued
      { world with
        knowledge := { world.knowledge with
          store := ⟨documents, kept ++ batch.map (storedChunk document)⟩
          calls := world.knowledge.calls + 1 } } := by
  obtain ⟨text, ⟨userId', name', hdispatched⟩, hbatch⟩ := hwhole
  obtain ⟨ownName, ownText, hissued, hname⟩ := howned
  obtain ⟨rfl, rfl, rfl⟩ := h.unique hdispatched hissued
  have hadded : ∀ chunk ∈ batch.map (storedChunk document), ∃ name content,
      Issued ops issued chunk.documentId chunk.userId name content ∧
        chunk.documentName = trim name := by
    intro chunk hmem
    obtain ⟨new, -, rfl⟩ := List.mem_map.mp hmem
    exact ⟨name', text, hissued, hname⟩
  have hown : ((batch.map (storedChunk document)).filter fun chunk =>
      chunk.documentId = document.id) = batch.map (storedChunk document) := by
    refine List.filter_eq_self.mpr fun chunk hmem => ?_
    obtain ⟨new, -, rfl⟩ := List.mem_map.mp hmem
    exact decide_eq_true rfl
  have hother : ∀ id ≠ document.id, ((batch.map (storedChunk document)).filter fun chunk =>
      chunk.documentId = id) = [] := by
    intro id hne
    refine List.filter_eq_nil_iff.mpr fun chunk hmem => ?_
    obtain ⟨new, -, rfl⟩ := List.mem_map.mp hmem
    exact fun hid => hne (of_decide_eq_true hid).symm
  have hcontents : (batch.map (storedChunk document)).map StoredChunk.content =
      Agent.chunkText text := by
    rw [List.map_map, ← hbatch]
    rfl
  refine ⟨h.drawn, h.apart, hdocuments, h.queued, h.posted, fun chunk hmem => ?_,
    fun id userId name content hissued' => ?_⟩
  · rcases List.mem_append.mp hmem with hold | hnew
    · refine h.chunks chunk ?_
      rcases hkept with ⟨rfl, -⟩ | rfl
      · exact hold
      · exact List.mem_of_mem_filter hold
    · exact hadded chunk hnew
  · unfold piecesOf
    rw [List.filter_append, List.map_append]
    by_cases hid : id = document.id
    · subst hid
      obtain ⟨-, -, rfl⟩ := h.unique hissued' hissued
      rw [hown, hcontents]
      rcases hkept with ⟨rfl, hmemory⟩ | rfl
      · obtain ⟨n, -, hpieces⟩ := h.pieces _ _ _ _ hissued'
        unfold piecesOf at hpieces
        refine ⟨n + 1, fun hpostgres => absurd hpostgres hmemory, ?_⟩
        rw [hpieces, List.replicate_succ', List.flatten_append, List.flatten_singleton]
      · have hnone : ((world.knowledge.store.chunks.filter fun chunk =>
            chunk.documentId ≠ document.id).filter fun chunk =>
              chunk.documentId = document.id) = [] := by
          refine List.filter_eq_nil_iff.mpr fun chunk hmem => ?_
          exact fun hid => of_decide_eq_true (List.mem_filter.mp hmem).2 (of_decide_eq_true hid)
        rw [hnone]
        exact ⟨1, fun _ => Nat.le_refl 1, (List.append_nil _).symm⟩
    · rw [hother id hid, List.map_nil, List.append_nil]
      have hsame : (kept.filter fun chunk => chunk.documentId = id) =
          world.knowledge.store.chunks.filter fun chunk => chunk.documentId = id := by
        rcases hkept with ⟨rfl, -⟩ | rfl
        · rfl
        · rw [List.filter_filter]
          refine List.filter_congr fun chunk hmem => ?_
          by_cases hof : chunk.documentId = id
          · simp [hof, hid]
          · simp [hof]
      rw [hsame]
      exact h.pieces id userId name content hissued'

theorem Sourced.store (h : Sourced env ops issued world) {document : Document}
    (howned : Owned ops issued document) {batch : List NewChunk}
    (hwhole : Whole ops issued (.chunks document.id batch)) :
    Sourced env ops issued
      { world with
        knowledge := { world.knowledge with
          store := (world.knowledge.store.storeChunks env.knowledge.adapter document batch).2
          calls := world.knowledge.calls + 1 } } := by
  have hready : ∀ row ∈ world.knowledge.store.documents.modify document.id markReady,
      Owned ops issued row :=
    owned_modify (f := markReady) (fun _ => rfl) (fun _ => owned_markReady) h.documents
  have hrefused : Sourced env ops issued
      { world with
        knowledge := { world.knowledge with calls := world.knowledge.calls + 1 } } :=
    ⟨h.drawn, h.apart, h.documents, h.queued, h.posted, h.chunks, h.pieces⟩
  unfold DocumentStore.storeChunks
  cases hadapter : env.knowledge.adapter with
  | inMemory => exact h.add howned hwhole hready (Or.inl ⟨rfl, by simp [hadapter]⟩)
  | postgres =>
      dsimp only
      split
      · exact hrefused
      · split
        · exact hrefused
        · exact h.add howned hwhole hready (Or.inr rfl)

-- What a call of the use cases does to what is stored.
theorem Sourced.backend [DecidableEq ι] (h : Sourced env ops issued world) {i : ι}
    (hphase : Told ops issued phase) (hop : phase.op = ops i) (hissued : phase.issued = issued i)
    {request : KnowledgeCall} (hpermits : phase.Permits (.inl request)) :
    (∀ j id, issued j = some id → Function.update issued i
      (phase.next ⟨.inl request, (env.backend request world.knowledge).1⟩).issued j = some id) ∧
    Sourced env ops (Function.update issued i
      (phase.next ⟨.inl request, (env.backend request world.knowledge).1⟩).issued)
      { world with knowledge := (env.backend request world.knowledge).2 } := by
  -- all but a draw leave the identifiers as they are
  have hstays : ∀ next : EmbeddingWorld, Sourced env ops issued next →
      (∀ j id, issued j = some id → Function.update issued i phase.issued j = some id) ∧
        Sourced env ops (Function.update issued i phase.issued) next := by
    intro next hnext
    rw [hissued, Function.update_eq_self]
    exact ⟨fun _ _ hj => hj, hnext⟩
  have hsame : ∀ calls readings, Sourced env ops issued
      { world with
        knowledge := { world.knowledge with calls := calls, readings := readings } } :=
    fun _ _ => ⟨h.drawn, h.apart, h.documents, h.queued, h.posted, h.chunks, h.pieces⟩
  cases request with
  | newUuid =>
      have hnone : issued i = none := hissued ▸ hpermits
      exact h.draw hnone
  | utcNow => exact hstays _ (hsame _ _)
  | listForUser userId =>
      refine hstays _ ?_
      simp only [EmbeddingEnv.backend, KnowledgeEnv.handle, KnowledgeEnv.attempt]
      split <;> exact hsame _ _
  | retrieve userId embedding k =>
      refine hstays _ ?_
      simp only [EmbeddingEnv.backend, KnowledgeEnv.handle, KnowledgeEnv.attempt]
      split <;> exact hsame _ _
  | find id =>
      simp only [EmbeddingEnv.backend, KnowledgeEnv.handle, KnowledgeEnv.attempt]
      split
      · exact hstays _ (hsame _ _)
      · exact hstays _ (hsame _ _)
  | insert document =>
      refine hstays _ ?_
      obtain ⟨hid, name, content, hupload, hname⟩ := hpermits
      have howned : Owned ops issued document :=
        ⟨name, content, ⟨i, hop ▸ hupload, hissued ▸ hid⟩, hname⟩
      have hinserted : ∀ row ∈ world.knowledge.store.documents.insert document,
          Owned ops issued row := by
        intro row hmem
        rcases (Table.mem_insert _ _ _).mp hmem with rfl | ⟨hold, -⟩
        · exact howned
        · exact h.documents row hold
      simp only [EmbeddingEnv.backend, KnowledgeEnv.handle, KnowledgeEnv.attempt]
      split
      · exact hsame _ _
      · unfold DocumentStore.insert
        split
        · exact h.keep rfl rfl hinserted h.queued h.posted
        · split
          · exact hsame _ _
          · exact h.keep rfl rfl hinserted h.queued h.posted
  | delete userId id =>
      refine hstays _ ?_
      simp only [EmbeddingEnv.backend, KnowledgeEnv.handle, KnowledgeEnv.attempt]
      split
      · exact hsame _ _
      · unfold DocumentStore.delete
        split
        · exact h.thin rfl (fun row hmem => h.documents row ((Table.mem_remove _ _ _).mp hmem).1)
            h.queued h.posted (fun of _ => of ≠ id) rfl
        · exact hsame _ _
  | storeChunks document batch =>
      refine hstays _ ?_
      obtain ⟨id, hfound, hreceived⟩ := hpermits
      obtain ⟨rfl, howned⟩ := hphase.found id document hfound
      simp only [EmbeddingEnv.backend, KnowledgeEnv.handle, KnowledgeEnv.attempt]
      split
      · exact hsame _ _
      · exact h.store howned (hphase.received _ hreceived)
  | markFailed id error =>
      refine hstays _ ?_
      simp only [EmbeddingEnv.backend, KnowledgeEnv.handle, KnowledgeEnv.attempt]
      split
      · exact hsame _ _
      · have hfailed : ∀ row ∈ world.knowledge.store.documents.modify id
            fun document => { document with status := .failed, error := some error },
            Owned ops issued row :=
          owned_modify
            (f := fun document => { document with status := .failed, error := some error })
            (fun _ => rfl) (fun _ howned => howned) h.documents
        exact h.keep rfl rfl hfailed h.queued h.posted
  | deleteAllForUser userId =>
      refine hstays _ ?_
      simp only [EmbeddingEnv.backend, KnowledgeEnv.handle, KnowledgeEnv.attempt]
      split
      · exact hsame _ _
      · have hretained : ∀ row ∈ world.knowledge.store.documents.retain
            fun document => document.userId ≠ userId, Owned ops issued row :=
          fun row hmem => h.documents row ((Table.mem_retain _ _ _).mp hmem).1
        unfold DocumentStore.deleteAllForUser
        split
        · exact h.thin rfl hretained h.queued h.posted (fun _ owner => owner ≠ userId) rfl
        · exact h.thin rfl hretained h.queued h.posted
            (fun of _ => ¬ (world.knowledge.store.documents.get of).any
              fun document => document.userId = userId) rfl
  | dispatchEmbed documentId name content =>
      refine hstays _ ?_
      obtain ⟨hid, userId, upload, hupload⟩ := hpermits
      have hqueued : ∀ task ∈ world.knowledge.embedded ++ [(documentId, name, content)],
          Dispatched ops issued task.1 task.2.2 := by
        intro task hmem
        rcases List.mem_append.mp hmem with hold | hnew
        · exact h.queued task hold
        · rw [List.mem_singleton.mp hnew]
          exact ⟨userId, upload, i, hop ▸ hupload, hissued ▸ hid⟩
      cases hfault : env.knowledge.fault world.knowledge.calls with
      | some e =>
          simp only [EmbeddingEnv.backend, hfault]
          split
          · exact h.keep rfl rfl h.documents hqueued h.posted
          · exact hsame _ _
      | none =>
          simp only [EmbeddingEnv.backend, KnowledgeEnv.handle, KnowledgeEnv.attempt, hfault]
          exact h.keep rfl rfl h.documents hqueued h.posted

-- What a thread is told comes from what is stored, queued and posted.
theorem Sourced.told (h : Sourced env ops issued world) (hphase : Told ops issued phase)
    (request : EmbeddingPorts.Call) :
    Told ops issued (phase.next ⟨request, (env.handle request world).1⟩) := by
  match request with
  | .inl (.find id) =>
      have hanswer : ∀ e found, (env.handle (.inl (.find id)) world).1 = found →
          (found = .error e ∨ found = .ok (world.knowledge.store.documents.get id)) →
          Told ops issued (phase.next ⟨.inl (.find id), found⟩) := by
        rintro e found - (rfl | rfl)
        · exact hphase
        · refine ⟨hphase.task, hphase.received, fun id' document hfound => ?_⟩
          obtain ⟨row, hrow, hpair⟩ := Option.map_eq_some_iff.mp hfound
          obtain ⟨rfl, rfl⟩ := Prod.mk.inj hpair
          obtain ⟨hmem, hid⟩ := (Table.get_eq_some _ _ _).mp hrow
          exact ⟨hid, h.documents row hmem⟩
      cases hfault : env.knowledge.fault world.knowledge.calls with
      | some e =>
          refine hanswer e _ rfl (Or.inl ?_)
          simp [EmbeddingEnv.handle, EmbeddingEnv.backend, KnowledgeEnv.handle,
            KnowledgeEnv.attempt, hfault]
      | none =>
          refine hanswer ⟨""⟩ _ rfl (Or.inr ?_)
          simp [EmbeddingEnv.handle, EmbeddingEnv.backend, KnowledgeEnv.handle,
            KnowledgeEnv.attempt, hfault]
  | .inr .take =>
      refine ⟨fun task htask => h.queued task (List.mem_of_getElem? htask), hphase.received,
        hphase.found⟩
  | .inr .receive =>
      refine ⟨hphase.task, fun request hrequest => h.posted request (List.mem_of_getElem? hrequest),
        hphase.found⟩
  | .inl .newUuid => exact ⟨hphase.task, hphase.received, hphase.found⟩
  | .inl (.insert _) | .inl (.listForUser _) | .inl (.delete _ _) | .inl (.storeChunks _ _) |
    .inl (.markFailed _ _) | .inl (.retrieve _ _ _) | .inl (.deleteAllForUser _) |
    .inl (.dispatchEmbed _ _ _) | .inl .utcNow | .inr (.embed _) | .inr (.post _) => exact hphase

theorem Sourced.worker (h : Sourced env ops issued world) (hphase : Told ops issued phase)
    {request : EmbeddingCall} (hpermits : phase.Permits (.inr request)) :
    Sourced env ops issued (env.handle (.inr request) world).2 := by
  have hsame : Sourced env ops issued { world with asked := world.asked + 1 } :=
    ⟨h.drawn, h.apart, h.documents, h.queued, h.posted, h.chunks, h.pieces⟩
  cases request with
  | take => exact hsame
  | embed texts => exact hsame
  | receive => exact hsame
  | post request =>
      have hwhole : Whole ops issued request := by
        cases request with
        | failure id error => trivial
        | chunks id batch =>
            obtain ⟨name, content, htask, hbatch⟩ := hpermits
            exact ⟨content, hphase.task _ htask, hbatch⟩
      refine ⟨h.drawn, h.apart, h.documents, h.queued, fun other hmem => ?_, h.chunks, h.pieces⟩
      simp only [EmbeddingEnv.handle, EmbeddingEnv.worker] at hmem
      split at hmem
      · rcases List.mem_append.mp hmem with hold | hnew
        · exact h.posted other hold
        · rw [List.mem_singleton.mp hnew]
          exact hwhole
      · exact h.posted other hmem

theorem mem_piecesOf {store : DocumentStore} {chunk : StoredChunk} (h : chunk ∈ store.chunks) :
    chunk.content ∈ piecesOf store chunk.documentId :=
  List.mem_map_of_mem (List.mem_filter.mpr ⟨h, decide_eq_true rfl⟩)

theorem Repeats.mem {adapter : Adapter} {pieces chunks : List String}
    (h : Repeats adapter pieces chunks) {piece : String} (hmem : piece ∈ pieces) :
    piece ∈ chunks := by
  obtain ⟨n, -, rfl⟩ := h
  obtain ⟨list, hlist, hpiece⟩ := List.mem_flatten.mp hmem
  rw [List.eq_of_mem_replicate hlist] at hpiece
  exact hpiece

theorem Sourced.piece (h : Sourced env ops issued world) {chunk : StoredChunk}
    (hmem : chunk ∈ world.knowledge.store.chunks) : ∃ name content,
      Issued ops issued chunk.documentId chunk.userId name content ∧
        chunk.content ∈ Agent.chunkText content ∧ chunk.documentName = trim name := by
  obtain ⟨name, content, hissued, hname⟩ := h.chunks chunk hmem
  exact ⟨name, content, hissued, (h.pieces _ _ _ _ hissued).mem (mem_piecesOf hmem), hname⟩

theorem mem_visible {adapter : Adapter} {store : DocumentStore} {userId : Uuid}
    {chunk : StoredChunk}
    (h : chunk ∈ store.visible adapter userId) : chunk ∈ store.chunks ∧ chunk.userId = userId := by
  cases adapter with
  | inMemory =>
      obtain ⟨hmem, howner⟩ := List.mem_filter.mp h
      exact ⟨hmem, of_decide_eq_true howner⟩
  | postgres =>
      obtain ⟨hmem, howner⟩ := List.mem_filter.mp h
      exact ⟨hmem, (of_decide_eq_true howner).1⟩

theorem Sourced.nameOf (h : Sourced env ops issued world) {adapter : Adapter} {chunk : StoredChunk}
    {userId : Uuid} {name content : String}
    (hissued : Issued ops issued chunk.documentId userId name content)
    (hname : chunk.documentName = trim name) :
    world.knowledge.store.nameOf adapter chunk = trim name := by
  cases adapter with
  | inMemory => exact hname
  | postgres =>
      unfold DocumentStore.nameOf
      dsimp only
      cases hrow : world.knowledge.store.documents.get chunk.documentId with
      | none => exact hname
      | some document =>
          obtain ⟨hmem, hid⟩ := (Table.get_eq_some _ _ _).mp hrow
          obtain ⟨name', content', hissued', hname'⟩ := h.documents document hmem
          rw [hid] at hissued'
          obtain ⟨-, rfl, -⟩ := h.unique hissued hissued'
          exact hname'

theorem Sourced.retrieved (h : Sourced env ops issued world) {adapter : Adapter}
    {similarity : Knowledge.Embedding → Knowledge.Embedding → Int} {userId : Uuid}
    {embedding : Knowledge.Embedding} {k : Int} {found : RetrievedChunk}
    (hfound : found ∈ world.knowledge.store.retrieve adapter similarity userId embedding k) :
    ∃ i name content, ops i = .upload userId name content ∧
      found.content ∈ Agent.chunkText content ∧ found.documentName = trim name := by
  obtain ⟨chunk, hchunk, rfl⟩ := List.mem_map.mp hfound
  obtain ⟨hmem, rfl⟩ := mem_visible ((List.mem_insertionSort _).mp (List.mem_of_mem_take hchunk))
  obtain ⟨name, content, hissued, hcontent, hname⟩ := h.piece hmem
  obtain ⟨i, hop, hi⟩ := hissued
  exact ⟨i, name, content, hop, hcontent, h.nameOf ⟨i, hop, hi⟩ hname⟩

end Sources

section Runs

variable {ι : Type} {ops : ι → EmbeddingOp} {env : EmbeddingEnv}

theorem next_op (phase : Embedder) (event : Event EmbeddingPorts) :
    (phase.next event).op = phase.op := by
  unfold Embedder.next
  split <;> rfl

theorem next_issued (phase : Embedder) {request : EmbeddingCall} (answer : request.Answer) :
    (phase.next ⟨.inr request, answer⟩).issued = phase.issued := by
  cases request <;> rfl

-- The identifier that a thread has drawn.
def drawnBy (op : EmbeddingOp) (past : List (Event EmbeddingPorts)) : Option Uuid :=
  (provenance.after (.of op) past).issued

-- What is stored and what the threads have been told comes from the uploads.
structure Traceable (env : EmbeddingEnv) (ops : ι → EmbeddingOp) (world : EmbeddingWorld)
    (pasts : ι → List (Event EmbeddingPorts)) : Prop where
  sourced : Sourced env ops (fun i => drawnBy (ops i) (pasts i)) world
  op : ∀ i, (provenance.after (.of (ops i)) (pasts i)).op = ops i
  told : ∀ i, Told ops (fun i => drawnBy (ops i) (pasts i))
    (provenance.after (.of (ops i)) (pasts i))

theorem Traceable.step [DecidableEq ι] {world : EmbeddingWorld}
    {pasts : ι → List (Event EmbeddingPorts)} {i : ι} {request : EmbeddingPorts.Call}
    (h : Traceable env ops world pasts)
    (hpermits : provenance.permits (provenance.after (.of (ops i)) (pasts i)) request) :
    Traceable env ops (env.handle request world).2
      (Function.update pasts i (pasts i ++ [⟨request, (env.handle request world).1⟩])) := by
  let event : Event EmbeddingPorts := ⟨request, (env.handle request world).1⟩
  let phase := provenance.after (.of (ops i)) (pasts i)
  have hafter : ∀ j, provenance.after (.of (ops j))
      (Function.update pasts i (pasts i ++ [event]) j) =
        if j = i then phase.next event else provenance.after (.of (ops j)) (pasts j) := by
    intro j
    by_cases hj : j = i
    · subst hj
      rw [Function.update_self, if_pos rfl, Protocol.after_append]
      rfl
    · rw [Function.update_of_ne hj, if_neg hj]
  have hdrawn : (fun j => drawnBy (ops j) (Function.update pasts i (pasts i ++ [event]) j)) =
      Function.update (fun j => drawnBy (ops j) (pasts j)) i (phase.next event).issued := by
    funext j
    unfold drawnBy
    rw [hafter]
    by_cases hj : j = i
    · subst hj
      rw [if_pos rfl, Function.update_self]
    · rw [if_neg hj, Function.update_of_ne hj]
  have hstep : (∀ j id, drawnBy (ops j) (pasts j) = some id →
        Function.update (fun j => drawnBy (ops j) (pasts j)) i (phase.next event).issued j =
          some id) ∧
      Sourced env ops
        (Function.update (fun j => drawnBy (ops j) (pasts j)) i (phase.next event).issued)
        (env.handle request world).2 := by
    cases request with
    | inl request => exact h.sourced.backend (h.told i) (h.op i) rfl hpermits
    | inr request =>
        have hissued : (phase.next event).issued = drawnBy (ops i) (pasts i) :=
          next_issued phase _
        rw [hissued, Function.update_eq_self]
        exact ⟨fun _ _ hj => hj, h.sourced.worker (h.told i) hpermits⟩
  refine ⟨?_, fun j => ?_, fun j => ?_⟩
  · rw [hdrawn]
    exact hstep.2
  · rw [hafter]
    split
    · next hj => rw [next_op, hj]; exact h.op i
    · exact h.op j
  · rw [hdrawn, hafter]
    split
    · exact (h.sourced.told (h.told i) request).mono hstep.1
    · exact (h.told j).mono hstep.1

-- In every run of uploads, deletions and retrievals with the deliveries of the queue and
-- the workers' requests, whichever are lost, late or delivered again: every stored piece,
-- and every piece a user is shown, is one of a text that this user uploaded under its name;
-- and a document has the pieces of its text, all of them in their order, or none (in
-- memory, once for every time they were stored).
theorem pieces_traceable [DecidableEq ι] (env : EmbeddingEnv) (ops : ι → EmbeddingOp)
    (schedule : List ι) :
    let c := (embeddingRuns ops).run env.handle schedule
    let store := c.store.knowledge.store
    (∀ chunk ∈ store.chunks, ∃ i name content, ops i = .upload chunk.userId name content ∧
      drawnBy (ops i) (c.threads i).past = some chunk.documentId ∧
      chunk.content ∈ Agent.chunkText content ∧ chunk.documentName = trim name) ∧
    (∀ i userId name content id, ops i = .upload userId name content →
      drawnBy (ops i) (c.threads i).past = some id →
        Repeats env.knowledge.adapter (piecesOf store id) (Agent.chunkText content)) ∧
    ∀ userId embedding k,
      ∀ found ∈ store.retrieve env.knowledge.adapter env.knowledge.similarity userId embedding k,
        ∃ i name content, ops i = .upload userId name content ∧
          found.content ∈ Agent.chunkText content ∧ found.documentName = trim name := by
  intro c store
  have hstart : (embeddingRuns ops).Obeys provenance (fun _ _ _ => True) fun i => .of (ops i) :=
    Config.obeys_start (fun i => op_obeys (ops i)) EmbeddingWorld.empty
  have htraceable : Traceable env ops c.store c.pasts :=
    (hstart.run (Traceable env ops)
      (fun world pasts i request h hpermits _ => h.step hpermits)
      (Config.respects_true env.handle _ schedule)
      ⟨Sourced.start env ops, fun _ => rfl, fun i => Told.start (ops i)⟩).2
  refine ⟨fun chunk hmem => ?_, fun i userId name content id hop hid => ?_,
    fun userId embedding k found hfound => htraceable.sourced.retrieved hfound⟩
  · obtain ⟨name, content, ⟨i, hop, hid⟩, hcontent, hname⟩ := htraceable.sourced.piece hmem
    exact ⟨i, name, content, hop, hid, hcontent, hname⟩
  · exact htraceable.sourced.pieces id userId name content ⟨i, hop, hid⟩

end Runs

-- One upload whose task is delivered to two workers.
namespace Sample

def embeddingEnv : EmbeddingEnv where
  knowledge := { Knowledge.Sample.env .postgres with uuid := Job.Sample.uuid }
  distinct := Job.Sample.uuid_injective
  queued _ := true
  delivery _ := 0
  embedder _ texts := .ok (texts.map fun _ => List.replicate embeddingLen 1)
  sent _ := true
  reply _ := .ok ()

def embedding : Nat → EmbeddingOp
  | 0 => .upload Knowledge.Sample.document.userId " notes.md " "The sky is blue."
  | 1 | 2 => .task
  | 3 | 4 => .callback
  | _ => .retrieve Knowledge.Sample.document.userId [] 5

end Sample

-- The batch arrives twice, and its chunks are stored once.
theorem pieces_traceable_redelivered :
    let c := (embeddingRuns Sample.embedding).run Sample.embeddingEnv.handle
      (List.replicate 6 0 ++ [1, 2, 1, 2, 1, 2, 1, 2] ++ List.replicate 4 3 ++ List.replicate 4 4)
    let store := c.store.knowledge.store
    store.chunks.map (fun chunk => (chunk.content, chunk.documentName)) =
        [("The sky is blue.", "notes.md")] ∧
      Repeats .postgres (piecesOf store (Job.Sample.uuid 0))
        (Agent.chunkText "The sky is blue.") := by
  intro c store
  obtain ⟨-, hpieces, -⟩ := pieces_traceable Sample.embeddingEnv Sample.embedding
    (List.replicate 6 0 ++ [1, 2, 1, 2, 1, 2, 1, 2] ++ List.replicate 4 3 ++ List.replicate 4 4)
  have hdrawn : drawnBy (Sample.embedding 0) (c.threads 0).past = some (Job.Sample.uuid 0) := by
    decide +kernel
  exact ⟨by decide +kernel, hpieces 0 _ _ _ _ rfl hdrawn⟩

end AgentBoilerplate.System
