import AgentBoilerplate.Basic
import AgentBoilerplate.Collections.Table
import AgentBoilerplate.Effects.Interleaving
import Mathlib.Data.List.Sort
import Mathlib.Data.Rat.Defs

namespace AgentBoilerplate.Knowledge

open Effects Collections

def maxDocumentNameLen : Nat := 200
def maxDocumentContentLen : Nat := 100000

inductive DocumentStatus where
  | pending
  | ready
  | failed
deriving DecidableEq, Repr

inductive DocumentError where
  | emptyName
  | nameTooLong
  | emptyContent
  | contentTooLong
deriving DecidableEq, Repr

def validateContent (content : String) : Except DocumentError Unit :=
  if (trim content).isEmpty then
    .error .emptyContent
  else if content.length > maxDocumentContentLen then
    .error .contentTooLong
  else
    .ok ()

structure Document where
  id : Uuid
  userId : Uuid
  name : String
  status : DocumentStatus
  error : Option String
  createdAt : Int
deriving DecidableEq, Repr

-- The components of an embedding, exactly.
abbrev Embedding := List Rat

structure NewChunk where
  seq : Int
  content : String
  embedding : Embedding
deriving DecidableEq

structure StoredChunk where
  documentId : Uuid
  userId : Uuid
  content : String
  embedding : Embedding
  documentName : String
deriving DecidableEq

structure RetrievedChunk where
  content : String
  documentName : String
deriving DecidableEq, Repr

-- `documents: Mutex<HashMap<Uuid, Document>>` and `chunks: Mutex<Vec<StoredChunk>>`,
-- or the rows of `documents` and `document_chunks`.
structure DocumentStore where
  documents : Table Document.id
  chunks : List StoredChunk

-- `embedding vector(768)`.
def embeddingLen : Nat := 768

def storedChunk (document : Document) (chunk : NewChunk) : StoredChunk where
  documentId := document.id
  userId := document.userId
  content := chunk.content
  embedding := chunk.embedding
  documentName := document.name

def markReady (document : Document) : Document :=
  { document with status := .ready, error := none }

namespace DocumentStore

variable (adapter : Adapter) (store : DocumentStore)

def insert (document : Document) : Except PortError Unit × DocumentStore :=
  match adapter with
  | .inMemory => (.ok (), { store with documents := store.documents.insert document })
  | .postgres =>
      if store.documents.rows.any fun row => row.id = document.id then
        (.error ⟨"database error: duplicate key value violates unique constraint"⟩, store)
      else
        (.ok (), { store with documents := store.documents.insert document })

def listForUser (userId : Uuid) : List Document :=
  (store.documents.rows.filter fun document => document.userId = userId).insertionSort
    fun a b => b.createdAt ≤ a.createdAt

-- The chunks of a document go with it: the map's `retain`, or the cascade.
def delete (userId id : Uuid) : Bool × DocumentStore :=
  if (store.documents.get id).any fun document => document.userId = userId then
    (true, {
      documents := store.documents.remove id
      chunks := store.chunks.filter fun chunk => chunk.documentId ≠ id })
  else
    (false, store)

-- The map adds the batch for whatever document it is given. The transaction
-- replaces the chunks of the document, and is rolled back where the row of a
-- chunk is refused: its document is missing, or its embedding has another length.
def storeChunks (document : Document) (batch : List NewChunk) :
    Except PortError Unit × DocumentStore :=
  match adapter with
  | .inMemory =>
      (.ok (), {
        documents := store.documents.modify document.id markReady
        chunks := store.chunks ++ batch.map (storedChunk document) })
  | .postgres =>
      if ¬ batch.isEmpty ∧ (store.documents.get document.id).isNone then
        (.error ⟨"database error: insert violates foreign key constraint"⟩, store)
      else if batch.any fun chunk => chunk.embedding.length ≠ embeddingLen then
        (.error ⟨"database error: expected 768 dimensions"⟩, store)
      else
        (.ok (), {
          documents := store.documents.modify document.id markReady
          chunks := (store.chunks.filter fun chunk => chunk.documentId ≠ document.id) ++
            batch.map (storedChunk document) })

def markFailed (id : Uuid) (error : String) : DocumentStore :=
  { store with
    documents := store.documents.modify id fun document =>
      { document with status := .failed, error := some error } }

def deleteAllForUser (userId : Uuid) : DocumentStore :=
  match adapter with
  | .inMemory =>
      { documents := store.documents.retain fun document => document.userId ≠ userId
        chunks := store.chunks.filter fun chunk => chunk.userId ≠ userId }
  | .postgres =>
      { documents := store.documents.retain fun document => document.userId ≠ userId
        chunks := store.chunks.filter fun chunk =>
          ¬ (store.documents.get chunk.documentId).any fun document => document.userId = userId }

-- The chunks a user's retrieval chooses from. The query joins the documents.
def visible (userId : Uuid) : List StoredChunk :=
  match adapter with
  | .inMemory => store.chunks.filter fun chunk => chunk.userId = userId
  | .postgres => store.chunks.filter fun chunk =>
      chunk.userId = userId ∧ (store.documents.get chunk.documentId).isSome

-- The nearest `k` of them, those of equal similarity in stored order.
def nearest (similarity : Embedding → Embedding → Int) (userId : Uuid) (embedding : Embedding)
    (k : Int) : List StoredChunk :=
  ((store.visible adapter userId).insertionSort fun a b =>
    similarity embedding b.embedding ≤ similarity embedding a.embedding).take k.toNat

-- The database reads the name from the document.
def nameOf (chunk : StoredChunk) : String :=
  match adapter with
  | .inMemory => chunk.documentName
  | .postgres => ((store.documents.get chunk.documentId).map Document.name).getD chunk.documentName

def retrieve (similarity : Embedding → Embedding → Int) (userId : Uuid) (embedding : Embedding)
    (k : Int) : List RetrievedChunk :=
  (store.nearest adapter similarity userId embedding k).map fun chunk =>
    { content := chunk.content, documentName := store.nameOf adapter chunk }

end DocumentStore

-- What the use cases of the knowledge base ask of their ports and of the clock.
inductive KnowledgeCall where
  | insert (document : Document)
  | listForUser (userId : Uuid)
  | find (id : Uuid)
  | delete (userId id : Uuid)
  | storeChunks (document : Document) (batch : List NewChunk)
  | markFailed (id : Uuid) (error : String)
  | retrieve (userId : Uuid) (embedding : Embedding) (k : Int)
  | deleteAllForUser (userId : Uuid)
  | dispatchEmbed (documentId : Uuid) (name content : String)
  | utcNow
  | newUuid
deriving DecidableEq

@[reducible] def KnowledgeCall.Answer : KnowledgeCall → Type
  | .insert _ => Except PortError Unit
  | .listForUser _ => Except PortError (List Document)
  | .find _ => Except PortError (Option Document)
  | .delete _ _ => Except PortError Bool
  | .storeChunks _ _ => Except PortError Unit
  | .markFailed _ _ => Except PortError Unit
  | .retrieve _ _ _ => Except PortError (List RetrievedChunk)
  | .deleteAllForUser _ => Except PortError Nat
  | .dispatchEmbed _ _ _ => Except PortError Unit
  | .utcNow => Int
  | .newUuid => Uuid

@[reducible] def KnowledgePorts : Interface := ⟨KnowledgeCall, KnowledgeCall.Answer⟩

abbrev UseCase (ε : Type) := Fallible KnowledgePorts ε

@[simp] def ask (request : KnowledgeCall) : Program KnowledgePorts request.Answer :=
  .call request .done

-- `Document::new` draws an identifier and reads the clock once the name is
-- accepted.
def Document.new (userId : Uuid) (name : String) :
    Program KnowledgePorts (Except DocumentError Document) :=
  let name := trim name
  if name.isEmpty then
    return .error .emptyName
  else if name.length > maxDocumentNameLen then
    return .error .nameTooLong
  else do
    let id ← ask .newUuid
    let now ← ask .utcNow
    return .ok { id, userId, name, status := .pending, error := none, createdAt := truncSubsecs6 now }

inductive KnowledgeError where
  | documentNotFound
  | jobNotFound
  | invalid (e : DocumentError)
  | infrastructure (e : PortError)
deriving DecidableEq, Repr

-- `Knowledge::upload`; that the mark of a failed dispatch fails is ignored.
def upload (userId : Uuid) (name content : String) : UseCase KnowledgeError Document := do
  orFail .invalid (pure (validateContent content))
  let document ← orFail .invalid (Document.new userId name)
  orFail .infrastructure (ask (.insert document))
  let dispatched : Except PortError Unit ← ask (.dispatchEmbed document.id document.name content)
  match dispatched with
  | .ok () => return document
  | .error e =>
      let _ ← ask (.markFailed document.id s!"embedding dispatch failed: {e.message}")
      return document

def list (userId : Uuid) : UseCase PortError (List Document) := orFail id (ask (.listForUser userId))

def delete (userId id : Uuid) : UseCase PortError Bool :=
  orFail (fun e => e) (ask (.delete userId id))

def storeChunks (documentId : Uuid) (batch : List NewChunk) : UseCase KnowledgeError Unit := do
  let some document ← orFail .infrastructure (ask (.find documentId)) | throw .documentNotFound
  orFail .infrastructure (ask (.storeChunks document batch))

def markFailed (documentId : Uuid) (error : String) : UseCase PortError Unit :=
  orFail id (ask (.markFailed documentId error))

-- What the surroundings decide: the similarity of two embeddings, by its rank
-- among the similarities, the readings of the clock, the identifiers drawn, and
-- which port call fails (a failing call has no effect).
structure KnowledgeEnv where
  adapter : Adapter
  similarity : Embedding → Embedding → Int
  clock : Nat → Int
  uuid : Nat → Uuid
  fault : Nat → Option PortError

-- The stores, what has been handed to the embedder, and how far each supply of
-- the surroundings is used up.
structure KnowledgeWorld where
  store : DocumentStore
  embedded : List (Uuid × String × String)
  calls : Nat
  readings : Nat
  uuids : Nat

def KnowledgeEnv.attempt {α : Type} (env : KnowledgeEnv) (world : KnowledgeWorld)
    (effect : KnowledgeWorld → Except PortError α × KnowledgeWorld) :
    Except PortError α × KnowledgeWorld :=
  match env.fault world.calls with
  | some e => (.error e, { world with calls := world.calls + 1 })
  | none => effect { world with calls := world.calls + 1 }

def KnowledgeEnv.handle (env : KnowledgeEnv) : Handler KnowledgePorts KnowledgeWorld
  | .insert document, world => env.attempt world fun world =>
      ((world.store.insert env.adapter document).1,
        { world with store := (world.store.insert env.adapter document).2 })
  | .listForUser userId, world => env.attempt world fun world =>
      (.ok (world.store.listForUser userId), world)
  | .find id, world => env.attempt world fun world => (.ok (world.store.documents.get id), world)
  | .delete userId id, world => env.attempt world fun world =>
      (.ok (world.store.delete userId id).1, { world with store := (world.store.delete userId id).2 })
  | .storeChunks document batch, world => env.attempt world fun world =>
      ((world.store.storeChunks env.adapter document batch).1,
        { world with store := (world.store.storeChunks env.adapter document batch).2 })
  | .markFailed id error, world => env.attempt world fun world =>
      (.ok (), { world with store := world.store.markFailed id error })
  | .retrieve userId embedding k, world => env.attempt world fun world =>
      (.ok (world.store.retrieve env.adapter env.similarity userId embedding k), world)
  | .deleteAllForUser userId, world => env.attempt world fun world =>
      (.ok (world.store.documents.rows.countP fun document => document.userId = userId),
        { world with store := world.store.deleteAllForUser env.adapter userId })
  | .dispatchEmbed documentId name content, world => env.attempt world fun world =>
      (.ok (), { world with embedded := world.embedded ++ [(documentId, name, content)] })
  | .utcNow, world => (env.clock world.readings, { world with readings := world.readings + 1 })
  | .newUuid, world => (env.uuid world.uuids, { world with uuids := world.uuids + 1 })

-- The requests and worker callbacks that touch documents, each a program with
-- its own outcome.
inductive KnowledgeOp where
  | upload (userId : Uuid) (name content : String)
  | list (userId : Uuid)
  | delete (userId id : Uuid)
  | storeChunks (documentId : Uuid) (batch : List NewChunk)
  | markFailed (documentId : Uuid) (error : String)
deriving DecidableEq

inductive KnowledgeOutcome where
  | upload (result : Except KnowledgeError Document)
  | list (result : Except PortError (List Document))
  | delete (result : Except PortError Bool)
  | storeChunks (result : Except KnowledgeError Unit)
  | markFailed (result : Except PortError Unit)

def KnowledgeOp.program : KnowledgeOp → Program KnowledgePorts KnowledgeOutcome
  | .upload userId name content => do
      return .upload (← (Knowledge.upload userId name content).run)
  | .list userId => do return .list (← (Knowledge.list userId).run)
  | .delete userId id => do return .delete (← (Knowledge.delete userId id).run)
  | .storeChunks documentId batch => do
      return .storeChunks (← (Knowledge.storeChunks documentId batch).run)
  | .markFailed documentId error => do
      return .markFailed (← (Knowledge.markFailed documentId error).run)

-- Operations in flight on one database, none of which has made a call yet.
abbrev KnowledgeRuns (ι : Type) := Config KnowledgePorts KnowledgeWorld ι KnowledgeOutcome

def knowledgeRuns {ι : Type} (world : KnowledgeWorld) (ops : ι → KnowledgeOp) : KnowledgeRuns ι :=
  .start world fun i => (ops i).program

end AgentBoilerplate.Knowledge
