import AgentBoilerplate.Collections.Retaining
import AgentBoilerplate.Effects.Unwinding
import AgentBoilerplate.Job.Unlinking
import AgentBoilerplate.Profile

namespace AgentBoilerplate.Tenancy

open Effects Collections Job Knowledge Deletion Profile

@[reducible] def TenantPorts : Interface :=
  SearchPorts.sum (KnowledgePorts.sum (DeletionPorts.sum ProfilePorts))

-- `Knowledge::retrieve_for_job`.
def retrieveForJob (jobId : Uuid) (embedding : Embedding) (k : Int) :
    Fallible TenantPorts KnowledgeError (List RetrievedChunk) := do
  let some job ← orFail .infrastructure (askJobs (.find jobId)).inl | throw .jobNotFound
  orFail .infrastructure (Knowledge.ask (.retrieve job.userId embedding k)).inl.inr

-- What users and the worker do with the stores, and what they read of them.
inductive TenantOp where
  | job (op : JobOp)
  | list (userId : Uuid)
  | get (userId jobId : Uuid)
  | knowledge (op : KnowledgeOp)
  | retrieveForJob (jobId : Uuid) (embedding : Embedding) (k : Int)
  | deleteAccount (userId : Uuid)
  | profile (op : ProfileOp)
deriving DecidableEq

inductive TenantOutcome where
  | job (outcome : JobOutcome)
  | list (result : Except PortError (List ResearchJob))
  | get (result : Except PortError (Option Snapshot))
  | knowledge (outcome : KnowledgeOutcome)
  | retrieveForJob (result : Except KnowledgeError (List RetrievedChunk))
  | deleteAccount (result : Except PortError Unit)
  | profile (outcome : ProfileOutcome)

structure ServiceConfig where
  jobs : JobConfig
  emailEnabled : Bool

def TenantOp.program (config : ServiceConfig) : TenantOp → Program TenantPorts TenantOutcome
  | .job op => do return .job (← (op.program config.jobs).inl.inl)
  | .list userId => do return .list (← (SearchQueries.list userId).run.inl)
  | .get userId jobId => do return .get (← (SearchQueries.get userId jobId).run.inl)
  | .knowledge op => do return .knowledge (← op.program.inl.inr)
  | .retrieveForJob jobId embedding k => do
      return .retrieveForJob (← (Tenancy.retrieveForJob jobId embedding k).run)
  | .deleteAccount userId => do
      return .deleteAccount (← (Deletion.deleteAccount userId).run.inl.inr.inr)
  | .profile op => do return .profile (← (op.program config.emailEnabled).inr.inr.inr)

-- The calls that no store answers.
def external : TenantPorts.Call → Bool
  | .inl (.inl request) => match request with
    | .sendDigest _ _ | .notify _ _ | .dispatch _ _ | .utcNow | .newUuid => true
    | _ => false
  | .inl (.inr request) => match request with
    | .instant | .sleep _ | .update _ => true
    | _ => false
  | .inr (.inl request) => match request with
    | .dispatchEmbed _ _ _ | .utcNow | .newUuid => true
    | _ => false
  | .inr (.inr (.inl _)) => false
  | .inr (.inr (.inr request)) => match request with
    | .utcNow | .newUuid => true
    | _ => false

-- The other adapters and the clock are in the surroundings of each program, so
-- what they would answer here is never asked for. The stores never fail.
def inMemory (similarity : Embedding → Embedding → Int) : DatabaseEnv where
  jobs := {
    adapter := .inMemory
    collates := fun _ _ => true
    clock := fun _ => 0
    uuid := fun _ => ⟨""⟩
    fault := fun _ => none }
  knowledge := {
    adapter := .inMemory
    similarity
    clock := fun _ => 0
    uuid := fun _ => ⟨""⟩
    fault := fun _ => none }
  adapters := rfl
  fault := fun _ => none

-- `NotificationChannelRepository::delete`: a channel is removed by its owner.
def deleteChannel (channels : Table NotificationChannel.id) (userId id : Uuid) :
    Bool × Table NotificationChannel.id :=
  if (channels.get id).any fun channel => channel.userId = userId then
    (true, channels.remove id)
  else
    (false, channels)

-- `RecurringSearchRepository::list_for_user`, newest first.
def searchesOf (recurring : Table RecurringSearch.id) (userId : Uuid) : List RecurringSearch :=
  (recurring.rows.filter fun search => search.userId = userId).insertionSort
    fun a b => b.createdAt ≤ a.createdAt

def profileHandler : Handler ProfilePorts Database
  | .findUser id, db => (.ok (db.users.get id), db)
  | .insertChannel channel, db =>
      (.ok (), { db with jobs := { db.jobs with channels := db.jobs.channels.insert channel } })
  | .listChannels userId, db => (.ok (channelsOf db.jobs.channels userId), db)
  | .deleteChannel userId id, db =>
      let (deleted, channels) := deleteChannel db.jobs.channels userId id
      (.ok deleted, { db with jobs := { db.jobs with channels } })
  | .insertSearch search, db =>
      (.ok (), { db with jobs := { db.jobs with recurring := db.jobs.recurring.insert search } })
  | .listSearches userId, db => (.ok (searchesOf db.jobs.recurring userId), db)
  | .deleteSearch userId id, db =>
      let (deleted, jobs) := deleteRecurringSearch .inMemory db.jobs userId id
      (.ok deleted, { db with jobs })
  | .utcNow, db => (0, db)
  | .newUuid, db => (⟨""⟩, db)

def queryHandler (env : DatabaseEnv) : Handler QueryPorts Database :=
  (QueryEnv.mk env.jobs fun _ => 0).query.on Database.jobs fun db jobs => { db with jobs }

def serve (similarity : Embedding → Embedding → Int) : Handler TenantPorts Database :=
  let env := inMemory similarity
  (env.jobHandler.sum (queryHandler env)).sum
    (env.knowledgeHandler.sum (env.deletion.sum profileHandler))

-- The maps of one database, iterated in another order; the chunks are a vector.
structure Reordered (db db' : Database) : Prop where
  jobs : db.jobs.jobs.Reordered db'.jobs.jobs
  results : db.jobs.results.Reordered db'.jobs.results
  steps : db.jobs.steps.Reordered db'.jobs.steps
  recurring : db.jobs.recurring.Reordered db'.jobs.recurring
  channels : db.jobs.channels.Reordered db'.jobs.channels
  documents : db.knowledge.store.documents.Reordered db'.knowledge.store.documents
  chunks : db.knowledge.store.chunks = db'.knowledge.store.chunks
  tokens : db.tokens.Reordered db'.tokens
  users : db.users.Reordered db'.users

-- The order in which the maps are iterated. It may be another at each call: the
-- calls are counted.
structure Memory where
  order : Database → Database
  reordered : ∀ db, Reordered db (order db)

def Memory.handle (memory : Memory) (similarity : Embedding → Embedding → Int) :
    Handler TenantPorts Database :=
  fun request db =>
    ((serve similarity request (memory.order db)).1,
      { (serve similarity request db).2 with calls := db.calls + 1 })

-- Operations in flight on one database, each in surroundings of its own; none
-- has made a call yet.
abbrev TenantRuns (ι : Type) := Config TenantPorts Database ι TenantOutcome

def tenantRuns {ι : Type} (config : ServiceConfig) (db : Database) (ops : ι → TenantOp)
    (given : ι → Surroundings TenantPorts) : TenantRuns ι :=
  .start db fun i => ((ops i).program config).surrounded external (given i) 0

-- A user, and which identifiers are those of the user's records.
structure Tenant where
  user : Uuid
  owned : Uuid → Bool

namespace Tenant

variable (tenant : Tenant)

def is (userId : Uuid) : Bool := userId = tenant.user

-- The owner and the identifier of a record are of one side.
def Holds (side : Bool) (userId id : Uuid) : Prop := tenant.is userId = side ∧ tenant.owned id = side

-- So is the recurring search that a job is a run of.
def JobOf (side : Bool) (job : ResearchJob) : Prop :=
  tenant.Holds side job.userId job.id ∧ ∀ rsId ∈ job.recurringSearchId, tenant.owned rsId = side

structure Apart (db : Database) : Prop where
  jobs : ∀ job ∈ db.jobs.jobs, tenant.JobOf (tenant.is job.userId) job
  recurring : ∀ search ∈ db.jobs.recurring,
    tenant.Holds (tenant.is search.userId) search.userId search.id
  channels : ∀ channel ∈ db.jobs.channels,
    tenant.Holds (tenant.is channel.userId) channel.userId channel.id
  documents : ∀ document ∈ db.knowledge.store.documents,
    tenant.Holds (tenant.is document.userId) document.userId document.id
  chunks : ∀ chunk ∈ db.knowledge.store.chunks,
    tenant.Holds (tenant.is chunk.userId) chunk.userId chunk.documentId

section Stores

variable (db : Database)

-- What the stores hold of the user.
def jobsOf : Jobs := db.jobs.jobs.retain fun job => tenant.is job.userId

def resultsOf : PerJob SearchResult := db.jobs.results.retain fun entry => tenant.owned entry.1

def stepsOf : PerJob AgentStep := db.jobs.steps.retain fun entry => tenant.owned entry.1

def recurringOf : Table RecurringSearch.id :=
  db.jobs.recurring.retain fun search => tenant.is search.userId

def channelsOf : Table NotificationChannel.id :=
  db.jobs.channels.retain fun channel => tenant.is channel.userId

def documentsOf : Table Document.id :=
  db.knowledge.store.documents.retain fun document => tenant.is document.userId

def chunksOf : List StoredChunk :=
  db.knowledge.store.chunks.filter fun chunk => tenant.is chunk.userId

def tokensOf : Session.RefreshTokens := db.tokens.retain fun token => tenant.is token.userId

def usersOf : Account.Users := db.users.retain fun user => tenant.is user.id

-- The records of the user were created at distinct times.
structure Dated : Prop where
  jobs : ((tenant.jobsOf db).rows.map ResearchJob.createdAt).Nodup
  recurring : ((tenant.recurringOf db).rows.map RecurringSearch.createdAt).Nodup
  channels : ((tenant.channelsOf db).rows.map NotificationChannel.createdAt).Nodup
  documents : ((tenant.documentsOf db).rows.map Document.createdAt).Nodup

end Stores

-- Two databases that hold the same of the user.
structure Same (db db' : Database) : Prop where
  jobs : tenant.jobsOf db = tenant.jobsOf db'
  results : tenant.resultsOf db = tenant.resultsOf db'
  steps : tenant.stepsOf db = tenant.stepsOf db'
  recurring : tenant.recurringOf db = tenant.recurringOf db'
  channels : tenant.channelsOf db = tenant.channelsOf db'
  documents : tenant.documentsOf db = tenant.documentsOf db'
  chunks : tenant.chunksOf db = tenant.chunksOf db'
  tokens : tenant.tokensOf db = tenant.tokensOf db'
  users : tenant.usersOf db = tenant.usersOf db'

end Tenant

-- The operations of the user and of the worker on the user's jobs and documents,
-- or those of the other users and of the worker on theirs. Any identifier may be
-- given to an operation of a user. The ticks are of no user.
def JobOp.Of (tenant : Tenant) (side : Bool) : JobOp → Prop
  | .launch userId _ _ | .answer userId _ _ => tenant.is userId = side
  | .start jobId | .complete jobId _ | .recordStep jobId _ | .requestInput jobId _
  | .recordUsage jobId _ | .fail jobId _ => tenant.owned jobId = side
  | .runDue | .failStale => False

def KnowledgeOp.Of (tenant : Tenant) (side : Bool) : KnowledgeOp → Prop
  | .upload userId _ _ | .list userId | .delete userId _ => tenant.is userId = side
  | .storeChunks documentId _ | .markFailed documentId _ => tenant.owned documentId = side

def ProfileOp.Of (tenant : Tenant) (side : Bool) : ProfileOp → Prop
  | .createSearch userId _ _ _ _ | .listSearches userId | .deleteSearch userId _ | .view userId
  | .addChannel userId _ _ _ | .removeChannel userId _ => tenant.is userId = side

def TenantOp.Of (tenant : Tenant) (side : Bool) : TenantOp → Prop
  | .job op => JobOp.Of tenant side op
  | .list userId | .get userId _ | .deleteAccount userId => tenant.is userId = side
  | .knowledge op => KnowledgeOp.Of tenant side op
  | .retrieveForJob jobId _ _ => tenant.owned jobId = side
  | .profile op => ProfileOp.Of tenant side op

-- Every identifier that is drawn is of its side.
structure Fresh (tenant : Tenant) (side : Bool) (given : Surroundings TenantPorts) : Prop where
  jobs : ∀ n, tenant.owned (given n (.inl (.inl .newUuid))) = side
  documents : ∀ n, tenant.owned (given n (.inr (.inl .newUuid))) = side
  profile : ∀ n, tenant.owned (given n (.inr (.inr (.inr .newUuid)))) = side

end AgentBoilerplate.Tenancy
