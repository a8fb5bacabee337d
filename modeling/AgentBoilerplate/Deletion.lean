import AgentBoilerplate.Account
import AgentBoilerplate.Effects.Sum
import AgentBoilerplate.Job.Store
import AgentBoilerplate.Knowledge

namespace AgentBoilerplate.Deletion

open Effects Collections

-- All the stores that hold something of a user.
structure Database where
  jobs : Job.JobWorld
  knowledge : Knowledge.KnowledgeWorld
  tokens : Session.RefreshTokens
  users : Account.Users
  calls : Nat

namespace Database

variable (adapter : Adapter) (db : Database) (userId : Uuid)

-- The database clears the link of the runs of a deleted search.
def deleteRecurring : Database :=
  let doomed := (db.jobs.recurring.rows.filter fun search => search.userId = userId).map
    Job.RecurringSearch.id
  { db with jobs := { db.jobs with
      jobs := match adapter with
        | .inMemory => db.jobs.jobs
        | .postgres => db.jobs.jobs.mapRows fun job =>
            { job with recurringSearchId := job.recurringSearchId.filter fun id => id ∉ doomed }
      recurring := db.jobs.recurring.retain fun search => search.userId ≠ userId } }

-- The results and the steps of a job go with it: one by one, or by the cascade.
def deleteJobs : Database :=
  let doomed := (db.jobs.jobs.rows.filter fun job => job.userId = userId).map Job.ResearchJob.id
  { db with jobs := { db.jobs with
      jobs := db.jobs.jobs.retain fun job => job.userId ≠ userId
      results := db.jobs.results.retain fun entry => entry.1 ∉ doomed
      steps := db.jobs.steps.retain fun entry => entry.1 ∉ doomed } }

def deleteRefreshTokens : Database :=
  { db with tokens := db.tokens.retain fun token => token.userId ≠ userId }

def deleteChannels : Database :=
  { db with jobs := { db.jobs with
      channels := db.jobs.channels.retain fun channel => channel.userId ≠ userId } }

def deleteDocuments : Database :=
  { db with knowledge := { db.knowledge with
      store := db.knowledge.store.deleteAllForUser adapter userId } }

-- What the foreign keys to `users` delete with the row.
def cascade : Database :=
  let db := db.deleteRecurring .postgres userId
  let db := db.deleteJobs userId
  let db := db.deleteRefreshTokens userId
  let db := db.deleteChannels userId
  let db := db.deleteDocuments .postgres userId
  { db with knowledge := { db.knowledge with store := { db.knowledge.store with
      chunks := db.knowledge.store.chunks.filter fun chunk => chunk.userId ≠ userId } } }

def deleteUser : Database :=
  match adapter with
  | .inMemory => { db with users := db.users.remove userId }
  | .postgres =>
      if (db.users.get userId).isSome then
        { db.cascade userId with users := db.users.remove userId }
      else
        db

end Database

-- What the deletion of an account asks of its ports.
inductive DeletionCall where
  | recurring (userId : Uuid)
  | jobs (userId : Uuid)
  | refreshTokens (userId : Uuid)
  | channels (userId : Uuid)
  | documents (userId : Uuid)
  | user (id : Uuid)
deriving DecidableEq

@[reducible] def DeletionCall.Answer : DeletionCall → Type
  | .recurring _ => Except PortError Nat
  | .jobs _ => Except PortError Nat
  | .refreshTokens _ => Except PortError Nat
  | .channels _ => Except PortError Nat
  | .documents _ => Except PortError Nat
  | .user _ => Except PortError Unit

@[reducible] def DeletionPorts : Interface := ⟨DeletionCall, DeletionCall.Answer⟩

@[simp] def ask (request : DeletionCall) : Program DeletionPorts request.Answer :=
  .call request .done

-- `DeleteAccount::execute`.
def deleteAccount (userId : Uuid) : Fallible DeletionPorts PortError Unit := do
  let _ ← orFail id (ask (.recurring userId))
  let _ ← orFail id (ask (.jobs userId))
  let _ ← orFail id (ask (.refreshTokens userId))
  let _ ← orFail id (ask (.channels userId))
  let _ ← orFail id (ask (.documents userId))
  orFail id (ask (.user userId))

-- What the surroundings decide of all the ports, over one persistence.
structure DatabaseEnv where
  jobs : Job.JobEnv
  knowledge : Knowledge.KnowledgeEnv
  adapters : knowledge.adapter = jobs.adapter
  fault : Nat → Option PortError

namespace DatabaseEnv

variable (env : DatabaseEnv)

def adapter : Adapter := env.jobs.adapter

def attempt {α : Type} (db : Database) (effect : Database → Except PortError α × Database) :
    Except PortError α × Database :=
  match env.fault db.calls with
  | some e => (.error e, { db with calls := db.calls + 1 })
  | none => effect { db with calls := db.calls + 1 }

def deletion : Handler DeletionPorts Database
  | .recurring userId, db => env.attempt db fun db =>
      (.ok (db.jobs.recurring.rows.countP fun search => search.userId = userId),
        db.deleteRecurring env.adapter userId)
  | .jobs userId, db => env.attempt db fun db =>
      (.ok (db.jobs.jobs.rows.countP fun job => job.userId = userId), db.deleteJobs userId)
  | .refreshTokens userId, db => env.attempt db fun db =>
      (.ok (db.tokens.rows.countP fun token => token.userId = userId), db.deleteRefreshTokens userId)
  | .channels userId, db => env.attempt db fun db =>
      (.ok (db.jobs.channels.rows.countP fun channel => channel.userId = userId),
        db.deleteChannels userId)
  | .documents userId, db => env.attempt db fun db =>
      (.ok (db.knowledge.store.documents.rows.countP fun document => document.userId = userId),
        db.deleteDocuments env.adapter userId)
  | .user id, db => env.attempt db fun db => (.ok (), db.deleteUser env.adapter id)

-- The deletion of one account, alone.
def execute (db : Database) (userId : Uuid) : Except PortError Unit × Database :=
  (deleteAccount userId).run.run env.deletion db

-- A row of a table of jobs, refused by a foreign key of the database.
def refuse {α : Type} (db : Database) : Except PortError α × Database :=
  let answer := env.jobs.attempt db.jobs fun world =>
    (.error ⟨"database error: insert violates foreign key constraint"⟩, world)
  (answer.1, { db with jobs := answer.2 })

def onJobs : Handler Job.JobPorts Database :=
  env.jobs.handle.on Database.jobs fun db jobs => { db with jobs }

def jobHandler : Handler Job.JobPorts Database
  | .insert job, db =>
      if env.adapter = .postgres ∧ ((db.users.get job.userId).isNone ∨
          job.recurringSearchId.any fun id => (db.jobs.recurring.get id).isNone) then
        env.refuse db
      else
        env.onJobs (.insert job) db
  | .storeResults jobId results, db =>
      if env.adapter = .postgres ∧ ¬ results.isEmpty ∧ (db.jobs.jobs.get jobId).isNone then
        env.refuse db
      else
        env.onJobs (.storeResults jobId results) db
  | .appendStep jobId step, db =>
      if env.adapter = .postgres ∧ (db.jobs.jobs.get jobId).isNone then
        env.refuse db
      else
        env.onJobs (.appendStep jobId step) db
  | request, db => env.onJobs request db

def knowledgeHandler : Handler Knowledge.KnowledgePorts Database
  | .insert document, db =>
      if env.adapter = .postgres ∧ (db.users.get document.userId).isNone then
        let answer := env.knowledge.attempt db.knowledge fun world =>
          (.error ⟨"database error: insert violates foreign key constraint"⟩, world)
        (answer.1, { db with knowledge := answer.2 })
      else
        env.knowledge.handle.on Database.knowledge (fun db knowledge => { db with knowledge })
          (.insert document) db
  | request, db =>
      env.knowledge.handle.on Database.knowledge (fun db knowledge => { db with knowledge }) request db

end DatabaseEnv

@[reducible] def DatabasePorts : Interface :=
  Job.JobPorts.sum (Knowledge.KnowledgePorts.sum DeletionPorts)

def DatabaseEnv.handle (env : DatabaseEnv) : Handler DatabasePorts Database :=
  env.jobHandler.sum (env.knowledgeHandler.sum env.deletion)

-- The operations on jobs and on documents, and the deletion of accounts.
inductive DatabaseOp where
  | job (op : Job.JobOp)
  | knowledge (op : Knowledge.KnowledgeOp)
  | deleteAccount (userId : Uuid)
deriving DecidableEq

inductive DatabaseOutcome where
  | job (outcome : Job.JobOutcome)
  | knowledge (outcome : Knowledge.KnowledgeOutcome)
  | deleteAccount (result : Except PortError Unit)

def DatabaseOp.program (config : Job.JobConfig) : DatabaseOp → Program DatabasePorts DatabaseOutcome
  | .job op => do return .job (← (op.program config).inl)
  | .knowledge op => do return .knowledge (← op.program.inl.inr)
  | .deleteAccount userId => do return .deleteAccount (← (Deletion.deleteAccount userId).run.inr.inr)

-- Operations in flight on one database, none of which has made a call yet.
abbrev DatabaseRuns (ι : Type) := Config DatabasePorts Database ι DatabaseOutcome

def databaseRuns {ι : Type} (config : Job.JobConfig) (db : Database) (ops : ι → DatabaseOp) :
    DatabaseRuns ι :=
  .start db fun i => (ops i).program config

end AgentBoilerplate.Deletion
