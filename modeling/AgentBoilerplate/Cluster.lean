import AgentBoilerplate.Job.Unlinking
import AgentBoilerplate.Profile

-- The replicas of the backend on one database: the background loop of each, which
-- only the leader runs, beside the requests and the worker's notifications.
namespace AgentBoilerplate.Cluster

open Effects Collections Job Deletion Profile

-- A connection of a replica's pool, which is a session of the database.
abbrev SessionId := Nat

-- What the background loop asks, beside what its use cases ask.
inductive LoopCall where
  | connect
  | tryLock (session : SessionId)
  | unlock (session : SessionId)
  | putBack (session : SessionId)
  | deleteExpired (now : Int)
  | deleteFinishedBefore (cutoff : Int)
  | deleteBefore (cutoff : Int)
  | sessionEnds (session : SessionId)
deriving DecidableEq

@[reducible] def LoopCall.Answer : LoopCall → Type
  | .connect => Except PortError SessionId
  | .tryLock _ => Except PortError Bool
  | .unlock _ => Except PortError Unit
  | .putBack _ => Unit
  | .deleteExpired _ => Except PortError Nat
  | .deleteFinishedBefore _ => Except PortError Nat
  | .deleteBefore _ => Except PortError Nat
  | .sessionEnds _ => Unit

@[reducible] def LoopPorts : Interface := ⟨LoopCall, LoopCall.Answer⟩

@[reducible] def ClusterPorts : Interface := DatabasePorts.sum (ProfilePorts.sum LoopPorts)

@[simp] def askLoop (request : LoopCall) : Program ClusterPorts request.Answer :=
  .call (.inr (.inr request)) .done

@[simp] def utcNow : Program ClusterPorts Int := .call (.inl (.inl .utcNow)) .done

namespace PostgresLeaderLock

-- Both return what they leave in `held`. A connection that is dropped goes back to the
-- pool.
def acquire (held : Option SessionId) : Program ClusterPorts (Bool × Option SessionId) := do
  match ← askLoop .connect with
  | .error _ => return (false, held)
  | .ok conn =>
      match ← askLoop (.tryLock conn) with
      | .ok true =>
          match held with
          | some old => askLoop (.putBack old)
          | none => pure ()
          return (true, some conn)
      | .ok false | .error _ =>
          askLoop (.putBack conn)
          return (false, held)

def release (held : Option SessionId) : Program ClusterPorts (Option SessionId) := do
  match held with
  | some conn =>
      let _ ← askLoop (.unlock conn)
      askLoop (.putBack conn)
      return none
  | none => return none

end PostgresLeaderLock

structure ClusterConfig where
  jobs : JobConfig
  emailEnabled : Bool
  dataRetentionDays : Int
  securityEventRetentionDays : Int

-- A purge by age; zero days switch it off.
def purge (retentionDays : Int) (request : Int → LoopCall) : Program ClusterPorts Unit := do
  if retentionDays > 0 then
    let _ ← askLoop (request (retentionCutoff (← utcNow) retentionDays))
  else
    return

-- What the leader does in one tick. Every failure on the way is logged and dropped.
def tick (config : ClusterConfig) : Program ClusterPorts Unit := do
  let _ ← (FailStaleJobs.execute config.jobs.timeoutSecs).run.inl.inl
  let _ ← (RunDueSearches.execute config.jobs.dailyQuota).run.inl.inl
  let _ ← askLoop (.deleteExpired (← utcNow))
  purge config.dataRetentionDays .deleteFinishedBefore
  purge config.securityEventRetentionDays .deleteBefore

-- The background loop, for a number of ticks.
def background (config : ClusterConfig) : Nat → Option SessionId → Program ClusterPorts Unit
  | 0, _ => return
  | ticks + 1, held => do
      let (leads, held) ← PostgresLeaderLock.acquire held
      if leads then
        tick config
        background config ticks (← PostgresLeaderLock.release held)
      else
        background config ticks held

-- A session advisory lock: the session that holds it and how many times it took it.
-- A session that has ended holds nothing.
structure LockServer where
  holder : Option (SessionId × Nat)
  connected : List SessionId
  ended : List SessionId

namespace LockServer

variable (server : LockServer) (session : SessionId)

-- The pool hands out a connection that is alive and not in use.
def connect (choice : Option SessionId) : Except PortError SessionId × LockServer :=
  match choice with
  | some session =>
      if session ∈ server.connected ∨ session ∈ server.ended then
        (.error ⟨"pool timed out while waiting for an open connection"⟩, server)
      else
        (.ok session, { server with connected := session :: server.connected })
  | none => (.error ⟨"pool timed out while waiting for an open connection"⟩, server)

-- `pg_try_advisory_lock`.
def tryLock : Except PortError Bool × LockServer :=
  if session ∈ server.ended then
    (.error ⟨"connection closed"⟩, server)
  else
    match server.holder with
    | none => (.ok true, { server with holder := some (session, 1) })
    | some (holder, times) =>
        if holder = session then
          (.ok true, { server with holder := some (session, times + 1) })
        else
          (.ok false, server)

-- `pg_advisory_unlock`, which gives a lock back once.
def unlock : Except PortError Unit × LockServer :=
  if session ∈ server.ended then
    (.error ⟨"connection closed"⟩, server)
  else
    match server.holder with
    | none => (.ok (), server)
    | some (holder, times) =>
        if holder ≠ session then
          (.ok (), server)
        else if times ≤ 1 then
          (.ok (), { server with holder := none })
        else
          (.ok (), { server with holder := some (session, times - 1) })

def putBack : LockServer := { server with connected := server.connected.erase session }

def sessionEnds : LockServer :=
  { server with
    holder := server.holder.filter fun held => held.1 ≠ session
    ended := session :: server.ended }

end LockServer

-- How a call on a connection fails: before it reaches the database, or when its
-- answer is lost on the way back.
inductive Fault where
  | refused (e : PortError)
  | lost (e : PortError)

structure ClusterWorld where
  db : Database
  events : List Session.SecurityEvent
  server : LockServer
  asked : Nat

-- What the surroundings decide: what they decide of the ports, the connection that
-- a pool hands out, and which call on a connection fails.
structure ClusterEnv where
  database : DatabaseEnv
  pool : Nat → Option SessionId
  fault : Nat → Option Fault

namespace ClusterEnv

variable (env : ClusterEnv)

-- A call on a connection, with the effect it has on the lock.
def onServer {α : Type} (effect : LockServer → Except PortError α × LockServer)
    (world : ClusterWorld) : Except PortError α × ClusterWorld :=
  let answered := effect world.server
  match env.fault world.asked with
  | some (.refused e) => (.error e, { world with asked := world.asked + 1 })
  | some (.lost e) => (.error e, { world with server := answered.2, asked := world.asked + 1 })
  | none => (answered.1, { world with server := answered.2, asked := world.asked + 1 })

-- A row that names its user, refused by the foreign key of the database or by its
-- primary key.
def refused (db : Database) (userId : Uuid) (stored : Bool) : Bool :=
  env.database.adapter = .postgres ∧ ((db.users.get userId).isNone ∨ stored)

def profile : Handler ProfilePorts Database
  | .findUser id, db => env.database.attempt db fun db => (.ok (db.users.get id), db)
  | .insertChannel channel, db => env.database.attempt db fun db =>
      if env.refused db channel.userId (db.jobs.channels.get channel.id).isSome then
        (.error ⟨"database error: insert violates constraint"⟩, db)
      else
        (.ok (), { db with jobs := { db.jobs with channels := db.jobs.channels.insert channel } })
  | .listChannels userId, db => env.database.attempt db fun db =>
      (.ok (channelsOf db.jobs.channels userId), db)
  | .deleteChannel userId id, db => env.database.attempt db fun db =>
      if (db.jobs.channels.get id).any fun channel => channel.userId = userId then
        (.ok true, { db with jobs := { db.jobs with channels := db.jobs.channels.remove id } })
      else
        (.ok false, db)
  | .insertSearch search, db => env.database.attempt db fun db =>
      if env.refused db search.userId (db.jobs.recurring.get search.id).isSome then
        (.error ⟨"database error: insert violates constraint"⟩, db)
      else
        (.ok (), { db with jobs := { db.jobs with recurring := db.jobs.recurring.insert search } })
  | .listSearches userId, db => env.database.attempt db fun db =>
      (.ok ((db.jobs.recurring.rows.filter fun search => search.userId = userId).insertionSort
        fun a b => b.createdAt ≤ a.createdAt), db)
  | .deleteSearch userId id, db => env.database.attempt db fun db =>
      (.ok (deleteRecurringSearch env.database.adapter db.jobs userId id).1,
        { db with jobs := (deleteRecurringSearch env.database.adapter db.jobs userId id).2 })
  | .utcNow, db => env.database.onJobs .utcNow db
  | .newUuid, db => env.database.onJobs .newUuid db

-- A purge, on whatever connection.
def onDatabase {α : Type} (effect : ClusterWorld → α × ClusterWorld) (world : ClusterWorld) :
    Except PortError α × ClusterWorld :=
  match env.database.fault world.db.calls with
  | some e => (.error e, { world with db := { world.db with calls := world.db.calls + 1 } })
  | none =>
      let answered := effect { world with db := { world.db with calls := world.db.calls + 1 } }
      (.ok answered.1, answered.2)

def loop : Handler LoopPorts ClusterWorld
  | .connect, world => env.onServer (LockServer.connect · (env.pool world.asked)) world
  | .tryLock session, world => env.onServer (LockServer.tryLock · session) world
  | .unlock session, world => env.onServer (LockServer.unlock · session) world
  | .putBack session, world => ((), { world with server := world.server.putBack session })
  | .deleteExpired now, world => env.onDatabase (fun world =>
      (world.db.tokens.rows.length - (world.db.tokens.deleteExpired now).rows.length,
        { world with db := { world.db with tokens := world.db.tokens.deleteExpired now } })) world
  | .deleteFinishedBefore cutoff, world => env.onDatabase (fun world =>
      let deleted := deleteFinishedBefore env.database.adapter world.db.jobs cutoff
      (deleted.1, { world with db := { world.db with jobs := deleted.2 } })) world
  | .deleteBefore cutoff, world => env.onDatabase (fun world =>
      let kept := world.events.filter fun event =>
        env.database.adapter.timestamp cutoff ≤ event.createdAt
      (world.events.length - kept.length, { world with events := kept })) world
  | .sessionEnds session, world => ((), { world with server := world.server.sessionEnds session })

def handle : Handler ClusterPorts ClusterWorld :=
  (env.database.handle.on ClusterWorld.db fun world db => { world with db }).sum
    ((env.profile.on ClusterWorld.db fun world db => { world with db }).sum env.loop)

end ClusterEnv

-- The operations on jobs that only the background loop performs.
def ticks : JobOp → Bool
  | .runDue | .failStale => true
  | _ => false

-- What runs in the cluster: the loop of a replica, what the users and the worker
-- ask of any replica, and the end of a session, which no replica asks for.
inductive ClusterOp where
  | background (ticks : Nat)
  | job (op : JobOp) (requested : Cluster.ticks op = false)
  | knowledge (op : Knowledge.KnowledgeOp)
  | profile (op : ProfileOp)
  | deleteAccount (userId : Uuid)
  | sessionEnds (session : SessionId)

def ClusterOp.program (config : ClusterConfig) : ClusterOp → Program ClusterPorts Unit
  | .background ticks => Cluster.background config ticks none
  | .job op _ => do let _ ← (op.program config.jobs).inl.inl
  | .knowledge op => do let _ ← op.program.inl.inr.inl
  | .profile op => do let _ ← (op.program config.emailEnabled).inl.inr
  | .deleteAccount userId => do let _ ← (Deletion.deleteAccount userId).run.inr.inr.inl
  | .sessionEnds session => askLoop (.sessionEnds session)

-- All of it in flight on one database; nothing has made a call yet.
abbrev ClusterRuns (ι : Type) := Config ClusterPorts ClusterWorld ι Unit

def clusterRuns {ι : Type} (config : ClusterConfig) (world : ClusterWorld) (ops : ι → ClusterOp) :
    ClusterRuns ι :=
  .start world fun i => (ops i).program config

end AgentBoilerplate.Cluster
