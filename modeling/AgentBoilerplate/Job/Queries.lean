import AgentBoilerplate.Effects.Sum
import AgentBoilerplate.Job.Store

namespace AgentBoilerplate.Job

open Effects Collections

-- `Reverse(published_at)`: the newest first, and last what has no date.
def newerFirst (a b : SearchResult) : Bool :=
  match b.publishedAt, a.publishedAt with
  | none, _ => true
  | some _, none => false
  | some second, some first => second ≤ first

def sortByPublicationDate (results : List SearchResult) : List SearchResult :=
  results.insertionSort fun a b => newerFirst a b

-- A job with its results and its journal, as they were read.
structure Snapshot where
  job : ResearchJob
  results : List SearchResult
  steps : List AgentStep
deriving DecidableEq

structure JobView where
  id : Uuid
  keyword : String
  mode : JobMode
  status : JobStatus
  error : Option String
  question : Option String
  answer : Option String
  recurringSearchId : Option Uuid
  usage : JobUsage
  createdAt : Int
  completedAt : Option Int
deriving DecidableEq

def JobView.ofJob (job : ResearchJob) : JobView where
  id := job.id
  keyword := job.keyword
  mode := job.mode
  status := job.status
  error := job.error
  question := job.question
  answer := job.answer
  recurringSearchId := job.recurringSearchId
  usage := job.usage
  createdAt := job.createdAt
  completedAt := job.completedAt

structure JobDetailView where
  job : JobView
  results : List SearchResult
  steps : List AgentStep
deriving DecidableEq

def jobDetailJson (snapshot : Snapshot) : JobDetailView where
  job := JobView.ofJob snapshot.job
  results := snapshot.results
  steps := snapshot.steps

-- What the read side asks of the job repository beside the calls of the use
-- cases, and what a stream of updates asks of the clock and of its client: an
-- `update` event carries the text of a detail.
inductive QueryCall where
  | listForUser (userId : Uuid)
  | resultsFor (jobId : Uuid)
  | stepsFor (jobId : Uuid)
  | instant
  | sleep (wait : Int)
  | update (detail : JobDetailView)
deriving DecidableEq

@[reducible] def QueryCall.Answer : QueryCall → Type
  | .listForUser _ => Except PortError (List ResearchJob)
  | .resultsFor _ => Except PortError (List SearchResult)
  | .stepsFor _ => Except PortError (List AgentStep)
  | .instant => Int
  | .sleep _ => Unit
  | .update _ => Unit

@[reducible] def QueryPorts : Interface := ⟨QueryCall, QueryCall.Answer⟩

@[reducible] def SearchPorts : Interface := JobPorts.sum QueryPorts

@[simp] def askJobs (request : JobCall) : Program SearchPorts request.Answer :=
  .call (.inl request) .done

@[simp] def query (request : QueryCall) : Program SearchPorts request.Answer :=
  .call (.inr request) .done

namespace SearchQueries

def list (userId : Uuid) : Fallible SearchPorts PortError (List ResearchJob) :=
  orFail id (query (.listForUser userId))

def get (userId jobId : Uuid) : Fallible SearchPorts PortError (Option Snapshot) := do
  let some job ← orFail id (askJobs (.find jobId)) | return none
  if job.userId ≠ userId then
    return none
  else
    let results ← orFail id (query (.resultsFor jobId))
    let steps ← orFail id (query (.stepsFor jobId))
    return some { job, results := sortByPublicationDate results, steps }

end SearchQueries

-- The text of a detail on the wire, and the durations of a stream.
structure StreamConfig where
  text : JobDetailView → String
  maxLifetime : Int
  idleInterval : Int
  activeInterval : Int

def pollInterval (status : JobStatus) (idle active : Int) : Int :=
  match status with
  | .awaitingInput => idle
  | _ => active

-- The stream from a point of its loop, for as many readings of the job as its
-- client waits for.
def pollUpdates (stream : StreamConfig) (userId jobId : Uuid) (started : Int) :
    Nat → Option String → Program SearchPorts Unit
  | 0, _ => return
  | polls + 1, lastPayload => do
      let now ← query .instant
      if now - started ≥ stream.maxLifetime then
        return
      else
        match ← (SearchQueries.get userId jobId).run with
        | .error _ | .ok none => return
        | .ok (some snapshot) =>
            let payload := stream.text (jobDetailJson snapshot)
            if lastPayload ≠ some payload then
              query (.update (jobDetailJson snapshot))
              if snapshot.job.isFinished then
                return
              else
                pollUpdates stream userId jobId started polls (some payload)
            else
              query (.sleep (pollInterval snapshot.job.status stream.idleInterval stream.activeInterval))
              pollUpdates stream userId jobId started polls lastPayload

def jobUpdatesWith (stream : StreamConfig) (userId jobId : Uuid) (polls : Nat) :
    Program SearchPorts Unit := do
  let started ← query .instant
  pollUpdates stream userId jobId started polls none

-- The durations that `job_updates` passes.
def streamConfig (text : JobDetailView → String) : StreamConfig where
  text := text
  maxLifetime := Duration.minutes 30
  idleInterval := Duration.seconds 15
  activeInterval := Duration.seconds 1

-- The database sorts what it reads.
def resultsFor (adapter : Adapter) (results : PerJob SearchResult) (jobId : Uuid) :
    List SearchResult :=
  match adapter with
  | .inMemory => results.of jobId
  | .postgres => sortByPublicationDate (results.of jobId)

def Jobs.listForUser (jobs : Jobs) (userId : Uuid) : List ResearchJob :=
  (jobs.rows.filter fun job => job.userId = userId).insertionSort
    fun a b => b.createdAt ≤ a.createdAt

-- The monotonic clock is another than the one that jobs are dated with.
structure QueryEnv where
  jobs : JobEnv
  instant : Nat → Int

def QueryEnv.query (env : QueryEnv) : Handler QueryPorts JobWorld
  | .listForUser userId, world => env.jobs.attempt world fun world =>
      (.ok (world.jobs.listForUser userId), world)
  | .resultsFor jobId, world => env.jobs.attempt world fun world =>
      (.ok (resultsFor env.jobs.adapter world.results jobId), world)
  | .stepsFor jobId, world => env.jobs.attempt world fun world =>
      (.ok (world.steps.of jobId), world)
  | .instant, world => (env.instant world.readings, { world with readings := world.readings + 1 })
  | .sleep _, world => ((), world)
  | .update _, world => ((), world)

def QueryEnv.handle (env : QueryEnv) : Handler SearchPorts JobWorld :=
  env.jobs.handle.sum env.query

-- The operations on jobs, and the readers beside them.
inductive SearchOp where
  | job (op : JobOp)
  | list (userId : Uuid)
  | get (userId jobId : Uuid)
  | updates (userId jobId : Uuid) (polls : Nat)
deriving DecidableEq

inductive SearchOutcome where
  | job (outcome : JobOutcome)
  | list (result : Except PortError (List ResearchJob))
  | get (result : Except PortError (Option Snapshot))
  | updates

def SearchOp.program (config : JobConfig) (stream : StreamConfig) :
    SearchOp → Program SearchPorts SearchOutcome
  | .job op => do return .job (← (op.program config).inl)
  | .list userId => do return .list (← (SearchQueries.list userId).run)
  | .get userId jobId => do return .get (← (SearchQueries.get userId jobId).run)
  | .updates userId jobId polls => do
      jobUpdatesWith stream userId jobId polls
      return .updates

-- Operations and readers in flight on one database.
abbrev SearchRuns (ι : Type) := Config SearchPorts JobWorld ι SearchOutcome

def searchRuns {ι : Type} (config : JobConfig) (stream : StreamConfig) (world : JobWorld)
    (ops : ι → SearchOp) : SearchRuns ι :=
  .start world fun i => (ops i).program config stream

end AgentBoilerplate.Job
