import AgentBoilerplate.Job.UseCases
import AgentBoilerplate.Collections.Table
import Mathlib.Data.List.Sort

namespace AgentBoilerplate.Job

open Effects Collections

-- `jobs: Mutex<HashMap<Uuid, ResearchJob>>`, or the rows of `research_jobs`.
abbrev Jobs := Table ResearchJob.id

-- The results or the journal of each job.
abbrev PerJob (α : Type) := Table (α := Uuid × List α) Prod.fst

namespace PerJob

variable {α : Type}

def of (entries : PerJob α) (jobId : Uuid) : List α := ((entries.get jobId).map Prod.snd).getD []

end PerJob

namespace Jobs

-- The primary key rejects a row; the map replaces one. The columns of the
-- usage take their defaults.
def insert (adapter : Adapter) (jobs : Jobs) (job : ResearchJob) : Except PortError Unit × Jobs :=
  match adapter with
  | .inMemory => (.ok (), Table.insert jobs job)
  | .postgres =>
      if jobs.rows.any fun row => row.id = job.id then
        (.error ⟨"database error: duplicate key value violates unique constraint"⟩, jobs)
      else
        (.ok (), Table.insert jobs { job with usage := {} })

-- The map writes the whole row but its usage, and a row that is missing; the
-- statement writes five columns of a row that exists.
def update (adapter : Adapter) (jobs : Jobs) (job : ResearchJob) : Jobs :=
  match adapter with
  | .inMemory =>
      Table.insert jobs { job with usage := ((jobs.get job.id).map ResearchJob.usage).getD job.usage }
  | .postgres =>
      jobs.modify job.id fun row =>
        { row with
          status := job.status
          error := job.error
          question := job.question
          answer := job.answer
          completedAt := job.completedAt }

-- The database compares in whole microseconds.
def countCreatedSince (adapter : Adapter) (jobs : Jobs) (userId : Uuid) (since : Int) : Nat :=
  match adapter with
  | .inMemory => jobs.rows.countP fun row => row.userId = userId ∧ since ≤ row.createdAt
  | .postgres =>
      jobs.rows.countP fun row => row.userId = userId ∧ truncSubsecs6 since ≤ row.createdAt

def listUnfinishedOlderThan (adapter : Adapter) (jobs : Jobs) (cutoff : Int) : List ResearchJob :=
  let cutoff := match adapter with
    | .inMemory => cutoff
    | .postgres => truncSubsecs6 cutoff
  jobs.rows.filter fun row =>
    (row.status = .pending ∨ row.status = .running) ∧ row.createdAt < cutoff

def addUsage (jobs : Jobs) (jobId : Uuid) (usage : JobUsage) : Jobs :=
  jobs.modify jobId fun row => { row with usage := row.usage.add usage }

-- The runs of a recurring search, newest first.
def runsOf (jobs : Jobs) (recurringSearchId : Uuid) : List ResearchJob :=
  (jobs.rows.filter fun row => row.recurringSearchId = some recurringSearchId).insertionSort
    fun a b => b.createdAt ≤ a.createdAt

end Jobs

-- Collects URLs that are not yet there, until the limit is reached.
def collectUrls (limit : Nat) : List String → List String → List String
  | urls, [] => urls
  | urls, url :: rest =>
      if url ∈ urls then
        collectUrls limit urls rest
      else if urls.length + 1 ≥ limit then
        urls ++ [url]
      else
        collectUrls limit (urls ++ [url]) rest

-- `collates` is the order of the database's collation.
def recentUrlsForRecurring (adapter : Adapter) (collates : String → String → Bool) (jobs : Jobs)
    (results : PerJob SearchResult) (recurringSearchId : Uuid) (limit : Nat) : List String :=
  let urls := (jobs.runsOf recurringSearchId).flatMap fun job =>
    (results.of job.id).map SearchResult.url
  match adapter with
  | .inMemory => collectUrls limit [] urls
  | .postgres => (urls.dedup.insertionSort fun a b => collates a b).take limit

-- A step is recorded once for each number.
def appendStep (steps : PerJob AgentStep) (jobId : Uuid) (step : AgentStep) : PerJob AgentStep :=
  let journal := steps.of jobId
  if journal.any fun recorded => recorded.seq = step.seq then
    steps
  else
    steps.insert (jobId, (journal ++ [step]).insertionSort fun a b => a.seq ≤ b.seq)

-- `NotificationChannelRepository::list_for_user`, oldest first.
def channelsOf (channels : Table NotificationChannel.id) (userId : Uuid) :
    List NotificationChannel :=
  (channels.rows.filter fun channel => channel.userId = userId).insertionSort
    fun a b => a.createdAt ≤ b.createdAt

-- What the surroundings decide: the readings of the clock, the identifiers
-- drawn, and which port call fails (a failing call has no effect).
structure JobEnv where
  adapter : Adapter
  collates : String → String → Bool
  clock : Nat → Int
  uuid : Nat → Uuid
  fault : Nat → Option PortError

-- The stores, what has been handed to the agent and to the notifiers, and how
-- far each supply of the surroundings is used up.
structure JobWorld where
  jobs : Jobs
  results : PerJob SearchResult
  steps : PerJob AgentStep
  recurring : Table RecurringSearch.id
  channels : Table NotificationChannel.id
  dispatched : List (ResearchJob × List String)
  digests : List (String × Digest)
  notified : List (NotificationChannel × Digest)
  calls : Nat
  readings : Nat
  uuids : Nat

def JobEnv.attempt {α : Type} (env : JobEnv) (world : JobWorld)
    (effect : JobWorld → Except PortError α × JobWorld) : Except PortError α × JobWorld :=
  match env.fault world.calls with
  | some e => (.error e, { world with calls := world.calls + 1 })
  | none => effect { world with calls := world.calls + 1 }

def JobEnv.handle (env : JobEnv) : Handler JobPorts JobWorld
  | .insert job, world => env.attempt world fun world =>
      ((world.jobs.insert env.adapter job).1,
        { world with jobs := (world.jobs.insert env.adapter job).2 })
  | .update job, world => env.attempt world fun world =>
      (.ok (), { world with jobs := world.jobs.update env.adapter job })
  | .find id, world => env.attempt world fun world => (.ok (world.jobs.get id), world)
  | .countCreatedSince userId since, world => env.attempt world fun world =>
      (.ok (world.jobs.countCreatedSince env.adapter userId since), world)
  | .listUnfinishedOlderThan cutoff, world => env.attempt world fun world =>
      (.ok (world.jobs.listUnfinishedOlderThan env.adapter cutoff), world)
  | .storeResults jobId results, world => env.attempt world fun world =>
      (.ok (), { world with results := world.results.insert (jobId, results) })
  | .appendStep jobId step, world => env.attempt world fun world =>
      (.ok (), { world with steps := Job.appendStep world.steps jobId step })
  | .clearSteps jobId, world => env.attempt world fun world =>
      (.ok (), { world with steps := world.steps.remove jobId })
  | .addUsage jobId usage, world => env.attempt world fun world =>
      (.ok (), { world with jobs := world.jobs.addUsage jobId usage })
  | .recentUrlsForRecurring id limit, world => env.attempt world fun world =>
      (.ok (Job.recentUrlsForRecurring env.adapter env.collates world.jobs world.results id limit),
        world)
  | .findRecurring id, world => env.attempt world fun world =>
      (.ok (world.recurring.get id), world)
  | .listDue now, world => env.attempt world fun world =>
      (.ok (world.recurring.rows.filter fun search => search.isDue (env.adapter.timestamp now)), world)
  | .markRan id at_, world => env.attempt world fun world =>
      let at_ := env.adapter.timestamp at_
      (.ok (), { world with recurring := world.recurring.modify id fun s => s.markRan at_ })
  | .listChannels userId, world => env.attempt world fun world =>
      (.ok (channelsOf world.channels userId), world)
  | .sendDigest url digest, world => env.attempt world fun world =>
      (.ok (), { world with digests := world.digests ++ [(url, digest)] })
  | .notify channel digest, world => env.attempt world fun world =>
      (.ok (), { world with notified := world.notified ++ [(channel, digest)] })
  | .dispatch job seenUrls, world => env.attempt world fun world =>
      (.ok (), { world with dispatched := world.dispatched ++ [(job, seenUrls)] })
  | .utcNow, world => (env.clock world.readings, { world with readings := world.readings + 1 })
  | .newUuid, world => (env.uuid world.uuids, { world with uuids := world.uuids + 1 })

-- Operations in flight on one database, none of which has made a call yet.
abbrev JobRuns (ι : Type) := Config JobPorts JobWorld ι JobOutcome

def jobRuns {ι : Type} (config : JobConfig) (world : JobWorld) (ops : ι → JobOp) : JobRuns ι :=
  .start world fun i => (ops i).program config

end AgentBoilerplate.Job
