import AgentBoilerplate.Job
import AgentBoilerplate.Effects.Interleaving

namespace AgentBoilerplate.Job

open Effects

-- The texts of `JobError` (its `thiserror` attributes).
def JobError.message : JobError → String
  | .emptyKeyword => "keyword must not be empty"
  | .keywordTooLong => "keyword must be at most 200 characters"
  | .invalidInterval => "interval must be between 1 minute and 7 days"
  | .invalidWebhookUrl => "webhook url must start with http:// or https://"
  | .webhookUrlTooLong => "webhook url must be at most 2048 characters"
  | .emptyQuestion => "question must not be empty"
  | .emptyAnswer => "answer must not be empty"
  | .answerTooLong => "answer must be at most 2000 characters"
  | .notAwaitingInput => "job is not awaiting input"

structure AgentStep where
  seq : Int
  kind : String
  detail : String
  reason : String
  newHits : Int
deriving DecidableEq, Repr

inductive DateConfidence where
  | high
  | medium
  | unknown
deriving DecidableEq, Repr

inductive EventType where
  | announcement
  | release
  | funding
  | legal
  | incident
  | research
  | opinion
  | other
deriving DecidableEq, Repr

structure SearchResult where
  title : String
  url : String
  snippet : String
  publishedAt : Option Int
  dateConfidence : DateConfidence
  eventType : EventType
  summary : Option String
  isNew : Bool
deriving DecidableEq, Repr

structure RecurringSearch where
  id : Uuid
  userId : Uuid
  keyword : String
  mode : JobMode
  intervalMinutes : Nat
  webhookUrl : Option String
  createdAt : Int
  lastRunAt : Option Int
deriving DecidableEq, Repr

def RecurringSearch.isDue (search : RecurringSearch) (now : Int) : Bool :=
  match search.lastRunAt with
  | none => true
  | some last => last + Duration.minutes search.intervalMinutes ≤ now

def RecurringSearch.markRan (search : RecurringSearch) (at_ : Int) : RecurringSearch :=
  { search with lastRunAt := some at_ }

inductive ChannelKind where
  | slack
  | telegram
  | email
deriving DecidableEq, Repr

structure NotificationChannel where
  id : Uuid
  userId : Uuid
  kind : ChannelKind
  target : String
  secret : Option String
  createdAt : Int
deriving DecidableEq, Repr

structure DigestEntry where
  title : String
  url : String
  publishedAt : Option Int
deriving DecidableEq, Repr

structure Digest where
  recurringSearchId : Uuid
  jobId : Uuid
  keyword : String
  newCount : Nat
  newResults : List DigestEntry
deriving DecidableEq, Repr

-- What the use cases of a job ask of their ports and of the clock.
inductive JobCall where
  | insert (job : ResearchJob)
  | update (job : ResearchJob)
  | find (id : Uuid)
  | countCreatedSince (userId : Uuid) (since : Int)
  | listUnfinishedOlderThan (cutoff : Int)
  | storeResults (jobId : Uuid) (results : List SearchResult)
  | appendStep (jobId : Uuid) (step : AgentStep)
  | clearSteps (jobId : Uuid)
  | addUsage (jobId : Uuid) (usage : JobUsage)
  | recentUrlsForRecurring (recurringSearchId : Uuid) (limit : Nat)
  | findRecurring (id : Uuid)
  | listDue (now : Int)
  | markRan (id : Uuid) (at_ : Int)
  | listChannels (userId : Uuid)
  | sendDigest (url : String) (digest : Digest)
  | notify (channel : NotificationChannel) (digest : Digest)
  | dispatch (job : ResearchJob) (seenUrls : List String)
  | utcNow
  | newUuid
deriving DecidableEq

@[reducible] def JobCall.Answer : JobCall → Type
  | .insert _ => Except PortError Unit
  | .update _ => Except PortError Unit
  | .find _ => Except PortError (Option ResearchJob)
  | .countCreatedSince _ _ => Except PortError Nat
  | .listUnfinishedOlderThan _ => Except PortError (List ResearchJob)
  | .storeResults _ _ => Except PortError Unit
  | .appendStep _ _ => Except PortError Unit
  | .clearSteps _ => Except PortError Unit
  | .addUsage _ _ => Except PortError Unit
  | .recentUrlsForRecurring _ _ => Except PortError (List String)
  | .findRecurring _ => Except PortError (Option RecurringSearch)
  | .listDue _ => Except PortError (List RecurringSearch)
  | .markRan _ _ => Except PortError Unit
  | .listChannels _ => Except PortError (List NotificationChannel)
  | .sendDigest _ _ => Except PortError Unit
  | .notify _ _ => Except PortError Unit
  | .dispatch _ _ => Except PortError Unit
  | .utcNow => Int
  | .newUuid => Uuid

@[reducible] def JobPorts : Interface := ⟨JobCall, JobCall.Answer⟩

abbrev UseCase (ε : Type) := Fallible JobPorts ε

-- One call, as a program.
@[simp] def ask (request : JobCall) : Program JobPorts request.Answer := .call request .done

-- The transitions that read the clock. A completed job refuses to fail before
-- it is read.
@[simp] def ResearchJob.completeNow (job : ResearchJob) : Program JobPorts ResearchJob := do
  return job.complete (← ask .utcNow)

def ResearchJob.failNow (job : ResearchJob) (error : String) : Program JobPorts ResearchJob :=
  if job.status = .completed then
    return job
  else do
    return job.fail (← ask .utcNow) error

-- `ResearchJob::new` draws an identifier and reads the clock once the keyword
-- is accepted. It is irreducible because to unfold the checks of a keyword that
-- is not known is costly.
@[irreducible] def ResearchJob.newNow (userId : Uuid) (keyword : String) :
    Program JobPorts (Except JobError ResearchJob) :=
  if (trim keyword).isEmpty then
    return .error .emptyKeyword
  else if (trim keyword).length > maxKeywordLen then
    return .error .keywordTooLong
  else do
    let id ← ask .newUuid
    return ResearchJob.new id (← ask .utcNow) userId keyword

inductive IngestError where
  | jobNotFound
  | infrastructure (e : PortError)
deriving DecidableEq, Repr

namespace IngestResults

-- `jobs.find(job_id).await?.ok_or(JobNotFound)?`.
def findJob (jobId : Uuid) : UseCase IngestError ResearchJob := do
  let some job ← orFail .infrastructure (ask (.find jobId)) | throw .jobNotFound
  return job

def notifyAll (digest : Digest) : List NotificationChannel → Program JobPorts Unit
  | [] => return
  | channel :: channels => do
      let _ ← ask (.notify channel digest)
      notifyAll digest channels

def notifyChannels (userId : Uuid) (digest : Digest) : Program JobPorts Unit := do
  match ← ask (.listChannels userId) with
  | .ok channels => notifyAll digest channels
  | .error _ => return

def digestOf (rsId : Uuid) (job : ResearchJob) (newResults : List SearchResult) : Digest where
  recurringSearchId := rsId
  jobId := job.id
  keyword := job.keyword
  newCount := newResults.length
  newResults := newResults.map fun r => { title := r.title, url := r.url, publishedAt := r.publishedAt }

-- Every failure on the way is logged and dropped.
def maybeSendDigest (job : ResearchJob) (results : List SearchResult) : Program JobPorts Unit :=
  match job.recurringSearchId with
  | none => return
  | some rsId =>
      let newResults := results.filter (·.isNew)
      if newResults.isEmpty then
        return
      else do
        match ← ask (.findRecurring rsId) with
        | .error _ | .ok none => return
        | .ok (some search) =>
            let digest := digestOf rsId job newResults
            match search.webhookUrl with
            | some url => let _ ← ask (.sendDigest url digest)
            | none => pure ()
            notifyChannels search.userId digest

def start (jobId : Uuid) : UseCase IngestError Unit := do
  let job ← findJob jobId
  orFail .infrastructure (ask (.update job.start))

def complete (jobId : Uuid) (results : List SearchResult) : UseCase IngestError Unit := do
  let job ← findJob jobId
  orFail .infrastructure (ask (.storeResults jobId results))
  let job ← job.completeNow
  orFail .infrastructure (ask (.update job))
  maybeSendDigest job results

def recordStep (jobId : Uuid) (step : AgentStep) : UseCase IngestError Unit := do
  let _ ← findJob jobId
  orFail .infrastructure (ask (.appendStep jobId step))

def requestInput (jobId : Uuid) (question : String) : UseCase IngestError Unit := do
  let job ← findJob jobId
  match job.requestInput question with
  | (.error e, _) => throw (.infrastructure ⟨e.message⟩)
  | (.ok (), job) => orFail .infrastructure (ask (.update job))

def recordUsage (jobId : Uuid) (usage : JobUsage) : UseCase IngestError Unit := do
  let _ ← findJob jobId
  orFail .infrastructure (ask (.addUsage jobId usage))

def fail (jobId : Uuid) (error : String) : UseCase IngestError Unit := do
  let job ← findJob jobId
  let job ← job.failNow error
  orFail .infrastructure (ask (.update job))

end IngestResults

inductive AnswerError where
  | notFound
  | invalidAnswer (e : JobError)
  | dispatchFailed
  | infrastructure (e : PortError)
deriving DecidableEq, Repr

-- Dispatches a stored job; a failed dispatch is stored as the job's failure.
def dispatchOrFail {ε : Type} (infrastructure : PortError → ε) (dispatchFailed : ε)
    (job : ResearchJob) (seenUrls : List String) : UseCase ε ResearchJob := do
  let dispatched : Except PortError Unit ← ask (.dispatch job seenUrls)
  match dispatched with
  | .ok () => return job
  | .error e =>
      let job ← job.failNow s!"dispatch failed: {e.message}"
      orFail infrastructure (ask (.update job))
      throw dispatchFailed

-- `AnswerClarification::execute`.
def answerClarification (userId jobId : Uuid) (answer : String) :
    UseCase AnswerError ResearchJob := do
  let found ← orFail .infrastructure (ask (.find jobId))
  let some job := found.filter fun job => job.userId = userId | throw .notFound
  match job.provideAnswer answer with
  | (.error e, _) => throw (.invalidAnswer e)
  | (.ok (), job) =>
      orFail .infrastructure (ask (.clearSteps jobId))
      orFail .infrastructure (ask (.update job))
      match job.recurringSearchId with
      | some rsId =>
          let seenUrls ← orFail .infrastructure (ask (.recentUrlsForRecurring rsId 200))
          dispatchOrFail .infrastructure .dispatchFailed job seenUrls
      | none => dispatchOrFail .infrastructure .dispatchFailed job []

-- `chrono::Duration::from_std` refuses what exceeds `i64::MAX` milliseconds.
def maxDurationSecs : Nat := 9223372036854775

def FailStaleJobs.reap (timeoutSecs : Nat) : List ResearchJob → Nat → UseCase PortError Nat
  | [], reaped => return reaped
  | job :: stale, reaped => do
      let job ← job.failNow s!"timed out after {timeoutSecs}s without a worker notification"
      orFail id (ask (.update job))
      reap timeoutSecs stale (reaped + 1)

def FailStaleJobs.execute (timeoutSecs : Nat) : UseCase PortError Nat := do
  let now ← ask .utcNow
  if timeoutSecs > maxDurationSecs then
    throw ⟨"invalid timeout: Source duration value is out of range for the target type"⟩
  else
    let stale ← orFail id (ask (.listUnfinishedOlderThan (now - Duration.seconds timeoutSecs)))
    FailStaleJobs.reap timeoutSecs stale 0

inductive LaunchError where
  | invalidJob (e : JobError)
  | quotaExceeded (quota : Nat)
  | dispatchFailed
  | infrastructure (e : PortError)
deriving DecidableEq, Repr

-- `LaunchSearch::execute`.
def launchSearch (dailyQuota : Nat) (userId : Uuid) (keyword : String) (mode : JobMode) :
    UseCase LaunchError ResearchJob := do
  let now ← ask .utcNow
  let used ← orFail .infrastructure (ask (.countCreatedSince userId (now - Duration.hours 24)))
  if used ≥ dailyQuota then
    throw (.quotaExceeded dailyQuota)
  else
    let job ← orFail .invalidJob (ResearchJob.newNow userId keyword)
    let job := job.withMode mode
    orFail .infrastructure (ask (.insert job))
    dispatchOrFail .infrastructure .dispatchFailed job []

def seenUrlsLimit : Nat := 200

-- One due search: what it adds to the number of launched jobs.
def RunDueSearches.runOne (dailyQuota : Nat) (now : Int) (search : RecurringSearch) :
    UseCase PortError Nat := do
  let used ← orFail id (ask (.countCreatedSince search.userId (now - Duration.hours 24)))
  if used ≥ dailyQuota then
    orFail id (ask (.markRan search.id now))
    return 0
  else
    let seenUrls ← orFail id (ask (.recentUrlsForRecurring search.id seenUrlsLimit))
    let job ← orFail (fun e => ⟨e.message⟩) (ResearchJob.newNow search.userId search.keyword)
    let job := (job.withMode search.mode).withRecurring search.id
    orFail id (ask (.insert job))
    let dispatched : Except PortError Unit ← ask (.dispatch job seenUrls)
    match dispatched with
    | .ok () =>
        orFail id (ask (.markRan search.id now))
        return 1
    | .error e =>
        let job ← job.failNow s!"dispatch failed: {e.message}"
        orFail id (ask (.update job))
        orFail id (ask (.markRan search.id now))
        return 0

def RunDueSearches.runAll (dailyQuota : Nat) (now : Int) :
    List RecurringSearch → Nat → UseCase PortError Nat
  | [], launched => return launched
  | search :: due, launched => do
      let more ← RunDueSearches.runOne dailyQuota now search
      runAll dailyQuota now due (launched + more)

def RunDueSearches.execute (dailyQuota : Nat) : UseCase PortError Nat := do
  let now ← ask .utcNow
  let due ← orFail id (ask (.listDue now))
  RunDueSearches.runAll dailyQuota now due 0

structure JobConfig where
  dailyQuota : Nat
  timeoutSecs : Nat

-- The requests, worker notifications and ticks that touch jobs, each a program
-- with its own outcome.
inductive JobOp where
  | launch (userId : Uuid) (keyword : String) (mode : JobMode)
  | runDue
  | start (jobId : Uuid)
  | complete (jobId : Uuid) (results : List SearchResult)
  | recordStep (jobId : Uuid) (step : AgentStep)
  | requestInput (jobId : Uuid) (question : String)
  | recordUsage (jobId : Uuid) (usage : JobUsage)
  | fail (jobId : Uuid) (error : String)
  | answer (userId jobId : Uuid) (answer : String)
  | failStale
deriving DecidableEq

-- The operations that launch jobs; the others write to jobs they have read.
def JobOp.launches : JobOp → Bool
  | .launch _ _ _ | .runDue => true
  | _ => false

inductive JobOutcome where
  | launch (result : Except LaunchError ResearchJob)
  | tick (result : Except PortError Nat)
  | ingest (result : Except IngestError Unit)
  | answer (result : Except AnswerError ResearchJob)

def JobOp.program (config : JobConfig) : JobOp → Program JobPorts JobOutcome
  | .launch userId keyword mode => do
      return .launch (← (launchSearch config.dailyQuota userId keyword mode).run)
  | .runDue => do return .tick (← (RunDueSearches.execute config.dailyQuota).run)
  | .start jobId => do return .ingest (← (IngestResults.start jobId).run)
  | .complete jobId results => do return .ingest (← (IngestResults.complete jobId results).run)
  | .recordStep jobId step => do return .ingest (← (IngestResults.recordStep jobId step).run)
  | .requestInput jobId question => do
      return .ingest (← (IngestResults.requestInput jobId question).run)
  | .recordUsage jobId usage => do return .ingest (← (IngestResults.recordUsage jobId usage).run)
  | .fail jobId error => do return .ingest (← (IngestResults.fail jobId error).run)
  | .answer userId jobId text => do
      return .answer (← (answerClarification userId jobId text).run)
  | .failStale => do return .tick (← (FailStaleJobs.execute config.timeoutSecs).run)

end AgentBoilerplate.Job
