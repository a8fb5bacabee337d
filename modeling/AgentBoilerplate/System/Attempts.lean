import AgentBoilerplate.Agent.Numbering
import AgentBoilerplate.Job.Journal

namespace AgentBoilerplate.System

open Effects Collections Python

def serializeStep (step : Agent.AgentStep) : Job.AgentStep where
  seq := step.seq
  kind := step.kind.value
  detail := step.detail
  reason := step.reason
  newHits := step.newHits

def dateConfidence : Agent.DateConfidence → Job.DateConfidence
  | .high => .high
  | .medium => .medium
  | .unknown => .unknown

def eventType : Agent.EventType → Job.EventType
  | .announcement => .announcement
  | .release => .release
  | .funding => .funding
  | .legal => .legal
  | .incident => .incident
  | .research => .research
  | .opinion => .opinion
  | .other => .other

-- Microseconds there, nanoseconds here.
def serializeResult (result : Agent.ResearchResult) : Job.SearchResult where
  title := result.title
  url := result.url
  snippet := result.snippet
  publishedAt := result.publishedAt.map fun date => date.instant * 1000
  dateConfidence := dateConfidence result.dateConfidence
  eventType := eventType result.eventType
  summary := result.summary
  isNew := result.isNew

-- What becomes of a request to the backend: it is not served, it is served and
-- its response is lost, or it is answered.
inductive Transit where
  | lost (exc : PyException)
  | unanswered (exc : PyException)
  | answered

-- The tasks that work on a job. The graph resumes its thread with an answer.
inductive Work where
  | workflow (keyword : String) (seenUrls : Option (List String)) (pageDates : Bool)
  | loop (task : Agent.AgentTask)
  | graph (task : Agent.AgentTask) (limit : Nat) (resumeAnswer : Option String)

-- One run of a task, and its surroundings: what the other ports answer, the
-- network, and the exception for a request that the backend refused.
structure Attempt where
  work : Work
  surroundings : Oracle Agent.AgentPorts
  transit : List (Event Agent.AgentPorts) → Transit
  refused : PyException

-- The backend, with the steps recorded since the journal was last cleared, and
-- whether the attempt that runs has delivered.
structure Backend where
  world : Job.JobWorld
  recorded : List Job.AgentStep
  delivered : Bool

-- What stays the same over a history: the backend's settings and surroundings,
-- the job, and the agent's step budget.
structure Setting where
  config : Job.JobConfig
  env : Job.JobEnv
  jobId : Uuid
  maxSteps : Nat

namespace Setting

variable (setting : Setting)

def succeeded : Job.JobOutcome → Bool
  | .ingest (.ok ()) => true
  | _ => false

-- Serves one operation on the job.
def serve (op : Job.JobOp) (backend : Backend) : Bool × Backend :=
  let served := setting.env.serve setting.config backend.world op
  let ok := succeeded served.1
  let recorded := match op with
    | .recordStep _ step => if ok then backend.recorded ++ [step] else backend.recorded
    | .answer _ _ _ =>
        if served.2.steps.of setting.jobId = [] then [] else backend.recorded
    | _ => backend.recorded
  let delivered := match op with
    | .complete _ _ => backend.delivered || ok
    | _ => backend.delivered
  (ok, ⟨served.2, recorded, delivered⟩)

-- A request of `HttpResultSink`: a status that is an error raises.
def send (attempt : Attempt) (op : Job.JobOp) (past : List (Event Agent.AgentPorts))
    (backend : Backend) : Except PyException Unit × Backend :=
  match attempt.transit past with
  | .lost exc => (.error exc, backend)
  | .unanswered exc => (.error exc, (setting.serve op backend).2)
  | .answered =>
      let served := setting.serve op backend
      (if served.1 then .ok () else .error attempt.refused, served.2)

def handle (attempt : Attempt) (past : List (Event Agent.AgentPorts)) :
    Handler Agent.AgentPorts Backend
  | .markStarted _, backend => setting.send attempt (.start setting.jobId) past backend
  | .requestClarification _ question, backend =>
      setting.send attempt (.requestInput setting.jobId question) past backend
  | .reportStep _ step, backend =>
      setting.send attempt (.recordStep setting.jobId (serializeStep step)) past backend
  | .deliver _ results, backend =>
      setting.send attempt (.complete setting.jobId (results.map serializeResult)) past backend
  | .reportFailure _ error, backend =>
      setting.send attempt (.fail setting.jobId error) past backend
  | request, backend => (attempt.surroundings past request, backend)

-- `checkpoint` is what the job's thread holds. All tasks have one step budget.
def program [Unicode] (checkpoint : Option Agent.Checkpoint) :
    Work → Program Agent.AgentPorts (Option Agent.GraphInvocation)
  | .workflow keyword seenUrls pageDates => do
      let _ ← Agent.runResearch setting.jobId.text keyword seenUrls pageDates
      return none
  | .loop task => do
      let _ ← Agent.runAgentResearch
        { task with jobId := setting.jobId.text, maxSteps := setting.maxSteps }
      return none
  | .graph task limit resumeAnswer => do
      let run ← Agent.runAgentGraph
        { task with jobId := setting.jobId.text, maxSteps := setting.maxSteps } limit checkpoint
        resumeAnswer
      return run.invocation

end Setting

def stepRecord (step : Agent.StepDict) : Job.AgentStep :=
  ⟨step.seq, step.kind, step.detail, step.reason, step.newHits⟩

-- The steps of the thread that a task resumes.
def Work.resumed (checkpoint : Option Agent.Checkpoint) : Work → List Agent.StepDict
  | .workflow _ _ _ | .loop _ => []
  | .graph _ _ resumeAnswer => Agent.taskSteps checkpoint resumeAnswer

-- The journal of an attempt: the steps of the thread it resumes, and its own.
def Work.journal (checkpoint : Option Agent.Checkpoint) (events : List (Event Agent.AgentPorts))
    (work : Work) : List Job.AgentStep :=
  (work.resumed checkpoint).map stepRecord ++
    (Agent.reports (Agent.marks events)).map serializeStep

-- What happens to a job: an attempt of the queue, an answer of the user, the
-- other operations that reach it, and a checkpoint that expires.
inductive Happening where
  | attempt (attempt : Attempt)
  | answer (userId : Uuid) (text : String)
  | recordUsage (usage : Job.JobUsage)
  | fail (error : String)
  | failStale
  | expire

-- `delivered` is the journal of the last attempt that delivered.
structure JobHistory where
  world : Job.JobWorld
  recorded : List Job.AgentStep
  checkpoint : Option Agent.Checkpoint
  delivered : Option (List Job.AgentStep)

namespace Setting

variable [Unicode] (setting : Setting)

def attempt (history : JobHistory) (attempt : Attempt) : JobHistory :=
  let ran := (setting.program history.checkpoint attempt.work).run
    (Handler.logged (setting.handle attempt)) (⟨history.world, history.recorded, false⟩, [])
  { world := ran.2.1.world
    recorded := ran.2.1.recorded
    checkpoint := (ran.1.map fun invocation => ⟨invocation.state, invocation.due⟩).or
      history.checkpoint
    delivered :=
      if ran.2.1.delivered then some (attempt.work.journal history.checkpoint ran.2.2)
      else history.delivered }

def operate (history : JobHistory) (op : Job.JobOp) : JobHistory :=
  let served := setting.serve op ⟨history.world, history.recorded, false⟩
  { history with world := served.2.world, recorded := served.2.recorded }

def advance (history : JobHistory) : Happening → JobHistory
  | .attempt attempt => setting.attempt history attempt
  | .answer userId text => setting.operate history (.answer userId setting.jobId text)
  | .recordUsage usage => setting.operate history (.recordUsage setting.jobId usage)
  | .fail error => setting.operate history (.fail setting.jobId error)
  | .failStale => setting.operate history .failStale
  | .expire => { history with checkpoint := none }

def after (world : Job.JobWorld) (happenings : List Happening) : JobHistory :=
  happenings.foldl setting.advance ⟨world, [], none, none⟩

end Setting

end AgentBoilerplate.System
