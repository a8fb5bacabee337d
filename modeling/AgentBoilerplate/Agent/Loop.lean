import AgentBoilerplate.Agent.Research

namespace AgentBoilerplate.Agent

open Python Effects

-- The arguments of a run of the agent mode, less the ports.
structure AgentTask where
  jobId : String
  goal : String
  critic : Bool
  clarifier : Bool
  clarification : Option String
  seenUrls : Option (List String)
  pageDates : Bool
  maxSteps : Nat
  budget : Option SpendGuard

def SpendGuard.exceeded (guard : SpendGuard) : Program AgentPorts Bool :=
  if guard.capUsd > 0 then do
    let usage ← ask .snapshot
    return usage.costUsd guard.pricing ≥ guard.capUsd
  else
    return false

-- `budget is not None and budget.exceeded()`.
def overBudget : Option SpendGuard → Program AgentPorts Bool
  | none => return false
  | some guard => guard.exceeded

-- The journal is cosmetic: losing a step never fails the job.
def report (jobId : String) (step : AgentStep) : Program AgentPorts Unit := do
  let _ ← ask (.reportStep jobId step)
  return ()

def costBudgetReason (budget : Option SpendGuard) : String :=
  "cost budget of $" ++ formatCents ((budget.map SpendGuard.capUsd).getD 0) ++ " exhausted"

def stepBudgetReason (maxSteps : Nat) : String :=
  "step budget of " ++ toString maxSteps ++ " exhausted"

def askedAgainReason : String :=
  "the policy asked for clarification again; finishing with what was found"

def repairReason : String := "Repair pass: filling the gap named by the self-critique"

def droppedReason (assessment : String) (dropped : Nat) : String :=
  if dropped = 0 then
    assessment
  else
    assessment ++ " (dropped " ++ toString dropped ++ " off-topic result" ++
      (if dropped > 1 then "s" else "") ++ ")"

def newReason (newCount : Nat) : String :=
  if newCount = 0 then "Nothing new since the last run"
  else toString newCount ++ " new result(s) since the last run"

-- The seq of the step after these.
def nextSeq (steps : List AgentStep) : Nat :=
  match steps.getLast? with
  | some last => last.seq + 1
  | none => 1

def searchesDone (steps : List AgentStep) : Nat := steps.countP fun step => step.kind = .search

-- Once answered, or without a clarifier, a question is a finish.
def askGuard (task : AgentTask) : AgentAction → AgentAction
  | .ask question reason =>
      if task.clarifier = false ∨ task.clarification ≠ none then .finish askedAgainReason
      else .ask question reason
  | action => action

section

variable [Unicode]

-- The hits whose canonical URL is not collected yet.
def newHits (collected : List String) : List RawSearchHit → Except PyException (List RawSearchHit)
  | [] => .ok []
  | hit :: hits => do
      let key ← normalizeUrl hit.url
      let new ← newHits collected hits
      return if key ∉ collected then hit :: new else new

def hitKeys (hits : List RawSearchHit) : Except PyException (List String) :=
  hits.mapM fun hit => normalizeUrl hit.url

-- What both orchestrators do with the collected hits; `seq` numbers the report.
def deliver (task : AgentTask) (hits : List RawSearchHit) (seq : Nat) :
    AgentRun (List ResearchResult) := do
  let results ← sortByPublicationDate <$> resolveHits task.pageDates hits
  match task.seenUrls with
  | none =>
      raising (ask (.deliver task.jobId results))
      return results
  | some seenUrls =>
      let results ← orRaise (flagNew results seenUrls)
      let newCount := results.countP fun result => result.isNew
      report task.jobId
        { seq := seq, kind := .report, detail := "", reason := newReason newCount, newHits := newCount }
      raising (ask (.deliver task.jobId results))
      return results

-- The variables of `run_agent_research`. A set is the list of what was added.
structure LoopState where
  hits : List RawSearchHit
  collectedUrls : List String
  steps : List AgentStep

-- Appends a step to the journal and reports it.
def LoopState.record (task : AgentTask) (state : LoopState) (step : AgentStep) :
    Program AgentPorts LoopState := do
  report task.jobId step
  return { state with steps := state.steps ++ [step] }

-- `_self_critique`.
def selfCritique (task : AgentTask) (state : LoopState) : AgentRun LoopState := do
  let critique ← raising (ask (.critique task.goal state.hits))
  let kept := state.hits.filter fun hit => hit.url ∉ critique.irrelevantUrls
  let dropped := state.hits.length - kept.length
  let step : AgentStep := {
    seq := nextSeq state.steps
    kind := .critique
    detail := critique.gapQuery.getD ""
    reason := droppedReason critique.assessment dropped }
  let state ← { state with hits := kept }.record task step
  let exhausted ← overBudget task.budget
  match critique.gapQuery with
  | none => return state
  | some gap =>
      if gap ≠ "" ∧ searchesDone state.steps < task.maxSteps ∧ exhausted = false then
        let found ← raising (ask (.search gap))
        let keptKeys ← orRaise (hitKeys kept)
        let new ← orRaise (newHits keptKeys found)
        { state with hits := kept ++ new }.record task {
          seq := step.seq + 1
          kind := .search
          detail := gap
          reason := repairReason
          newHits := new.length }
      else
        return state

-- `for seq in seqs`, with its `else`. None is the pause of a question.
def decisionLoop (task : AgentTask) : List Nat → LoopState → AgentRun (Option LoopState)
  | [], state => do
      let state ← state.record task {
        seq := task.maxSteps + 1
        kind := .finish
        detail := ""
        reason := stepBudgetReason task.maxSteps }
      return some state
  | seq :: seqs, state => do
      let exhausted ← overBudget task.budget
      if exhausted then
        let state ← state.record task {
          seq := seq
          kind := .finish
          detail := ""
          reason := costBudgetReason task.budget }
        return some state
      else
        let action ← raising (ask (.decide task.goal state.steps state.hits))
        match askGuard task action with
        | .ask question _ =>
            raising (ask (.requestClarification task.jobId question))
            return none
        | .search query reason =>
            let found ← raising (ask (.search query))
            let new ← orRaise (newHits state.collectedUrls found)
            let keys ← orRaise (hitKeys new)
            let state ← LoopState.record task
              { state with hits := state.hits ++ new, collectedUrls := state.collectedUrls ++ keys } {
                seq := seq
                kind := .search
                detail := query
                reason := reason
                newHits := new.length }
            decisionLoop task seqs state
        | .finish reason =>
            let state ← state.record task {
              seq := seq
              kind := .finish
              detail := ""
              reason := reason }
            return some state

-- The review pass, an extra call of the critic, is skipped once over budget.
def review (task : AgentTask) (state : LoopState) : AgentRun LoopState :=
  if task.critic then do
    let exhausted ← overBudget task.budget
    if exhausted then return state else selfCritique task state
  else
    return state

-- What follows the decisions.
def conclude (task : AgentTask) (state : LoopState) : AgentRun (Option (List ResearchResult)) := do
  let state ← review task state
  some <$> deliver task state.hits (nextSeq state.steps)

def agentResearch (task : AgentTask) : AgentRun (Option (List ResearchResult)) := do
  raising (ask (.markStarted task.jobId))
  match ← decisionLoop task (List.range' 1 task.maxSteps) ⟨[], [], []⟩ with
  | none => return none
  | some state => conclude task state

def runAgentResearch (task : AgentTask) :
    Program AgentPorts (Except PyException (Option (List ResearchResult))) :=
  reportingFailure task.jobId (agentResearch task)

end

end AgentBoilerplate.Agent
