import AgentBoilerplate.Agent.Loop
import AgentBoilerplate.Effects.StateGraph

namespace AgentBoilerplate.Agent

open Python Effects

-- The state holds only what JSON can; `isoformat` and `fromisoformat` carry
-- a date over unchanged.
structure HitDict where
  title : String
  url : String
  snippet : String
  publishedAt : Option DateTime
  raw : List (String × Json)

def hitToDict (hit : RawSearchHit) : HitDict :=
  ⟨hit.title, hit.url, hit.snippet, hit.publishedAt, hit.raw⟩

def hitFromDict (data : HitDict) : RawSearchHit :=
  ⟨data.title, data.url, data.snippet, data.publishedAt, data.raw⟩

structure StepDict where
  seq : Nat
  kind : String
  detail : String
  reason : String
  newHits : Nat
deriving DecidableEq, Repr

def stepToDict (step : AgentStep) : StepDict :=
  ⟨step.seq, step.kind.value, step.detail, step.reason, step.newHits⟩

def AgentStepKind.ofValue (value : String) : Except PyException AgentStepKind :=
  if value = "search" then .ok .search
  else if value = "finish" then .ok .finish
  else if value = "critique" then .ok .critique
  else if value = "report" then .ok .report
  else if value = "knowledge" then .ok .knowledge
  else .error (valueError ("'" ++ value ++ "' is not a valid AgentStepKind"))

def stepFromDict (data : StepDict) : Except PyException AgentStep := do
  let kind ← AgentStepKind.ofValue data.kind
  return ⟨data.seq, kind, data.detail, data.reason, data.newHits⟩

abbrev Dict := List (String × String)

def Dict.get (dict : Dict) (key : String) : Except PyException String :=
  match dict.lookup key with
  | some value => .ok value
  | none => .error ⟨"KeyError", "'" ++ key ++ "'"⟩

def actionToDict : AgentAction → Dict
  | .search query reason => [("kind", "search"), ("query", query), ("reason", reason)]
  | .ask question reason => [("kind", "ask"), ("question", question), ("reason", reason)]
  | .finish reason => [("kind", "finish"), ("reason", reason)]

-- `collected` are the canonical URLs already seen, `next` the decided action.
structure GraphState where
  goal : String
  clarification : Option String
  asked : Bool
  hits : List HitDict
  collected : List String
  steps : List StepDict
  next : Dict

def searchesDoneDict (steps : List StepDict) : Nat :=
  steps.countP fun step => step.kind = AgentStepKind.search.value

inductive Node where
  | decide
  | search
  | ask
  | finalize
  | critique
deriving DecidableEq, Repr

def clarifiedGoal (goal : String) : Option String → String
  | none => goal
  | some clarification =>
      if clarification = "" then goal
      else goal ++ " (user clarification: \"" ++ clarification ++ "\")"

-- `_goal_with_clarification`.
def GraphState.goalWithClarification (state : GraphState) : String :=
  clarifiedGoal state.goal state.clarification

-- `_apply_ask_guard`.
def applyAskGuard (task : AgentTask) (state : GraphState) : AgentAction → AgentAction
  | .ask question reason =>
      if task.clarifier = false ∨ state.asked ∨ state.clarification ≠ none then
        .finish askedAgainReason
      else
        .ask question reason
  | action => action

def GraphState.record (task : AgentTask) (state : GraphState) (step : AgentStep) :
    Program AgentPorts GraphState := do
  report task.jobId step
  return { state with steps := state.steps ++ [stepToDict step] }

namespace Node

abbrev Run := AgentRun (NodeResult GraphState String)

def runDecide (task : AgentTask) (state : GraphState) : Run := do
  if searchesDoneDict state.steps ≥ task.maxSteps then
    return .update { state with next := [("kind", "finish"),
      ("reason", stepBudgetReason task.maxSteps)] }
  else
    let exhausted ← overBudget task.budget
    if exhausted then
      return .update { state with next := [("kind", "finish"),
        ("reason", costBudgetReason task.budget)] }
    else
      let steps ← orRaise (state.steps.mapM stepFromDict)
      let action ← raising (Agent.ask
        (.decide state.goalWithClarification steps (state.hits.map hitFromDict)))
      return .update { state with next := actionToDict (applyAskGuard task state action) }

variable [Unicode]

def runSearch (task : AgentTask) (state : GraphState) : Run := do
  let query ← orRaise (state.next.get "query")
  let reason ← orRaise (state.next.get "reason")
  let found ← raising (Agent.ask (.search query))
  let new ← orRaise (newHits state.collected found)
  let state ← state.record task {
    seq := state.steps.length + 1
    kind := .search
    detail := query
    reason := reason
    newHits := new.length }
  let keys ← orRaise (hitKeys new)
  return .update { state with
    hits := state.hits ++ new.map hitToDict
    collected := state.collected ++ keys }

-- `interrupt` pauses, and answers when the node runs again.
def runAsk (resume : Option String) (state : GraphState) : Run := do
  let question ← orRaise (state.next.get "question")
  match resume with
  | none => return .interrupt question
  | some answer => return .update { state with clarification := some answer, asked := true }

def runFinalize (task : AgentTask) (state : GraphState) : Run := do
  let reason ← orRaise (state.next.get "reason")
  let state ← state.record task {
    seq := state.steps.length + 1
    kind := .finish
    detail := ""
    reason := reason }
  return .update state

-- The collection of the state is not updated: no search follows.
def runCritique (task : AgentTask) (state : GraphState) : Run := do
  let exhausted ← overBudget task.budget
  if exhausted then
    return .update state
  else
    let hits := state.hits.map hitFromDict
    let verdict ← raising (Agent.ask (.critique state.goalWithClarification hits))
    let kept := hits.filter fun hit => hit.url ∉ verdict.irrelevantUrls
    let dropped := hits.length - kept.length
    let state ← { state with hits := kept.map hitToDict }.record task {
      seq := state.steps.length + 1
      kind := .critique
      detail := verdict.gapQuery.getD ""
      reason := droppedReason verdict.assessment dropped }
    let exhausted ← overBudget task.budget
    match verdict.gapQuery with
    | none => return .update state
    | some gap =>
        if gap ≠ "" ∧ searchesDoneDict state.steps < task.maxSteps ∧ exhausted = false then
          let found ← raising (Agent.ask (.search gap))
          let keptKeys ← orRaise (hitKeys kept)
          let new ← orRaise (newHits keptKeys found)
          let state ← { state with hits := (kept ++ new).map hitToDict }.record task {
            seq := state.steps.length + 1
            kind := .search
            detail := gap
            reason := repairReason
            newHits := new.length }
          return .update state
        else
          return .update state

end Node

-- `route`, over the edges declared for "decide".
def route (state : GraphState) : Except PyException (Option Node) := do
  let kind ← state.next.get "kind"
  if kind = "search" then return some .search
  else if kind = "ask" then return some .ask
  else if kind = "finish" then return some .finalize
  else throw ⟨"KeyError", "'" ++ kind ++ "'"⟩

section

variable [Unicode]

-- `_build_graph`. The node "critique" is there only with a critic.
def buildGraph (task : AgentTask) : StateGraph AgentPorts PyException Node GraphState String where
  start := .decide
  node node resume state :=
    match node with
    | .decide => Node.runDecide task state
    | .search => Node.runSearch task state
    | .ask => Node.runAsk resume state
    | .finalize => Node.runFinalize task state
    | .critique => Node.runCritique task state
  next node state :=
    match node with
    | .decide => route state
    | .search => .ok (some .decide)
    | .ask => .ok (some .decide)
    | .finalize => .ok (if task.critic then some .critique else none)
    | .critique => .ok none

abbrev GraphInvocation := Invocation PyException Node GraphState String

-- What a thread of the checkpointer holds: the state and the node that is due.
structure Checkpoint where
  state : GraphState
  due : Option Node

def initialState (task : AgentTask) (resumeAnswer : Option String) : GraphState :=
  let informed := task.clarification.or resumeAnswer
  { goal := task.goal
    clarification := informed
    asked := informed.isSome
    hits := []
    collected := []
    steps := []
    next := [] }

-- Resumes from the checkpoint when there is an answer for it, else starts
-- fresh. `limit` is the super-steps that the framework allows.
def startGraph (task : AgentTask) (limit : Nat) (checkpoint : Option Checkpoint)
    (resumeAnswer : Option String) : Program AgentPorts GraphInvocation :=
  match resumeAnswer, checkpoint with
  | some answer, some ⟨state, some due⟩ =>
      (buildGraph task).invoke limit [] due (some answer) state
  | some _, some ⟨state, none⟩ => return ⟨[], state, none, .finished⟩
  | _, _ =>
      (buildGraph task).invoke limit [] (buildGraph task).start none (initialState task resumeAnswer)

def recursionError (limit : Nat) : PyException :=
  ⟨"GraphRecursionError", "Recursion limit of " ++ toString limit ++
    " reached without hitting a stop condition. You can increase the limit by setting the " ++
    "`recursion_limit` config key."⟩

-- What follows `invoke`: the pause, or the delivery.
def settle (task : AgentTask) (limit : Nat) (invocation : GraphInvocation) :
    AgentRun (Option (List ResearchResult)) :=
  match invocation.ending with
  | .raised exc => throw exc
  | .outOfSteps => throw (recursionError limit)
  | .interrupted question =>
      if task.clarifier then do
        raising (ask (.requestClarification task.jobId question))
        return none
      else
        throw ⟨"AssertionError", ""⟩
  | .finished =>
      some <$> deliver task (invocation.state.hits.map hitFromDict)
        (invocation.state.steps.length + 1)

-- A task of the graph: how far the graph ran, if it was started, and what the
-- task returned or raised.
structure GraphRun where
  invocation : Option GraphInvocation
  result : Except PyException (Option (List ResearchResult))

def runAgentGraph (task : AgentTask) (limit : Nat) (checkpoint : Option Checkpoint)
    (resumeAnswer : Option String) : Program AgentPorts GraphRun := do
  match ← reportingFailure task.jobId (raising (ask (.markStarted task.jobId))) with
  | .error exc => return ⟨none, .error exc⟩
  | .ok _ =>
      let invocation ← startGraph task limit checkpoint resumeAnswer
      let result ← reportingFailure task.jobId (settle task limit invocation)
      return ⟨some invocation, result⟩

end

end AgentBoilerplate.Agent
