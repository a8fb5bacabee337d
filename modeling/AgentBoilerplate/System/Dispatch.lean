import AgentBoilerplate.Agent.JsonWriter
import AgentBoilerplate.Agent.Replies
import AgentBoilerplate.Effects.Refinement
import AgentBoilerplate.Job.Store

-- The hand-over of a job: the backend's dispatcher, the agent's API and its queue.
namespace AgentBoilerplate.System

open Effects Python Agent Agent.JsonDecoder Agent.JsonWriter

-- What the backend sends.
structure TaskRequest where
  jobId : Uuid
  keyword : String
  clarification : Option String
  mode : Job.JobMode
  recurring : Bool
  seenUrls : List String
deriving DecidableEq, Repr

def modeName : Job.JobMode → String
  | .workflow => "workflow"
  | .agent => "agent"

def textOrNull : Option String → Json
  | none => .null
  | some text => .string text

def TaskRequest.serialize (request : TaskRequest) : Json :=
  .object [
    ("job_id", .string request.jobId.text),
    ("keyword", .string request.keyword),
    ("clarification", textOrNull request.clarification),
    ("mode", .string (modeName request.mode)),
    ("recurring", .bool request.recurring),
    ("seen_urls", .array (request.seenUrls.map .string))]

def TaskRequest.ofJob (job : Job.ResearchJob) (seenUrls : List String) : TaskRequest where
  jobId := job.id
  keyword := job.keyword
  clarification := job.answer
  mode := job.mode
  recurring := job.recurringSearchId.isSome
  seenUrls := seenUrls

-- A request to the agent's API.
structure AgentRequest where
  url : String
  internalToken : String
  requestId : String
  body : List Char

structure HttpJobDispatcher where
  baseUrl : String
  internalToken : String

def HttpJobDispatcher.new (baseUrl internalToken : String) : HttpJobDispatcher where
  baseUrl := String.ofList (baseUrl.toList.rdropWhile fun c => c = '/')
  internalToken := internalToken

def HttpJobDispatcher.request (self : HttpJobDispatcher) (job : Job.ResearchJob)
    (seenUrls : List String) : AgentRequest where
  url := self.baseUrl ++ "/tasks"
  internalToken := self.internalToken
  requestId := job.id.text
  body := write (TaskRequest.ofJob job seenUrls).serialize

-- What a field of type `bool` makes of a value that is none.
class Pydantic where
  laxBool : Json → Option Bool

-- A field of type `bool`, by default `False`.
def validateBool [Pydantic] : Option Json → Option Bool
  | none => some false
  | some (.bool value) => some value
  | some value => Pydantic.laxBool value

-- The arguments of `run_research_task`.
structure ResearchTask where
  jobId : String
  keyword : String
  requestId : String
  mode : String
  clarification : Option String
  recurring : Bool
  seenUrls : List String
deriving DecidableEq, Repr

-- The body of `POST /tasks` as a task, whose `requestId` is its header.
def ResearchTask.validate [Pydantic] (requestId : String) (payload : List (String × Json)) :
    Option ResearchTask := do
  let jobId ← validateStr (Json.get payload "job_id")
  let keyword ← validateStr (Json.get payload "keyword")
  let mode ← match Json.get payload "mode" with
    | none => some "workflow"
    | some mode => validateStr (some mode)
  let clarification ← validateOptional (Json.get payload "clarification")
  let recurring ← validateBool (Json.get payload "recurring")
  let seenUrls ← validateStrings (Json.get payload "seen_urls")
  return {
    jobId, keyword, mode, clarification, recurring, seenUrls
    requestId := if requestId = "" then jobId else requestId }

structure AgentApi where
  internalApiToken : String
  recursionLimit : Nat
  nests : 2 ≤ recursionLimit

-- `enqueue_task`: the status, and the task that it has queued. The body is validated
-- before the token is looked at; `queued` tells whether the broker takes the task.
def AgentApi.enqueueTask [Pydantic] (api : AgentApi) (queued : Bool) (request : AgentRequest) :
    Nat × Option ResearchTask :=
  match loads api.recursionLimit request.body with
  | .error e => (if e.type = "JSONDecodeError" then 422 else 400, none)
  | .ok (.object payload) =>
      match ResearchTask.validate request.requestId payload with
      | none => (422, none)
      | some task =>
          if request.internalToken ≠ api.internalApiToken then
            (401, none)
          else if queued then
            (202, some task)
          else
            (500, none)
  | .ok _ => (422, none)

def statusText : Nat → String
  | 400 => "400 Bad Request"
  | 401 => "401 Unauthorized"
  | 422 => "422 Unprocessable Entity"
  | 500 => "500 Internal Server Error"
  | status => toString status

-- What becomes of a request: it does not arrive, it is served and the response is lost,
-- or it is answered.
inductive Exchange where
  | unreachable (e : String)
  | unanswered (e : String)
  | answered

-- `HttpJobDispatcher::dispatch`, with the task that it leaves in the queue.
def HttpJobDispatcher.dispatch [Pydantic] (self : HttpJobDispatcher) (api : AgentApi)
    (exchange : Exchange) (queued : Bool) (job : Job.ResearchJob) (seenUrls : List String) :
    Except PortError Unit × Option ResearchTask :=
  let served := api.enqueueTask queued (self.request job seenUrls)
  match exchange with
  | .unreachable e => (.error ⟨"agent API unreachable: " ++ e⟩, none)
  | .unanswered e => (.error ⟨"agent API unreachable: " ++ e⟩, served.2)
  | .answered =>
      (if 200 ≤ served.1 ∧ served.1 < 300 then .ok ()
        else .error ⟨"agent API returned " ++ statusText served.1⟩, served.2)

-- The task that a job is for the workers.
def ResearchTask.ofJob (job : Job.ResearchJob) (seenUrls : List String) : ResearchTask where
  jobId := job.id.text
  keyword := job.keyword
  requestId := job.id.text
  mode := modeName job.mode
  clarification := job.answer
  recurring := job.recurringSearchId.isSome
  seenUrls := seenUrls

section Bodies

theorem validateStrings_map (texts : List String) :
    validateStrings (some (.array (texts.map .string))) = some texts := by
  unfold validateStrings
  dsimp only
  induction texts with
  | nil => rfl
  | cons text texts ih =>
      rw [List.map_cons, List.mapM_cons, ih]
      rfl

theorem validateOptional_textOrNull (text : Option String) :
    validateOptional (some (textOrNull text)) = some text := by
  cases text <;> rfl

theorem serialize_fits (request : TaskRequest) {limit : Nat} (hlimit : 2 ≤ limit) :
    Fits limit request.serialize := by
  obtain ⟨depth, rfl⟩ := Nat.exists_eq_add_of_le' hlimit
  intro field hfield
  simp only [List.mem_cons, List.not_mem_nil, or_false] at hfield
  obtain rfl | rfl | rfl | rfl | rfl | rfl := hfield
  · trivial
  · trivial
  · cases request.clarification <;> trivial
  · trivial
  · trivial
  · intro item hitem
    obtain ⟨text, -, rfl⟩ := List.mem_map.mp hitem
    cases depth <;> trivial

variable [Pydantic]

-- The API takes the body for the job that it was written for.
theorem validate_serialize (job : Job.ResearchJob) (seenUrls : List String) :
    ∃ payload, (TaskRequest.ofJob job seenUrls).serialize = .object payload ∧
      ResearchTask.validate job.id.text payload = some (.ofJob job seenUrls) := by
  refine ⟨_, rfl, ?_⟩
  have hid : (if job.id.text = "" then job.id.text else job.id.text) = job.id.text := ite_self _
  change (do
    let mode ← some (modeName job.mode)
    let clarification ← validateOptional (some (textOrNull job.answer))
    let seenUrls ← validateStrings (some (.array (seenUrls.map .string)))
    some ({
      jobId := job.id.text
      keyword := job.keyword
      requestId := if job.id.text = "" then job.id.text else job.id.text
      mode, clarification, seenUrls
      recurring := job.recurringSearchId.isSome } : ResearchTask)) = _
  rw [validateOptional_textOrNull, validateStrings_map, hid]
  rfl

-- What the API makes of a dispatch: the task of that job, where the tokens agree and the
-- broker takes it.
theorem enqueueTask_request (self : HttpJobDispatcher) (api : AgentApi) (queued : Bool)
    (job : Job.ResearchJob) (seenUrls : List String) :
    api.enqueueTask queued (self.request job seenUrls) =
      if self.internalToken ≠ api.internalApiToken then (401, none)
      else if queued then (202, some (.ofJob job seenUrls))
      else (500, none) := by
  obtain ⟨payload, hpayload, hvalidate⟩ := validate_serialize job seenUrls
  have hloads : loads api.recursionLimit (self.request job seenUrls).body =
      .ok (.object payload) := by
    rw [← hpayload]
    exact loads_write (serialize_fits _ api.nests)
  unfold AgentApi.enqueueTask
  rw [hloads]
  dsimp only
  rw [show (self.request job seenUrls).requestId = job.id.text from rfl, hvalidate]
  rfl

end Bodies

-- The backend's stores, and the queue of the agent.
structure Wired where
  world : Job.JobWorld
  queue : List ResearchTask

-- After an exchange.
def Wired.dispatched (wired : Wired) (job : Job.ResearchJob) (seenUrls : List String)
    (sent : Except PortError Unit × Option ResearchTask) : Wired where
  world := { wired.world with
    calls := wired.world.calls + 1
    dispatched := match sent.1 with
      | .ok () => wired.world.dispatched ++ [(job, seenUrls)]
      | .error _ => wired.world.dispatched }
  queue := wired.queue ++ sent.2.toList

-- What connects them: what becomes of each exchange, and whether the broker takes a task.
structure Wiring where
  env : Job.JobEnv
  dispatcher : HttpJobDispatcher
  api : AgentApi
  exchange : Nat → Exchange
  queues : Nat → Bool

namespace Wiring

variable [Pydantic] (wiring : Wiring)

def dispatch (world : Job.JobWorld) (job : Job.ResearchJob) (seenUrls : List String) :
    Except PortError Unit × Option ResearchTask :=
  wiring.dispatcher.dispatch wiring.api (wiring.exchange world.calls) (wiring.queues world.calls)
    job seenUrls

def handle : Handler Job.JobPorts Wired
  | .dispatch job seenUrls, wired =>
      let sent := wiring.dispatch wired.world job seenUrls
      (sent.1, wired.dispatched job seenUrls sent)
  | request, wired =>
      ((wiring.env.handle request wired.world).1,
        { wired with world := (wiring.env.handle request wired.world).2 })

end Wiring

-- Operations in flight, with nothing in the queue yet.
abbrev WiredRuns (ι : Type) := Config Job.JobPorts Wired ι Job.JobOutcome

def wiredRuns {ι : Type} (config : Job.JobConfig) (world : Job.JobWorld) (ops : ι → Job.JobOp) :
    WiredRuns ι :=
  .start ⟨world, []⟩ fun i => (ops i).program config

-- The dispatches among some calls, and those that were accepted.
def dispatches (past : List (Event Job.JobPorts)) : List (Job.ResearchJob × List String) :=
  past.filterMap fun
    | ⟨.dispatch job seenUrls, _⟩ => some (job, seenUrls)
    | _ => none

def accepted (past : List (Event Job.JobPorts)) : List (Job.ResearchJob × List String) :=
  past.filterMap fun
    | ⟨.dispatch job seenUrls, .ok ()⟩ => some (job, seenUrls)
    | _ => none

def tasksOf (jobs : List (Job.ResearchJob × List String)) : List ResearchTask :=
  jobs.map fun sent => .ofJob sent.1 sent.2

theorem tasksOf_append (first second : List (Job.ResearchJob × List String)) :
    tasksOf (first ++ second) = tasksOf first ++ tasksOf second := List.map_append

theorem accepted_append (past : List (Event Job.JobPorts)) (event : Event Job.JobPorts) :
    tasksOf (accepted (past ++ [event])) =
      tasksOf (accepted past) ++ tasksOf (accepted [event]) := by
  unfold accepted
  rw [List.filterMap_append, tasksOf_append]

theorem dispatches_append (past : List (Event Job.JobPorts)) (event : Event Job.JobPorts) :
    tasksOf (dispatches (past ++ [event])) =
      tasksOf (dispatches past) ++ tasksOf (dispatches [event]) := by
  unfold dispatches
  rw [List.filterMap_append, tasksOf_append]

-- The ports of the use cases, as calls that may fail.
def jobFaults (env : Job.JobEnv) : Faulty Job.JobPorts Job.JobWorld PortError where
  handle fault := { env with fault := fun _ => fault }.handle
  counted
    | .utcNow | .newUuid => false
    | _ => true
  asked world := world.calls
  asked_handle fault request world := by
    cases request <;> first
      | rfl
      | cases fault <;> rfl
  unaffected fault request world h := by
    cases request <;> first
      | rfl
      | cases h

theorem jobFaults_under (env : Job.JobEnv) (faults : Nat → Option PortError) :
    (jobFaults env).under faults = { env with fault := faults }.handle := by
  funext request world
  cases request <;> rfl

-- The queue, between what was accepted and what was sent.
structure Carried (wired : Wired) (past : List (Event Job.JobPorts)) : Prop where
  kept : (tasksOf (accepted past)).Sublist wired.queue
  sent : wired.queue.Sublist (tasksOf (dispatches past))

theorem Carried.append {wired wired' : Wired} {past : List (Event Job.JobPorts)}
    (h : Carried wired past) {event : Event Job.JobPorts} {task : Option ResearchTask}
    (hqueue : wired'.queue = wired.queue ++ task.toList)
    (hkept : (tasksOf (accepted [event])).Sublist task.toList)
    (hsent : task.toList.Sublist (tasksOf (dispatches [event]))) :
    Carried wired' (past ++ [event]) := by
  refine ⟨?_, ?_⟩
  · rw [accepted_append, hqueue]
    exact h.kept.append hkept
  · rw [dispatches_append, hqueue]
    exact h.sent.append hsent

section Carried

variable [Pydantic] (wiring : Wiring)

-- A dispatch is accepted with its task in the queue, and leaves no other one.
theorem dispatch_cases (world : Job.JobWorld) (job : Job.ResearchJob) (seenUrls : List String) :
    wiring.dispatch world job seenUrls = (.ok (), some (.ofJob job seenUrls)) ∨
      ∃ e task, wiring.dispatch world job seenUrls = (.error e, task) ∧
        (task = none ∨ task = some (.ofJob job seenUrls)) := by
  unfold Wiring.dispatch HttpJobDispatcher.dispatch
  rw [enqueueTask_request]
  dsimp only
  have hserved : ∀ e : PortError, ∃ e' task,
      ((.error e, (if wiring.dispatcher.internalToken ≠ wiring.api.internalApiToken then (401, none)
        else if wiring.queues world.calls then (202, some (ResearchTask.ofJob job seenUrls))
        else (500, none)).2) : Except PortError Unit × Option ResearchTask) = (.error e', task) ∧
          (task = none ∨ task = some (.ofJob job seenUrls)) := by
    intro e
    split
    · exact ⟨e, none, rfl, Or.inl rfl⟩
    · split
      · exact ⟨e, _, rfl, Or.inr rfl⟩
      · exact ⟨e, none, rfl, Or.inl rfl⟩
  cases wiring.exchange world.calls with
  | unreachable e => exact Or.inr ⟨_, none, rfl, Or.inl rfl⟩
  | unanswered e => exact Or.inr (hserved _)
  | answered =>
      dsimp only
      split
      · exact Or.inr ⟨_, none, rfl, Or.inl rfl⟩
      · split
        · exact Or.inl rfl
        · exact Or.inr ⟨_, none, rfl, Or.inl rfl⟩

theorem handle_dispatch (job : Job.ResearchJob) (seenUrls : List String) (wired : Wired) :
    wiring.handle (.dispatch job seenUrls) wired =
      ((wiring.dispatch wired.world job seenUrls).1,
        wired.dispatched job seenUrls (wiring.dispatch wired.world job seenUrls)) := rfl

-- The wired ports are the ports of the use cases, whose failures are those of the
-- exchanges.
theorem simulatedBy_wiring :
    (jobFaults wiring.env).SimulatedBy (fun wired world => wired.world = world) wiring.handle := by
  refine ⟨fun request wired world hworld => ?_⟩
  subst hworld
  cases request with
  | dispatch job seenUrls =>
      rw [handle_dispatch wiring]
      obtain hsent | ⟨e, task, hsent, -⟩ := dispatch_cases wiring wired.world job seenUrls
      · rw [hsent]
        exact ⟨none, rfl, rfl⟩
      · rw [hsent]
        exact ⟨some e, rfl, rfl⟩
  | _ => exact ⟨wiring.env.fault wired.world.calls, rfl, rfl⟩

theorem Carried.handle {wired : Wired} {past : List (Event Job.JobPorts)} (h : Carried wired past)
    (request : Job.JobCall) :
    Carried (wiring.handle request wired).2
      (past ++ [⟨request, (wiring.handle request wired).1⟩]) := by
  cases request with
  | dispatch job seenUrls =>
      rw [handle_dispatch wiring]
      obtain hsent | ⟨e, task, hsent, rfl | rfl⟩ :=
        dispatch_cases wiring wired.world job seenUrls
      all_goals rw [hsent]
      · exact h.append rfl (List.Sublist.refl _) (List.Sublist.refl _)
      · exact h.append rfl (List.Sublist.refl _) (List.nil_sublist _)
      · exact h.append rfl (List.nil_sublist _) (List.Sublist.refl _)
  | _ =>
      have hqueue : wired.queue = wired.queue ++ (none : Option ResearchTask).toList :=
        (List.append_nil _).symm
      exact h.append hqueue (List.Sublist.refl _) (List.Sublist.refl _)

end Carried

-- Whatever becomes of the exchanges with the agent's API, and whatever the order of the
-- calls: the operations run as they do on their ports, some of whose calls fail, and the
-- queue is what was dispatched. Nothing that was accepted is missing, nothing is there
-- twice, and each task says of its job what the job says.
theorem tasks_carried [Pydantic] {ι : Type} [DecidableEq ι] (wiring : Wiring)
    (config : Job.JobConfig) (world : Job.JobWorld) (ops : ι → Job.JobOp) (schedule : List ι) :
    let c := (wiredRuns config world ops).run wiring.handle schedule
    let history := (wiredRuns config world ops).history wiring.handle schedule
    (∃ faults,
      let a := (Job.jobRuns config world ops).run
        { wiring.env with fault := faults }.handle schedule
      a.threads = c.threads ∧ a.store = c.store.world) ∧
    (tasksOf (accepted history)).Sublist c.store.queue ∧
    c.store.queue.Sublist (tasksOf (dispatches history)) := by
  intro c history
  constructor
  · have hstore : (wiredRuns config world ops).store.world =
        (Job.jobRuns config world ops).store := rfl
    obtain ⟨faults, hthreads, hworld⟩ := (simulatedBy_wiring wiring).run rfl hstore schedule
    rw [jobFaults_under] at hthreads hworld
    exact ⟨faults, hthreads, hworld.symm⟩
  · have hcarried : Carried c.store ([] ++ history) :=
      Config.run_history (fun c past => Carried c.store past)
        (fun _ _ _ request _ h _ => h.handle wiring request) schedule
        ⟨List.Sublist.refl _, List.Sublist.refl _⟩
    exact ⟨hcarried.kept, hcarried.sent⟩

end AgentBoilerplate.System
