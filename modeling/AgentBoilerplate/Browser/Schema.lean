import AgentBoilerplate.Agent.Dates
import AgentBoilerplate.Job.UseCases

-- The schemas that the page validates what it is sent with.
namespace AgentBoilerplate.Browser

open Agent (Json)

-- What a schema makes of a value, or of a property that is not there. Numbers are their
-- texts.
abbrev Schema (α : Type) := Option Json → Option α

namespace Schema

variable {α : Type}

def string : Schema String
  | some (.string text) => some text
  | _ => none

def number : Schema String
  | some (.number text) => some text
  | _ => none

def boolean : Schema Bool
  | some (.bool value) => some value
  | _ => none

-- The options of an enumeration, with what they stand for.
def enum (options : List (String × α)) : Schema α
  | some (.string text) => options.lookup text
  | _ => none

def nullable (schema : Schema α) : Schema (Option α)
  | some .null => some none
  | value => (schema value).map some

def array (schema : Schema α) : Schema (List α)
  | some (.array items) => items.mapM fun item => schema (some item)
  | _ => none

-- Other properties are stripped.
def object (properties : List (String × Json) → Option α) : Schema α
  | some (.object fields) => properties fields
  | _ => none

def property (schema : Schema α) (name : String) (fields : List (String × Json)) : Option α :=
  schema (Json.get fields name)

end Schema

open Schema

def dateConfidenceSchema : Schema Job.DateConfidence :=
  enum [("high", .high), ("medium", .medium), ("unknown", .unknown)]

def jobStatusSchema : Schema Job.JobStatus :=
  enum [("pending", .pending), ("running", .running), ("awaiting_input", .awaitingInput),
    ("completed", .completed), ("failed", .failed)]

def jobModeSchema : Schema Job.JobMode := enum [("workflow", .workflow), ("agent", .agent)]

def eventTypeSchema : Schema Job.EventType :=
  enum [("announcement", .announcement), ("release", .release), ("funding", .funding),
    ("legal", .legal), ("incident", .incident), ("research", .research), ("opinion", .opinion),
    ("other", .other)]

structure SearchResult where
  title : String
  url : String
  snippet : String
  publishedAt : Option String
  dateConfidence : Job.DateConfidence
  eventType : Job.EventType
  summary : Option String
  isNew : Bool
deriving DecidableEq, Repr

def searchResultSchema : Schema SearchResult := object fun fields => do
  return {
    title := ← string.property "title" fields
    url := ← string.property "url" fields
    snippet := ← string.property "snippet" fields
    publishedAt := ← string.nullable.property "published_at" fields
    dateConfidence := ← dateConfidenceSchema.property "date_confidence" fields
    eventType := ← eventTypeSchema.property "event_type" fields
    summary := ← string.nullable.property "summary" fields
    isNew := ← boolean.property "is_new" fields }

structure JobUsage where
  llmCalls : String
  llmInputTokens : String
  llmOutputTokens : String
  searchCalls : String
  costUsd : String
deriving DecidableEq, Repr

def jobUsageSchema : Schema JobUsage := object fun fields => do
  return {
    llmCalls := ← number.property "llm_calls" fields
    llmInputTokens := ← number.property "llm_input_tokens" fields
    llmOutputTokens := ← number.property "llm_output_tokens" fields
    searchCalls := ← number.property "search_calls" fields
    costUsd := ← number.property "cost_usd" fields }

structure SearchJob where
  id : String
  keyword : String
  mode : Job.JobMode
  status : Job.JobStatus
  error : Option String
  question : Option String
  answer : Option String
  recurringSearchId : Option String
  usage : JobUsage
  createdAt : String
  completedAt : Option String
deriving DecidableEq, Repr

-- The properties of `searchJobSchema`, which another schema extends.
def searchJobProperties (fields : List (String × Json)) : Option SearchJob := do
  return {
    id := ← string.property "id" fields
    keyword := ← string.property "keyword" fields
    mode := ← jobModeSchema.property "mode" fields
    status := ← jobStatusSchema.property "status" fields
    error := ← string.nullable.property "error" fields
    question := ← string.nullable.property "question" fields
    answer := ← string.nullable.property "answer" fields
    recurringSearchId := ← string.nullable.property "recurring_search_id" fields
    usage := ← jobUsageSchema.property "usage" fields
    createdAt := ← string.property "created_at" fields
    completedAt := ← string.nullable.property "completed_at" fields }

structure AgentStep where
  seq : String
  kind : String
  detail : String
  reason : String
  newHits : String
deriving DecidableEq, Repr

def agentStepSchema : Schema AgentStep := object fun fields => do
  return {
    seq := ← number.property "seq" fields
    kind := ← string.property "kind" fields
    detail := ← string.property "detail" fields
    reason := ← string.property "reason" fields
    newHits := ← number.property "new_hits" fields }

structure SearchJobDetail where
  job : SearchJob
  results : List SearchResult
  steps : List AgentStep
deriving DecidableEq, Repr

def SearchJobDetail.isTerminal (detail : SearchJobDetail) : Bool :=
  detail.job.status = .completed ∨ detail.job.status = .failed

def searchJobDetailSchema : Schema SearchJobDetail := object fun fields => do
  return {
    job := ← searchJobProperties fields
    results := ← searchResultSchema.array.property "results" fields
    steps := ← agentStepSchema.array.property "steps" fields }

namespace Schema

theorem array_map {α β : Type} {schema : Schema α} {write : β → Json} {read : β → α}
    (h : ∀ item, schema (some (write item)) = some (read item)) (items : List β) :
    schema.array (some (.array (items.map write))) = some (items.map read) := by
  unfold array
  dsimp only
  induction items with
  | nil => rfl
  | cons item items ih =>
      rw [List.map_cons, List.mapM_cons, h, ih]
      rfl

end Schema

end AgentBoilerplate.Browser
