import AgentBoilerplate.Browser.StreamSearch
import AgentBoilerplate.Job.Snapshots
import AgentBoilerplate.System.Dispatch

-- The updates of a job, from the backend's stream to the page.
namespace AgentBoilerplate.System

open Effects Python Agent Agent.JsonWriter

structure NumberText where
  text : String
  number : IsNumber text.toList

-- The texts of numbers and instants on the wire, and what a result keeps of its provider.
structure Wire where
  integer : Int → NumberText
  real : Rat → NumberText
  instant : Int → String
  raw : Job.SearchResult → Json
  rawFits : ∀ result, ∃ depth, Fits depth (raw result)

def statusName : Job.JobStatus → String
  | .pending => "pending"
  | .running => "running"
  | .awaitingInput => "awaiting_input"
  | .completed => "completed"
  | .failed => "failed"

def confidenceName : Job.DateConfidence → String
  | .high => "high"
  | .medium => "medium"
  | .unknown => "unknown"

def eventTypeName : Job.EventType → String
  | .announcement => "announcement"
  | .release => "release"
  | .funding => "funding"
  | .legal => "legal"
  | .incident => "incident"
  | .research => "research"
  | .opinion => "opinion"
  | .other => "other"

namespace Wire

variable (wire : Wire)

-- The properties of a value come in the order of their names.
def usage (usage : Job.JobUsage) : Json :=
  .object [
    ("cost_usd", .number (wire.real usage.costUsd).text),
    ("llm_calls", .number (wire.integer usage.llmCalls).text),
    ("llm_input_tokens", .number (wire.integer usage.llmInputTokens).text),
    ("llm_output_tokens", .number (wire.integer usage.llmOutputTokens).text),
    ("search_calls", .number (wire.integer usage.searchCalls).text)]

def result (result : Job.SearchResult) : Json :=
  .object [
    ("date_confidence", .string (confidenceName result.dateConfidence)),
    ("event_type", .string (eventTypeName result.eventType)),
    ("is_new", .bool result.isNew),
    ("published_at", textOrNull (result.publishedAt.map wire.instant)),
    ("raw", wire.raw result),
    ("snippet", .string result.snippet),
    ("summary", textOrNull result.summary),
    ("title", .string result.title),
    ("url", .string result.url)]

def step (step : Job.AgentStep) : Json :=
  .object [
    ("detail", .string step.detail),
    ("kind", .string step.kind),
    ("new_hits", .number (wire.integer step.newHits).text),
    ("reason", .string step.reason),
    ("seq", .number (wire.integer step.seq).text)]

-- `JobDetailView`, whose job is flattened.
def detail (detail : Job.JobDetailView) : List (String × Json) :=
  let job := detail.job
  [ ("answer", textOrNull job.answer),
    ("completed_at", textOrNull (job.completedAt.map wire.instant)),
    ("created_at", .string (wire.instant job.createdAt)),
    ("error", textOrNull job.error),
    ("id", .string job.id.text),
    ("keyword", .string job.keyword),
    ("mode", .string (modeName job.mode)),
    ("question", textOrNull job.question),
    ("recurring_search_id", textOrNull (job.recurringSearchId.map Uuid.text)),
    ("results", .array (detail.results.map wire.result)),
    ("status", .string (statusName job.status)),
    ("steps", .array (detail.steps.map wire.step)),
    ("usage", wire.usage job.usage)]

def payload (detail : Job.JobDetailView) : List Char := write (.object (wire.detail detail))

-- What the page has of a job.
def usageView (usage : Job.JobUsage) : Browser.JobUsage where
  llmCalls := (wire.integer usage.llmCalls).text
  llmInputTokens := (wire.integer usage.llmInputTokens).text
  llmOutputTokens := (wire.integer usage.llmOutputTokens).text
  searchCalls := (wire.integer usage.searchCalls).text
  costUsd := (wire.real usage.costUsd).text

def resultView (result : Job.SearchResult) : Browser.SearchResult where
  title := result.title
  url := result.url
  snippet := result.snippet
  publishedAt := result.publishedAt.map wire.instant
  dateConfidence := result.dateConfidence
  eventType := result.eventType
  summary := result.summary
  isNew := result.isNew

def stepView (step : Job.AgentStep) : Browser.AgentStep where
  seq := (wire.integer step.seq).text
  kind := step.kind
  detail := step.detail
  reason := step.reason
  newHits := (wire.integer step.newHits).text

def view (detail : Job.JobDetailView) : Browser.SearchJobDetail where
  job := {
    id := detail.job.id.text
    keyword := detail.job.keyword
    mode := detail.job.mode
    status := detail.job.status
    error := detail.job.error
    question := detail.job.question
    answer := detail.job.answer
    recurringSearchId := detail.job.recurringSearchId.map Uuid.text
    usage := wire.usageView detail.job.usage
    createdAt := wire.instant detail.job.createdAt
    completedAt := detail.job.completedAt.map wire.instant }
  results := detail.results.map wire.resultView
  steps := detail.steps.map wire.stepView

end Wire

section Contract

variable (wire : Wire)

theorem nullable_textOrNull (text : Option String) :
    Browser.Schema.string.nullable (some (textOrNull text)) = some text := by
  cases text <;> rfl

theorem dateConfidenceSchema_name (confidence : Job.DateConfidence) :
    Browser.dateConfidenceSchema (some (.string (confidenceName confidence))) =
      some confidence := by
  cases confidence <;> rfl

theorem eventTypeSchema_name (eventType : Job.EventType) :
    Browser.eventTypeSchema (some (.string (eventTypeName eventType))) = some eventType := by
  cases eventType <;> rfl

theorem jobModeSchema_name (mode : Job.JobMode) :
    Browser.jobModeSchema (some (.string (modeName mode))) = some mode := by
  cases mode <;> rfl

theorem jobStatusSchema_name (status : Job.JobStatus) :
    Browser.jobStatusSchema (some (.string (statusName status))) = some status := by
  cases status <;> rfl

theorem searchResultSchema_result (result : Job.SearchResult) :
    Browser.searchResultSchema (some (wire.result result)) = some (wire.resultView result) := by
  change (do
    let publishedAt ← Browser.Schema.string.nullable
      (some (textOrNull (result.publishedAt.map wire.instant)))
    let dateConfidence ← Browser.dateConfidenceSchema
      (some (.string (confidenceName result.dateConfidence)))
    let eventType ← Browser.eventTypeSchema (some (.string (eventTypeName result.eventType)))
    let summary ← Browser.Schema.string.nullable (some (textOrNull result.summary))
    some ({
      title := result.title, url := result.url, snippet := result.snippet
      publishedAt, dateConfidence, eventType, summary
      isNew := result.isNew } : Browser.SearchResult)) = _
  rw [nullable_textOrNull, dateConfidenceSchema_name, eventTypeSchema_name, nullable_textOrNull]
  rfl

theorem agentStepSchema_step (step : Job.AgentStep) :
    Browser.agentStepSchema (some (wire.step step)) = some (wire.stepView step) := rfl

theorem jobUsageSchema_usage (usage : Job.JobUsage) :
    Browser.jobUsageSchema (some (wire.usage usage)) = some (wire.usageView usage) := rfl

theorem searchJobProperties_detail (detail : Job.JobDetailView) :
    Browser.searchJobProperties (wire.detail detail) = some (wire.view detail).job := by
  change (do
    let mode ← Browser.jobModeSchema (some (.string (modeName detail.job.mode)))
    let status ← Browser.jobStatusSchema (some (.string (statusName detail.job.status)))
    let error ← Browser.Schema.string.nullable (some (textOrNull detail.job.error))
    let question ← Browser.Schema.string.nullable (some (textOrNull detail.job.question))
    let answer ← Browser.Schema.string.nullable (some (textOrNull detail.job.answer))
    let recurringSearchId ← Browser.Schema.string.nullable
      (some (textOrNull (detail.job.recurringSearchId.map Uuid.text)))
    let usage ← Browser.jobUsageSchema (some (wire.usage detail.job.usage))
    let completedAt ← Browser.Schema.string.nullable
      (some (textOrNull (detail.job.completedAt.map wire.instant)))
    some ({
      id := detail.job.id.text, keyword := detail.job.keyword
      mode, status, error, question, answer, recurringSearchId, usage
      createdAt := wire.instant detail.job.createdAt, completedAt } : Browser.SearchJob)) = _
  simp only [nullable_textOrNull, jobModeSchema_name, jobStatusSchema_name, jobUsageSchema_usage]
  rfl

-- The page's schema takes what the backend writes, and reads in it what was written.
theorem searchJobDetailSchema_detail (detail : Job.JobDetailView) :
    Browser.searchJobDetailSchema (some (.object (wire.detail detail))) =
      some (wire.view detail) := by
  change (do
    let job ← Browser.searchJobProperties (wire.detail detail)
    let results ← Browser.searchResultSchema.array (some (.array (detail.results.map wire.result)))
    let steps ← Browser.agentStepSchema.array (some (.array (detail.steps.map wire.step)))
    some ({ job, results, steps } : Browser.SearchJobDetail)) = _
  rw [searchJobProperties_detail, Browser.Schema.array_map (searchResultSchema_result wire),
    Browser.Schema.array_map (agentStepSchema_step wire)]
  rfl

theorem fits_textOrNull (depth : Nat) (text : Option String) : Fits depth (textOrNull text) := by
  cases text <;> cases depth <;> trivial

theorem fits_number (depth : Nat) (number : NumberText) : Fits depth (.number number.text) := by
  cases depth <;> exact number.number

theorem fits_usage (depth : Nat) (usage : Job.JobUsage) : Fits (depth + 1) (wire.usage usage) := by
  refine fits_object ?_
  simp only [List.forall_mem_cons]
  exact ⟨fits_number _ _, fits_number _ _, fits_number _ _, fits_number _ _, fits_number _ _, nofun⟩

theorem fits_step (depth : Nat) (step : Job.AgentStep) : Fits (depth + 1) (wire.step step) := by
  refine fits_object ?_
  simp only [List.forall_mem_cons]
  exact ⟨fits_string _ _, fits_string _ _, fits_number _ _, fits_string _ _, fits_number _ _, nofun⟩

theorem fits_result {depth : Nat} (result : Job.SearchResult) (h : Fits depth (wire.raw result)) :
    Fits (depth + 1) (wire.result result) := by
  refine fits_object ?_
  simp only [List.forall_mem_cons]
  exact ⟨fits_string _ _, fits_string _ _, fits_bool _ _, fits_textOrNull _ _, h, fits_string _ _,
    fits_textOrNull _ _, fits_string _ _, fits_string _ _, nofun⟩

theorem fits_raw (results : List Job.SearchResult) :
    ∃ depth, ∀ result ∈ results, Fits depth (wire.raw result) := by
  induction results with
  | nil => exact ⟨0, nofun⟩
  | cons result results ih =>
      obtain ⟨depth, hdepth⟩ := ih
      obtain ⟨depth', hdepth'⟩ := wire.rawFits result
      refine ⟨max depth depth', List.forall_mem_cons.mpr ⟨?_, fun other hother => ?_⟩⟩
      · exact hdepth'.mono (Nat.le_max_right ..)
      · exact (hdepth other hother).mono (Nat.le_max_left ..)

-- As deep as what a provider left in any of the results, and three more.
theorem fits_detail (detail : Job.JobDetailView) :
    ∃ depth, Fits depth (.object (wire.detail detail)) := by
  obtain ⟨depth, hdepth⟩ := fits_raw wire detail.results
  have hresults : Fits (depth + 2) (.array (detail.results.map wire.result)) := by
    refine fits_array fun item hitem => ?_
    obtain ⟨result, hresult, rfl⟩ := List.mem_map.mp hitem
    exact fits_result wire result (hdepth result hresult)
  have hsteps : Fits (depth + 2) (.array (detail.steps.map wire.step)) := by
    refine fits_array fun item hitem => ?_
    obtain ⟨step, -, rfl⟩ := List.mem_map.mp hitem
    exact fits_step wire depth step
  refine ⟨depth + 3, fits_object ?_⟩
  simp only [Wire.detail, List.forall_mem_cons]
  exact ⟨fits_textOrNull _ _, fits_textOrNull _ _, fits_string _ _, fits_textOrNull _ _,
    fits_string _ _, fits_string _ _, fits_string _ _, fits_textOrNull _ _, fits_textOrNull _ _,
    hresults, fits_string _ _, hsteps, fits_usage wire _ _, nofun⟩

end Contract

-- A field of an `Event`: what spans several lines is refused, with a panic.
def eventField (name value : List Char) : Option (List Char) :=
  if '\r' ∈ value ∨ '\n' ∈ value then none else some (name ++ (':' :: ' ' :: (value ++ ['\n'])))

-- `Event::default().event("update").data(payload)`.
def updateEvent (payload : List Char) : Option (List Char) := do
  let event ← eventField "event".toList "update".toList
  let data ← (payload.splitOn '\n').mapM (eventField "data".toList)
  return event ++ data.flatten ++ ['\n']

-- `KeepAlive::default()`.
def keepAliveEvent : List Char := [':', '\n', '\n']

-- What a response's body is made of: updates, and comments that keep the connection alive.
def Wire.output (wire : Wire) : Option Job.JobDetailView → Option (List Char)
  | some detail => updateEvent (wire.payload detail)
  | none => some keepAliveEvent

section Frames

variable (wire : Wire)

theorem updateEvent_printable {payload : List Char} (h : Printable payload) :
    updateEvent payload =
      some ("event: update\ndata: ".toList ++ payload ++ ['\n', '\n']) := by
  have hreturn : '\r' ∉ payload := fun hmem => absurd (h _ hmem) (by decide)
  have hnewline : '\n' ∉ payload := fun hmem => absurd (h _ hmem) (by decide)
  have hdata : eventField "data".toList payload =
      some ("data".toList ++ (':' :: ' ' :: (payload ++ ['\n']))) :=
    if_neg (not_or.mpr ⟨hreturn, hnewline⟩)
  unfold updateEvent
  rw [List.splitOn_eq_singleton hnewline, List.mapM_cons, hdata]
  change some ("event: update\n".toList ++ ("data: ".toList ++ (payload ++ ['\n']) ++ []) ++
    ['\n']) = _
  simp

-- The frame of an output.
def Wire.frame : Option Job.JobDetailView → Browser.Frame
  | some detail => .update (Browser.objectPayload (wire.detail detail) (fits_detail wire detail))
  | none => .keepAlive ⟨[], List.not_mem_nil⟩

-- No update panics, and its text is that of its frame.
theorem output_frame (output : Option Job.JobDetailView) :
    ∃ text, wire.output output = some text ∧ Browser.units text = (wire.frame output).encode ∧
      ∀ c ∈ text.head?, c ≠ Browser.byteOrderMark := by
  cases output with
  | none =>
      refine ⟨_, rfl, rfl, fun c hc => ?_⟩
      obtain rfl := Option.some.inj hc
      decide
  | some detail =>
      obtain ⟨depth, hfits⟩ := fits_detail wire detail
      refine ⟨_, updateEvent_printable (printable_write depth hfits), ?_, ?_⟩
      · rw [Browser.TextDecoder.units_append, Browser.TextDecoder.units_append]
        rfl
      · rintro c ⟨⟩
        decide

theorem outputs_units {outputs : List (Option Job.JobDetailView)} {texts : List (List Char)}
    (h : outputs.mapM wire.output = some texts) :
    Browser.units texts.flatten = (outputs.map wire.frame).flatMap Browser.Frame.encode ∧
      ∀ c ∈ texts.flatten.head?, c ≠ Browser.byteOrderMark := by
  induction outputs generalizing texts with
  | nil =>
      cases h
      exact ⟨rfl, nofun⟩
  | cons output outputs ih =>
      obtain ⟨text, htext, hunits, hmark⟩ := output_frame wire output
      rw [List.mapM_cons, htext] at h
      cases hrest : outputs.mapM wire.output with
      | none =>
          rw [hrest] at h
          cases h
      | some rest =>
          rw [hrest] at h
          cases h
          obtain ⟨hunits', hmark'⟩ := ih hrest
          rw [List.flatten_cons, Browser.TextDecoder.units_append, hunits, hunits', List.map_cons,
            List.flatMap_cons]
          refine ⟨rfl, fun c hc => ?_⟩
          rw [List.head?_append] at hc
          cases hhead : text.head? with
          | none =>
              rw [hhead] at hc
              exact hmark' c hc
          | some first =>
              rw [hhead] at hc
              exact hmark c (hhead.trans hc)

def Wire.event (detail : Job.JobDetailView) : Browser.SSEEvent :=
  ⟨Browser.ascii "update", Browser.units (wire.payload detail)⟩

theorem outputs_events (outputs : List (Option Job.JobDetailView)) :
    (outputs.map wire.frame).flatMap Browser.Frame.events =
      outputs.reduceOption.map wire.event := by
  induction outputs with
  | nil => rfl
  | cons output outputs ih =>
      rw [List.map_cons, List.flatMap_cons, ih]
      cases output <;> rfl

end Frames

-- How the updates of a stream reach the page: among comments, in chunks that are cut
-- anywhere, and for what is lost when the connection breaks off not at all.
structure Delivery (wire : Wire) (details : List Job.JobDetailView) where
  outputs : List (Option Job.JobDetailView)
  written : outputs.reduceOption = details
  texts : List (List Char)
  rendered : outputs.mapM wire.output = some texts
  chunks : List (List UInt8)
  lost : List UInt8
  arrived : chunks.flatten ++ lost = Utf8.encode texts.flatten

section Delivered

variable {wire : Wire} {details : List Job.JobDetailView}

theorem handOver_events (wire : Wire) (details : List Job.JobDetailView) :
    Browser.handOver (details.map wire.event) = (details.map wire.view, false) := by
  refine Browser.handOver_updates (fun detail => ?_) details
  obtain ⟨depth, hfits⟩ := fits_detail wire detail
  unfold Wire.payload
  rw [Browser.jsonParse_write hfits, Option.bind_some]
  exact searchJobDetailSchema_detail wire detail

-- The page is handed the first of the updates, and all of them when nothing is lost.
theorem delivered (delivery : Delivery wire details) :
    ∃ count, Browser.streamSearch delivery.chunks = ((details.take count).map wire.view, false) ∧
      (delivery.lost = [] → details.take count = details) := by
  obtain ⟨hunits, hmark⟩ := outputs_units wire delivery.rendered
  have hhead : delivery.texts.flatten.head? ≠ some Browser.byteOrderMark :=
    fun h => hmark _ h rfl
  unfold Browser.streamSearch
  by_cases hlost : delivery.lost = []
  · have harrived := delivery.arrived
    rw [hlost, List.append_nil] at harrived
    rw [Browser.events_whole hunits hhead harrived, outputs_events, delivery.written,
      handOver_events]
    exact ⟨details.length, by rw [List.take_length], fun _ => List.take_length⟩
  · have htaken := Browser.events_prefix hunits hhead delivery.arrived
    rw [outputs_events, delivery.written, List.prefix_iff_eq_take, ← List.map_take] at htaken
    rw [htaken, handOver_events]
    exact ⟨_, rfl, fun h => absurd h hlost⟩

end Delivered

theorem mem_dropLast_take {α : Type} {items : List α} {count : Nat} {item : α}
    (h : item ∈ (items.take count).dropLast) : item ∈ items.dropLast := by
  rw [List.dropLast_eq_take] at h ⊢
  rw [List.take_take] at h
  refine (List.take_sublist_take_left ?_).subset h
  rw [List.length_take]
  omega

-- A stream that reads a completed job has read what a completion has stored.
theorem saw_stored {ι : Type} {text : Job.JobDetailView → String} {ops : ι → Job.SearchOp}
    {world : Job.JobWorld} {c : Job.SearchRuns ι} (h : Job.Coherent text ops world c) {i : ι}
    {snapshot : Job.Snapshot} (hsaw : Job.Saw (c.threads i).past snapshot)
    (hcompleted : snapshot.job.status = .completed) :
    ∃ batch, Job.StoredBy ops world c snapshot.job.id batch ∧ snapshot.results.Perm batch := by
  obtain ⟨jobId, results, hsub, heq⟩ := hsaw
  obtain ⟨batch, hbatch, hperm⟩ := h.reads i jobId snapshot.job results hsub hcompleted
  have hid := (h.answered i _ (hsub.subset List.mem_cons_self)).1
  refine ⟨batch, hid ▸ hbatch, ?_⟩
  rw [heq]
  exact (List.perm_insertionSort _ _).trans hperm

-- No output panics.
theorem outputs_rendered (wire : Wire) (outputs : List (Option Job.JobDetailView)) :
    (outputs.mapM wire.output).isSome := by
  induction outputs with
  | nil => rfl
  | cons output outputs ih =>
      obtain ⟨text, htext, -⟩ := output_frame wire output
      obtain ⟨texts, htexts⟩ := Option.isSome_iff_exists.mp ih
      rw [List.mapM_cons, htext, htexts]
      rfl

-- A comment before the updates, and a body that comes in two chunks.
def Delivery.inTwo (wire : Wire) (details : List Job.JobDetailView) (count : Nat) :
    Delivery wire details where
  outputs := none :: details.map some
  written := by
    change (details.map some).filterMap id = details
    rw [List.filterMap_map]
    exact List.filterMap_some
  texts := ((none :: details.map some).mapM wire.output).get (outputs_rendered wire _)
  rendered := (Option.some_get _).symm
  chunks :=
    let bytes := Utf8.encode
      (((none :: details.map some).mapM wire.output).get (outputs_rendered wire _)).flatten
    [bytes.take count, bytes.drop count]
  lost := []
  arrived := by simp

namespace Sample

def numberOr (text : String) : NumberText :=
  if h : IsNumber text.toList then ⟨text, h⟩ else ⟨"0", by decide +kernel⟩

-- The costs are of whole dollars, and an instant is its nanoseconds.
def wire : Wire where
  integer n := numberOr (toString n)
  real cost := numberOr (toString cost.num ++ ".0")
  instant n := toString n
  raw _ := .object []
  rawFits _ := ⟨1, fun field h => by cases h⟩

-- The owner follows a job that is being completed.
def following : Bool → Job.SearchOp
  | false => .job (.complete Job.Sample.job.id [Job.Sample.found])
  | true => .updates Job.Sample.job.userId Job.Sample.job.id 2

def start : { world : Job.JobWorld // Job.Settled world } := ⟨Job.Sample.world, Job.Sample.settled⟩

def durations : Job.StreamConfig := Job.streamConfig fun _ => ""

def order : List Bool :=
  List.replicate 6 true ++ [false, true, false, false, false] ++ List.replicate 5 true

def runs (schedule : List Bool) : Job.SearchRuns Bool :=
  (Job.searchRuns Job.Sample.config
    { durations with text := fun detail => String.ofList (wire.payload detail) } start.1
    following).run Job.Sample.queryEnv.handle schedule

@[irreducible] def followed : Job.SearchRuns Bool := runs order

theorem followed_eq : followed = runs order := by
  unfold followed
  rfl

end Sample

end AgentBoilerplate.System
