import AgentBoilerplate.Agent.JsonBlanks
import AgentBoilerplate.Agent.Keys

namespace AgentBoilerplate.Agent

open Python JsonDecoder

-- The validated replies of a model, less their descriptions.
structure ActionReply where
  action : String
  reason : Option String := none
  query : Option String := none
  question : Option String := none
deriving DecidableEq, Repr

structure CritiqueReply where
  assessment : Option String := none
  irrelevantUrls : List String := []
  gapQuery : Option String := none
deriving DecidableEq, Repr

-- A field of type `str`, without a default.
def validateStr : Option Json → Option String
  | some (.string text) => some text
  | _ => none

-- A field of type `str | None`, by default `None`.
def validateOptional : Option Json → Option (Option String)
  | none => some none
  | some .null => some none
  | some (.string text) => some (some text)
  | some _ => none

-- A field of type `list[str]`, by default the empty list.
def validateStrings : Option Json → Option (List String)
  | none => some []
  | some (.array items) => items.mapM fun item => validateStr (some item)
  | some _ => none

-- What the schemas accept. Other fields are ignored.
def EnrichmentReply.validate (payload : List (String × Json)) : Option EnrichmentReply := do
  let publishedDate ← validateOptional (Json.get payload "published_date")
  let eventType ← validateOptional (Json.get payload "event_type")
  let summary ← validateOptional (Json.get payload "summary")
  return ⟨publishedDate, eventType, summary⟩

def ActionReply.validate (payload : List (String × Json)) : Option ActionReply := do
  let action ← validateStr (Json.get payload "action")
  let reason ← validateOptional (Json.get payload "reason")
  let query ← validateOptional (Json.get payload "query")
  let question ← validateOptional (Json.get payload "question")
  return ⟨action, reason, query, question⟩

def CritiqueReply.validate (payload : List (String × Json)) : Option CritiqueReply := do
  let assessment ← validateOptional (Json.get payload "assessment")
  let irrelevantUrls ← validateStrings (Json.get payload "irrelevant_urls")
  let gapQuery ← validateOptional (Json.get payload "gap_query")
  return ⟨assessment, irrelevantUrls, gapQuery⟩

-- The reply that a JSON text is, where the schema accepts it.
def replyOf {α : Type} (validate : List (String × Json) → Option α) (limit : Nat)
    (text : List Char) : Option α :=
  match loads limit text with
  | .ok (.object payload) => validate payload
  | _ => none

-- `isinstance(value, str)` of a field, and the value.
def textAt (payload : List (String × Json)) (key : String) : Option String :=
  match Json.get payload key with
  | some (.string text) => some text
  | _ => none

def reasonOf (reason : Option String) : String := (strippedSummary reason).getD "no reason given"

-- The action of that name, which without its text is to finish.
def actionOf (action : List Char) (query question : Option String) (reason : String) : AgentAction :=
  if action = "search".toList then
    match strippedSummary query with
    | some query => .search query reason
    | none => .finish reason
  else if action = "ask".toList then
    match strippedSummary question with
    | some question => .ask question reason
    | none => .finish reason
  else
    .finish reason

def critiqueFromReply (reply : CritiqueReply) : Critique where
  assessment := (strippedSummary reply.assessment).getD "no assessment given"
  irrelevantUrls := reply.irrelevantUrls
  gapQuery := strippedSummary reply.gapQuery

def payloadAction (payload : List (String × Json)) : AgentAction :=
  actionOf ((textAt payload "action").getD "").toList (textAt payload "query")
    (textAt payload "question") (reasonOf (textAt payload "reason"))

def payloadUrls (payload : List (String × Json)) : List String :=
  match Json.get payload "irrelevant_urls" with
  | some (.array items) => items.filterMap fun item => validateStr (some item)
  | _ => []

def payloadCritique (payload : List (String × Json)) : Critique where
  assessment :=
    let assessment := match textAt payload "assessment" with
      | some text => if Str.strip Str.isSpace text.toList = [] then "no assessment given" else text
      | none => "no assessment given"
    String.ofList (Str.strip Str.isSpace assessment.toList)
  irrelevantUrls := payloadUrls payload
  gapQuery := strippedSummary (textAt payload "gap_query")

def parseAction (limit : Nat) (text : String) : Except PyException AgentAction :=
  match loads limit (unfenced text) with
  | .ok (.object payload) => .ok (payloadAction payload)
  | .ok _ => .ok (.finish "policy reply was not a JSON object")
  | .error e => if e.isValueError then .ok (.finish "policy reply was not valid JSON") else .error e

def parseCritique (limit : Nat) (text : String) : Except PyException Critique :=
  match loads limit (unfenced text) with
  | .ok (.object payload) => .ok (payloadCritique payload)
  | .ok _ => .ok { assessment := "self-critique unavailable (reply was not a JSON object)" }
  | .error e =>
      if e.isValueError then
        .ok { assessment := "self-critique unavailable (reply was not valid JSON)" }
      else
        .error e

-- What a field of an accepted payload holds is what the legacy parsers read.
theorem textAt_validateStr {payload : List (String × Json)} {key text : String}
    (h : validateStr (Json.get payload key) = some text) : textAt payload key = some text := by
  unfold validateStr at h
  unfold textAt
  split at h
  · exact h
  · cases h

theorem textAt_validateOptional {payload : List (String × Json)} {key : String}
    {text : Option String} (h : validateOptional (Json.get payload key) = some text) :
    textAt payload key = text := by
  unfold textAt
  cases hget : Json.get payload key with
  | none =>
      rw [hget] at h
      cases h
      rfl
  | some value =>
      rw [hget] at h
      cases value with
      | null | string =>
          cases h
          rfl
      | bool | number | array | object => cases h

theorem filterMap_of_mapM {α β : Type} {f : α → Option β} {items : List α} {values : List β}
    (h : items.mapM f = some values) : items.filterMap f = values := by
  induction items generalizing values with
  | nil =>
      cases h
      rfl
  | cons item items ih =>
      rw [List.mapM_cons] at h
      obtain ⟨value, hvalue, h⟩ := Option.bind_eq_some_iff.mp h
      obtain ⟨later, hlater, h⟩ := Option.bind_eq_some_iff.mp h
      cases h
      rw [List.filterMap_cons_some hvalue, ih hlater]

theorem payloadUrls_validate {payload : List (String × Json)} {urls : List String}
    (h : validateStrings (Json.get payload "irrelevant_urls") = some urls) :
    payloadUrls payload = urls := by
  unfold payloadUrls
  cases hget : Json.get payload "irrelevant_urls" with
  | none =>
      rw [hget] at h
      cases h
      rfl
  | some value =>
      rw [hget] at h
      cases value with
      | array items => exact filterMap_of_mapM h
      | null | bool | number | string | object => cases h

structure ActionReply.ReadFrom (reply : ActionReply) (payload : List (String × Json)) : Prop where
  action : textAt payload "action" = some reply.action
  reason : textAt payload "reason" = reply.reason
  query : textAt payload "query" = reply.query
  question : textAt payload "question" = reply.question

theorem ActionReply.readFrom {reply : ActionReply} {payload : List (String × Json)}
    (h : ActionReply.validate payload = some reply) : reply.ReadFrom payload := by
  obtain ⟨action, haction, h⟩ := Option.bind_eq_some_iff.mp h
  obtain ⟨reason, hreason, h⟩ := Option.bind_eq_some_iff.mp h
  obtain ⟨query, hquery, h⟩ := Option.bind_eq_some_iff.mp h
  obtain ⟨question, hquestion, h⟩ := Option.bind_eq_some_iff.mp h
  cases h
  exact ⟨textAt_validateStr haction, textAt_validateOptional hreason, textAt_validateOptional hquery,
    textAt_validateOptional hquestion⟩

structure CritiqueReply.ReadFrom (reply : CritiqueReply) (payload : List (String × Json)) : Prop where
  assessment : textAt payload "assessment" = reply.assessment
  irrelevantUrls : payloadUrls payload = reply.irrelevantUrls
  gapQuery : textAt payload "gap_query" = reply.gapQuery

theorem CritiqueReply.readFrom {reply : CritiqueReply} {payload : List (String × Json)}
    (h : CritiqueReply.validate payload = some reply) : reply.ReadFrom payload := by
  obtain ⟨assessment, hassessment, h⟩ := Option.bind_eq_some_iff.mp h
  obtain ⟨urls, hurls, h⟩ := Option.bind_eq_some_iff.mp h
  obtain ⟨gap, hgap, h⟩ := Option.bind_eq_some_iff.mp h
  cases h
  exact ⟨textAt_validateOptional hassessment, payloadUrls_validate hurls,
    textAt_validateOptional hgap⟩

structure EnrichmentReply.ReadFrom (reply : EnrichmentReply) (payload : List (String × Json)) :
    Prop where
  publishedDate : textAt payload "published_date" = reply.publishedDate
  eventType : textAt payload "event_type" = reply.eventType
  summary : textAt payload "summary" = reply.summary

theorem EnrichmentReply.readFrom {reply : EnrichmentReply} {payload : List (String × Json)}
    (h : EnrichmentReply.validate payload = some reply) : reply.ReadFrom payload := by
  obtain ⟨date, hdate, h⟩ := Option.bind_eq_some_iff.mp h
  obtain ⟨eventType, heventType, h⟩ := Option.bind_eq_some_iff.mp h
  obtain ⟨summary, hsummary, h⟩ := Option.bind_eq_some_iff.mp h
  cases h
  exact ⟨textAt_validateOptional hdate, textAt_validateOptional heventType,
    textAt_validateOptional hsummary⟩

-- A critique is stripped by both, and so is the text in its place.
theorem payloadCritique_eq {reply : CritiqueReply} {payload : List (String × Json)}
    (h : reply.ReadFrom payload) : payloadCritique payload = critiqueFromReply reply := by
  unfold payloadCritique critiqueFromReply
  rw [h.assessment, h.irrelevantUrls, h.gapQuery]
  congr 1
  have hdefault : String.ofList (Str.strip Str.isSpace "no assessment given".toList) =
      "no assessment given" := by decide +kernel
  cases reply.assessment with
  | none => exact hdefault
  | some text =>
      unfold strippedSummary
      dsimp only
      by_cases hblank : Str.strip Str.isSpace text.toList = []
      · rw [if_pos hblank, if_pos hblank]
        exact hdefault
      · rw [if_neg hblank, if_neg hblank]
        rfl

section

variable [Unicode]

-- `value.strip().lower()`.
def folded (value : String) : List Char := Unicode.lower (Str.strip Str.isSpace value.toList)

def actionFromReply (reply : ActionReply) : AgentAction :=
  actionOf (folded reply.action) reply.query reply.question (reasonOf reply.reason)

variable [Unicode.Lawful]

-- A word in lower case, without white space around it.
theorem folded_word {word : String} (hstrip : Str.strip Str.isSpace word.toList = word.toList)
    (hascii : word.toList.all Str.isAscii) (hlower : word.toList.map Char.toLower = word.toList) :
    folded word = word.toList := by
  unfold folded
  rw [hstrip, (Unicode.lowersTo_lower word.toList).ascii hascii, hlower]

theorem folded_search : folded "search" = "search".toList :=
  folded_word (by decide +kernel) (by decide +kernel) (by decide +kernel)

theorem folded_ask : folded "ask" = "ask".toList :=
  folded_word (by decide +kernel) (by decide +kernel) (by decide +kernel)

theorem folded_value (kind : EventType) : folded kind.value = kind.value.toList := by
  cases kind <;> exact folded_word (by decide +kernel) (by decide +kernel) (by decide +kernel)

-- An action that is not as its folding is none of the two.
theorem payloadAction_eq {reply : ActionReply} {payload : List (String × Json)}
    (h : reply.ReadFrom payload) : payloadAction payload =
      if reply.action.toList = folded reply.action then actionFromReply reply
      else .finish (reasonOf reply.reason) := by
  unfold payloadAction actionFromReply
  rw [h.action, h.reason, h.query, h.question, Option.getD_some]
  by_cases hfolded : reply.action.toList = folded reply.action
  · rw [if_pos hfolded, ← hfolded]
  · have hother : ∀ word : String, folded word = word.toList →
        reply.action.toList ≠ word.toList := by
      rintro word hword heq
      rw [String.toList_inj.mp heq, hword] at hfolded
      exact hfolded rfl
    unfold actionOf
    rw [if_neg hfolded, if_neg (hother "search" folded_search), if_neg (hother "ask" folded_ask)]

omit [Unicode] [Unicode.Lawful] in
-- A text that is no event type is OTHER.
theorem ofValue_cases (value : List Char) :
    EventType.ofValue value = .other ∨ value = (EventType.ofValue value).value.toList := by
  unfold EventType.ofValue
  cases hfind : EventType.all.find? fun kind => kind.value.toList = value with
  | none => exact Or.inl rfl
  | some kind =>
      have hkind := List.find?_some hfind
      exact Or.inr (of_decide_eq_true hkind).symm

-- The event type that is read as it is written, or OTHER.
theorem payloadEventType_eq {reply : EnrichmentReply} {payload : List (String × Json)}
    (h : reply.ReadFrom payload) : payloadEventType payload =
      if ∀ value ∈ reply.eventType, value.toList = folded value then
        EventType.ofValue (folded (reply.eventType.getD "None"))
      else .other := by
  have hread : payloadEventType payload =
      (reply.eventType.elim .other fun value => EventType.ofValue value.toList) := by
    rw [← h.eventType]
    unfold payloadEventType textAt
    cases Json.get payload "event_type" with
    | none => rfl
    | some value => cases value <;> rfl
  rw [hread]
  cases reply.eventType with
  | none =>
      have hnone : folded "None" = "none".toList := by
        unfold folded
        have hstrip : Str.strip Str.isSpace "None".toList = "None".toList := by decide +kernel
        rw [hstrip, (Unicode.lowersTo_lower "None".toList).ascii (by decide +kernel)]
        decide +kernel
      rw [if_pos (by simp), Option.getD_none, hnone]
      decide +kernel
  | some value =>
      dsimp only [Option.elim_some, Option.getD_some]
      by_cases hfolded : value.toList = folded value
      · rw [if_pos (by simpa using hfolded), ← hfolded]
      · rw [if_neg (by simpa using hfolded)]
        refine (ofValue_cases value.toList).resolve_right fun hvalue => hfolded ?_
        rw [String.toList_inj.mp hvalue, folded_value]

omit [Unicode.Lawful] in
theorem payloadDate_eq {reply : EnrichmentReply} {payload : List (String × Json)}
    (h : reply.ReadFrom payload) : payloadDate payload = replyDate reply := by
  have hread : payloadDate payload = reply.publishedDate.elim (.ok none) parseExtractedDate := by
    rw [← h.publishedDate]
    unfold payloadDate textAt
    cases Json.get payload "published_date" with
    | none => rfl
    | some value => cases value <;> rfl
  rw [hread]
  unfold replyDate
  cases reply.publishedDate with
  | none => rfl
  | some text =>
      dsimp only [Option.elim_some]
      by_cases hempty : text = ""
      · rw [if_pos hempty, hempty]
        rfl
      · rw [if_neg hempty]

omit [Unicode] [Unicode.Lawful] in
-- The text as it is, unless it is blank.
theorem payloadSummary_eq {reply : EnrichmentReply} {payload : List (String × Json)}
    (h : reply.ReadFrom payload) : payloadSummary payload =
      reply.summary.filter fun summary => Str.strip Str.isSpace summary.toList ≠ [] := by
  rw [← h.summary]
  unfold payloadSummary textAt
  cases Json.get payload "summary" with
  | none => rfl
  | some value =>
      cases value with
      | string summary =>
          dsimp only
          by_cases hblank : Str.strip Str.isSpace summary.toList = []
          · rw [if_pos hblank, Option.filter_some_neg (by simpa using hblank)]
          · rw [if_neg hblank, Option.filter_some_pos (by simpa using hblank)]
      | null | bool | number | array | object => rfl

-- What the text fallback makes of an enrichment reply, beside the native value.
structure Alike (reply : EnrichmentReply) (legacy native : HitEnrichment) : Prop where
  publishedAt : legacy.publishedAt = native.publishedAt
  eventType : legacy.eventType =
    if ∀ value ∈ reply.eventType, value.toList = folded value then native.eventType else .other
  summary : strippedSummary legacy.summary = native.summary
  trimmed : (∀ summary ∈ reply.summary, Str.strip Str.isSpace summary.toList = summary.toList) →
    legacy.summary = native.summary

theorem alike_of_readFrom {reply : EnrichmentReply} {payload : List (String × Json)}
    (h : reply.ReadFrom payload) (publishedAt : Option DateTime) :
    Alike reply ⟨publishedAt, payloadEventType payload, payloadSummary payload⟩
      ⟨publishedAt, EventType.ofValue (folded (reply.eventType.getD "None")),
        strippedSummary reply.summary⟩ where
  publishedAt := rfl
  eventType := payloadEventType_eq h
  summary := by
    dsimp only
    rw [payloadSummary_eq h]
    cases reply.summary with
    | none => rfl
    | some summary =>
        by_cases hblank : Str.strip Str.isSpace summary.toList = []
        · rw [Option.filter_some_neg (by simpa using hblank)]
          exact (if_pos hblank).symm
        · rw [Option.filter_some_pos (by simpa using hblank)]
  trimmed := by
    intro htrimmed
    dsimp only
    rw [payloadSummary_eq h]
    cases hsummary : reply.summary with
    | none => rfl
    | some summary =>
        have hstrip := htrimmed summary hsummary
        unfold strippedSummary
        dsimp only
        by_cases hblank : Str.strip Str.isSpace summary.toList = []
        · rw [Option.filter_some_neg (by simpa using hblank), if_pos hblank]
        · rw [Option.filter_some_pos (by simpa using hblank), if_neg hblank, hstrip,
            String.ofList_toList]

-- The text is the JSON of the reply, or has it in the fence that models put around it.
def Says {α : Type} (validate : List (String × Json) → Option α) (limit : Nat) (text : String)
    (reply : α) : Prop :=
  replyOf validate limit text.toList = some reply ∨ replyOf validate limit (unfenced text) = some reply

omit [Unicode] [Unicode.Lawful] in
theorem Says.payload {α : Type} {validate : List (String × Json) → Option α} {limit : Nat}
    {text : String} {reply : α} (h : Says validate limit text reply) :
    ∃ payload, loads limit (unfenced text) = .ok (.object payload) ∧
      validate payload = some reply := by
  have hread : ∀ decoded : List Char, replyOf validate limit decoded = some reply →
      ∃ payload, loads limit decoded = .ok (.object payload) ∧ validate payload = some reply := by
    intro decoded hreply
    unfold replyOf at hreply
    split at hreply
    · rename_i payload hloads
      exact ⟨payload, hloads, hreply⟩
    · cases hreply
  obtain htext | hfenced := h
  · obtain ⟨payload, hloads, hreply⟩ := hread _ htext
    exact ⟨payload, loads_unfenced hloads, hreply⟩
  · exact hread _ hfenced

-- A critique is read alike by both. Of an action or an event type, the fallback
-- reads what is written as the native conversion folds it, and else the neutral
-- value.
theorem replies_alike (limit : Nat) (text : String) :
    (∀ reply, Says CritiqueReply.validate limit text reply →
      parseCritique limit text = .ok (critiqueFromReply reply)) ∧
    (∀ reply, Says ActionReply.validate limit text reply →
      parseAction limit text = .ok (if reply.action.toList = folded reply.action then
        actionFromReply reply else .finish (reasonOf reply.reason))) ∧
    ∀ reply, Says EnrichmentReply.validate limit text reply →
      (∀ e, enrichmentFromReply reply = .error e → parseEnrichment limit text = .error e) ∧
        ∀ native, enrichmentFromReply reply = .ok native →
          ∃ legacy, parseEnrichment limit text = .ok legacy ∧ Alike reply legacy native := by
  refine ⟨fun reply h => ?_, fun reply h => ?_, fun reply h => ?_⟩
  · obtain ⟨payload, hloads, hreply⟩ := h.payload
    unfold parseCritique
    rw [hloads]
    exact congrArg Except.ok (payloadCritique_eq (CritiqueReply.readFrom hreply))
  · obtain ⟨payload, hloads, hreply⟩ := h.payload
    unfold parseAction
    rw [hloads]
    exact congrArg Except.ok (payloadAction_eq (ActionReply.readFrom hreply))
  · obtain ⟨payload, hloads, hreply⟩ := h.payload
    have hfrom := EnrichmentReply.readFrom hreply
    have hparse : parseEnrichment limit text = replyDate reply >>= fun publishedAt =>
        pure ⟨publishedAt, payloadEventType payload, payloadSummary payload⟩ := by
      unfold parseEnrichment
      rw [hloads, ← payloadDate_eq hfrom]
      rfl
    rw [hparse]
    unfold enrichmentFromReply
    cases replyDate reply with
    | error e =>
        refine ⟨fun e' he => he, fun native hnative => ?_⟩
        cases hnative
    | ok publishedAt =>
        refine ⟨fun e he => ?_, fun native hnative => ?_⟩
        · cases he
        · cases hnative
          exact ⟨_, rfl, alike_of_readFrom hfrom publishedAt⟩

end

-- Each of the three, the action in a fence.
theorem replies_alike_texts :
    letI := Sample.unicode
    parseCritique 1000 "\x7b\"assessment\": \" good\", \"irrelevant_urls\": [\"u\"]\x7d" =
        .ok ⟨"good", ["u"], none⟩ ∧
      parseAction 1000 "```json\n\x7b\"action\": \"search\", \"query\": \" rust \"\x7d\n```" =
        .ok (.search "rust" "no reason given") ∧
      ∃ legacy, parseEnrichment 1000 " \x7b\"event_type\": \"release\"\x7d " = .ok legacy ∧
        Alike ⟨none, some "release", none⟩ legacy ⟨none, .release, none⟩ := by
  let := Sample.unicode
  let fenced := "```json\n\x7b\"action\": \"search\", \"query\": \" rust \"\x7d\n```"
  refine ⟨?_, ?_, ?_⟩
  · exact (replies_alike 1000 _).1 ⟨some " good", ["u"], none⟩ (Or.inl (by decide +kernel))
  · have haction := (replies_alike 1000 fenced).2.1 ⟨"search", none, some " rust ", none⟩
      (Or.inr (by decide +kernel))
    exact haction.trans (by decide +kernel)
  · exact ((replies_alike 1000 _).2.2 ⟨none, some "release", none⟩ (Or.inl (by decide +kernel))).2 _
      (by decide +kernel)

-- A capital letter ends the research in the fallback.
theorem replies_differ :
    letI := Sample.unicode
    let text := "\x7b\"action\": \"Search\", \"query\": \"rust\"\x7d"
    let reply : ActionReply := ⟨"Search", none, some "rust", none⟩
    replyOf ActionReply.validate 1000 text.toList = some reply ∧
      actionFromReply reply = .search "rust" "no reason given" ∧
      parseAction 1000 text = .ok (.finish "no reason given") ∧
      parseAction 1000 text ≠ .ok (actionFromReply reply) := by
  refine ⟨?_, ?_, ?_, ?_⟩ <;> decide +kernel

end AgentBoilerplate.Agent
