import AgentBoilerplate.Agent.JsonDecoder
import AgentBoilerplate.Agent.Lemmas
import AgentBoilerplate.Collections.Traversal
import AgentBoilerplate.Python.IsoFormat

namespace AgentBoilerplate.Agent

open Python IsoFormat Collections JsonDecoder

-- `try: ... except ValueError: return fallback`.
def orOnValueError {α : Type} (fallback : α) : Except PyException α → Except PyException α
  | .ok value => .ok value
  | .error e => if e.isValueError then .ok fallback else .error e

-- `text.replace("Z", "+00:00")`.
def withOffset (text : List Char) : List Char :=
  text.flatMap fun c => if c = 'Z' then "+00:00".toList else [c]

def EventType.value : EventType → String
  | .announcement => "announcement"
  | .release => "release"
  | .funding => "funding"
  | .legal => "legal"
  | .incident => "incident"
  | .research => "research"
  | .opinion => "opinion"
  | .other => "other"

def EventType.all : List EventType :=
  [.announcement, .release, .funding, .legal, .incident, .research, .opinion, .other]

-- `EventType(value)`, and `EventType.OTHER` on its ValueError.
def EventType.ofValue (value : List Char) : EventType :=
  (EventType.all.find? fun kind => kind.value.toList = value).getD .other

def removeprefix (known text : List Char) : List Char :=
  if known.isPrefixOf text then text.drop known.length else text

-- `payload.get(key)`: of equal keys, the last counts.
def Json.get (fields : List (String × Json)) (key : String) : Option Json :=
  fields.reverse.lookup key

-- The validated reply of a model, less its descriptions.
structure EnrichmentReply where
  publishedDate : Option String := none
  eventType : Option String := none
  summary : Option String := none
deriving DecidableEq, Repr

section

variable [Unicode]

-- `as_utc(datetime.fromisoformat(text))`, or no date on its ValueError.
def utcDate (text : List Char) : Except PyException (Option DateTime) :=
  orOnValueError none do
    let value ← fromisoformat text
    some <$> asUtc value

-- The text that is read as a date, unless it says that there is none.
def dateText (text : String) : Option (List Char) :=
  let cleaned := Str.strip (· ∈ ['`', '"', '\'', ' ']) (Str.strip Str.isSpace text.toList)
  if cleaned = [] ∨ ["unknown", "null", "none"].any fun word => Unicode.lower cleaned = word.toList then
    none
  else
    some (withOffset cleaned)

def parseExtractedDate (text : String) : Except PyException (Option DateTime) :=
  match dateText text with
  | none => .ok none
  | some date => utcDate date

-- Of a string; the other values of a provider are not dates of this model.
def parseProviderDate (value : String) : Except PyException (Option DateTime) :=
  if value = "" then .ok none else utcDate (withOffset value.toList)

-- `summary.strip()`, unless it is empty.
def strippedSummary (summary : Option String) : Option String :=
  match summary with
  | none => none
  | some summary =>
      let stripped := Str.strip Str.isSpace summary.toList
      if stripped = [] then none else some (String.ofList stripped)

def replyDate (reply : EnrichmentReply) : Except PyException (Option DateTime) :=
  match reply.publishedDate with
  | none => .ok none
  | some text => if text = "" then .ok none else parseExtractedDate text

def enrichmentFromReply (reply : EnrichmentReply) : Except PyException HitEnrichment := do
  let publishedAt ← replyDate reply
  let eventType := Unicode.lower (Str.strip Str.isSpace (reply.eventType.getD "None").toList)
  return ⟨publishedAt, EventType.ofValue eventType, strippedSummary reply.summary⟩

-- The text without the fence that models put around JSON.
def unfenced (text : String) : List Char :=
  let cleaned := Str.strip Str.isSpace text.toList
  if "```".toList.isPrefixOf cleaned then
    Str.strip Str.isSpace ( removeprefix "json".toList (Str.strip (· = '`') cleaned))
  else
    cleaned

def payloadDate (fields : List (String × Json)) : Except PyException (Option DateTime) :=
  match Json.get fields "published_date" with
  | some (.string text) => parseExtractedDate text
  | _ => .ok none

-- The `str` of what is not a string names no event type.
def payloadEventType (fields : List (String × Json)) : EventType :=
  match Json.get fields "event_type" with
  | some (.string value) => EventType.ofValue value.toList
  | _ => .other

-- A summary that is not blank stays as it is.
def payloadSummary (fields : List (String × Json)) : Option String :=
  match Json.get fields "summary" with
  | some (.string summary) => if Str.strip Str.isSpace summary.toList = [] then none else some summary
  | _ => none

-- `limit` is the nesting that the interpreter decodes.
def parseEnrichment (limit : Nat) (text : String) : Except PyException HitEnrichment := do
  match ← orOnValueError none (some <$> loads limit (unfenced text)) with
  | some (.object fields) =>
      let publishedAt ← payloadDate fields
      return ⟨publishedAt, payloadEventType fields, payloadSummary fields⟩
  | _ => return {}

-- The text is a date whose instant no UTC date shows.
def LeavesYears (text : List Char) : Prop :=
  ∃ value, fromisoformat text = .ok value ∧ value.isNaive = false ∧ ¬ Representable value.instant

theorem utcDate_returns (text : List Char) : Returns (utcDate text) ↔ ¬ LeavesYears text := by
  unfold utcDate
  cases hread : fromisoformat text with
  | error e =>
      refine iff_of_true ⟨none, ?_⟩ ?_
      · exact if_pos (fromisoformat_error hread)
      · rintro ⟨value, hvalue, -⟩
        rw [hread] at hvalue
        cases hvalue
  | ok value =>
      have hleaves : LeavesYears text ↔ value.isNaive = false ∧ ¬ Representable value.instant := by
        constructor
        · rintro ⟨other, hother, hrest⟩
          rw [hread] at hother
          cases hother
          exact hrest
        · exact fun h => ⟨value, hread, h⟩
      rw [hleaves]
      change Returns (orOnValueError none (some <$> asUtc value)) ↔ _
      unfold asUtc
      by_cases hnaive : value.isNaive = true
      · rw [if_pos hnaive, hnaive]
        exact iff_of_true ⟨some value.replaceUtc, rfl⟩ fun h => absurd h.1 (by simp)
      · rw [if_neg hnaive]
        unfold DateTime.astimezoneUtc
        by_cases hinstant : Representable value.instant
        · rw [dif_pos hinstant]
          exact iff_of_true ⟨some ⟨value.instant, some 0, hinstant⟩, rfl⟩ fun h => h.2 hinstant
        · rw [dif_neg hinstant]
          have hraises : ¬ Returns (orOnValueError none
              (some <$> (.error ⟨"OverflowError", "date value out of range"⟩ :
                Except PyException DateTime))) := not_returns_error _
          exact iff_of_false hraises fun h => h ⟨Bool.eq_false_iff.mpr hnaive, hinstant⟩

-- The text is taken as such a date.
def DateLeavesYears (text : String) : Prop := ∃ date, dateText text = some date ∧ LeavesYears date

theorem parseExtractedDate_returns (text : String) :
    Returns (parseExtractedDate text) ↔ ¬ DateLeavesYears text := by
  unfold parseExtractedDate
  cases hdate : dateText text with
  | none =>
      refine iff_of_true ⟨none, rfl⟩ ?_
      rintro ⟨date, hother, -⟩
      rw [hdate] at hother
      cases hother
  | some date =>
      dsimp only
      rw [utcDate_returns]
      refine not_congr ⟨fun h => ⟨date, hdate, h⟩, ?_⟩
      rintro ⟨other, hother, hleaves⟩
      rw [hdate] at hother
      cases hother
      exact hleaves

theorem parseProviderDate_returns (value : String) :
    Returns (parseProviderDate value) ↔ ¬ LeavesYears (withOffset value.toList) := by
  unfold parseProviderDate
  by_cases hempty : value = ""
  · rw [if_pos hempty, hempty]
    refine iff_of_true ⟨none, rfl⟩ ?_
    rintro ⟨date, hread, -⟩
    cases hread
  · rw [if_neg hempty]
    exact utcDate_returns _

omit [Unicode] in
theorem returns_map {α β : Type} (x : Except PyException α) (f : α → β) :
    Returns (x >>= fun value => pure (f value)) ↔ Returns x := by
  cases x with
  | error e => exact iff_of_false (not_returns_error e) (not_returns_error e)
  | ok value => exact iff_of_true ⟨f value, rfl⟩ ⟨value, rfl⟩

-- The empty text is no date.
theorem replyDate_returns (reply : EnrichmentReply) :
    Returns (replyDate reply) ↔ ∀ text, reply.publishedDate = some text → ¬ DateLeavesYears text := by
  unfold replyDate
  cases hdate : reply.publishedDate with
  | none =>
      refine iff_of_true ⟨none, rfl⟩ fun text heq => ?_
      cases heq
  | some text =>
      have honly : (∀ other, some text = some other → ¬ DateLeavesYears other) ↔
          ¬ DateLeavesYears text := by
        refine ⟨fun h => h text rfl, fun h other heq => ?_⟩
        cases heq
        exact h
      dsimp only
      rw [honly]
      by_cases hempty : text = ""
      · rw [if_pos hempty, hempty]
        refine iff_of_true ⟨none, rfl⟩ ?_
        rintro ⟨date, hnone, -⟩
        cases hnone
      · rw [if_neg hempty]
        exact parseExtractedDate_returns text

theorem enrichmentFromReply_returns (reply : EnrichmentReply) :
    Returns (enrichmentFromReply reply) ↔
      ∀ text, reply.publishedDate = some text → ¬ DateLeavesYears text := by
  unfold enrichmentFromReply
  rw [returns_map, replyDate_returns]

theorem payloadDate_returns (fields : List (String × Json)) :
    Returns (payloadDate fields) ↔
      ∀ text, Json.get fields "published_date" = some (.string text) → ¬ DateLeavesYears text := by
  unfold payloadDate
  split
  · rename_i text hget
    rw [parseExtractedDate_returns]
    refine ⟨fun h other heq => ?_, fun h => h text hget⟩
    rw [hget] at heq
    cases heq
    exact h
  · rename_i hother
    exact iff_of_true ⟨none, rfl⟩ fun text hget => absurd hget (hother text)

theorem parseEnrichment_returns (limit : Nat) (text : String) :
    Returns (parseEnrichment limit text) ↔ ¬ TooDeep limit (unfenced text) ∧
      ∀ fields date, loads limit (unfenced text) = .ok (.object fields) →
        Json.get fields "published_date" = some (.string date) → ¬ DateLeavesYears date := by
  unfold parseEnrichment
  cases hloads : loads limit (unfenced text) with
  | error e =>
      have hnone : ∀ fields date, (.error e : Except PyException Json) = .ok (.object fields) →
          Json.get fields "published_date" = some (.string date) → ¬ DateLeavesYears date := by
        intro fields date heq
        cases heq
      rw [← loads_error hloads]
      cases hvalue : e.isValueError with
      | true =>
          refine iff_of_true ⟨{}, ?_⟩ ⟨by simp, hnone⟩
          simp [orOnValueError, hvalue, bind, Except.bind, pure, Except.pure]
      | false =>
          refine iff_of_false ?_ fun h => h.1 rfl
          have hraises : orOnValueError none (some <$> (.error e : Except PyException Json)) =
              .error e := if_neg (by simp [hvalue])
          rw [hraises]
          exact not_returns_error e
  | ok payload =>
      have hdeep : ¬ TooDeep limit (unfenced text) := by
        rintro ⟨kind, herror⟩
        rw [hloads] at herror
        cases herror
      change Returns (orOnValueError none (some <$> .ok payload) >>= _) ↔ _
      have hpayload : orOnValueError none (some <$> (.ok payload : Except PyException Json)) =
          .ok (some payload) := rfl
      rw [hpayload]
      cases payload with
      | object fields =>
          change Returns (payloadDate fields >>= fun publishedAt => pure _) ↔ _
          rw [returns_map, payloadDate_returns]
          refine ⟨fun h => ⟨hdeep, fun other date heq => ?_⟩, fun h date hget => h.2 fields date rfl hget⟩
          cases heq
          exact h date
      | null | bool | number | string | array =>
          refine iff_of_true ⟨{}, rfl⟩ ⟨hdeep, fun fields date heq => ?_⟩
          cases heq

-- A date of a model or a provider raises exactly if it is in the first or the
-- last year and its offset takes it out of the years that there are.
theorem dates_return (limit : Nat) :
    (∀ text, Returns (parseExtractedDate text) ↔ ¬ DateLeavesYears text) ∧
      (∀ value, Returns (parseProviderDate value) ↔ ¬ LeavesYears (withOffset value.toList)) ∧
      (∀ reply, Returns (enrichmentFromReply reply) ↔
        ∀ text, reply.publishedDate = some text → ¬ DateLeavesYears text) ∧
      ∀ text, Returns (parseEnrichment limit text) ↔ ¬ TooDeep limit (unfenced text) ∧
        ∀ fields date, loads limit (unfenced text) = .ok (.object fields) →
          Json.get fields "published_date" = some (.string date) → ¬ DateLeavesYears date :=
  ⟨parseExtractedDate_returns, parseProviderDate_returns, enrichmentFromReply_returns,
    parseEnrichment_returns limit⟩

end

-- The first hour of the year 1, east of Greenwich.
theorem dates_overflow :
    letI := Sample.unicode
    ¬ Returns (parseExtractedDate "0001-01-01T00:00:00+01:00") ∧
      ¬ Returns (parseProviderDate "0001-01-01T00:00:00+01:00") ∧
      ¬ Returns (enrichmentFromReply { publishedDate := some "0001-01-01T00:00:00+01:00" }) ∧
      ¬ Returns (parseEnrichment 1000
        "\x7b\"published_date\": \"0001-01-01T00:00:00+01:00\"\x7d") := by
  refine ⟨?_, ?_, ?_, ?_⟩ <;> decide +kernel

end AgentBoilerplate.Agent
