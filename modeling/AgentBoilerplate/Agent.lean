import AgentBoilerplate.Agent.Urls
import AgentBoilerplate.Python.DateTime
import AgentBoilerplate.Effects.Program
import Mathlib.Data.Rat.Floor

namespace AgentBoilerplate.Agent

open Python Effects

inductive Json where
  | null
  | bool (value : Bool)
  | number (text : String)
  | string (value : String)
  | array (items : List Json)
  | object (fields : List (String × Json))

inductive DateConfidence where
  | high
  | medium
  | unknown
deriving DecidableEq, Repr

inductive EventType where
  | announcement
  | release
  | funding
  | legal
  | incident
  | research
  | opinion
  | other
deriving DecidableEq, Repr

structure RawSearchHit where
  title : String
  url : String
  snippet : String
  publishedAt : Option DateTime := none
  raw : List (String × Json) := []

structure HitEnrichment where
  publishedAt : Option DateTime := none
  eventType : EventType := .other
  summary : Option String := none
deriving DecidableEq, Repr

structure ResearchResult where
  title : String
  url : String
  snippet : String
  publishedAt : Option DateTime
  dateConfidence : DateConfidence
  eventType : EventType := .other
  summary : Option String := none
  isNew : Bool := true
  raw : List (String × Json) := []

inductive AgentStepKind where
  | search
  | finish
  | critique
  | report
  | knowledge
deriving DecidableEq, Repr

def AgentStepKind.value : AgentStepKind → String
  | .search => "search"
  | .finish => "finish"
  | .critique => "critique"
  | .report => "report"
  | .knowledge => "knowledge"

inductive AgentAction where
  | search (query reason : String)
  | finish (reason : String)
  | ask (question reason : String)
deriving DecidableEq, Repr

structure Critique where
  assessment : String
  irrelevantUrls : List String := []
  gapQuery : Option String := none
deriving DecidableEq, Repr

structure AgentStep where
  seq : Nat
  kind : AgentStepKind
  detail : String
  reason : String
  newHits : Nat := 0
deriving DecidableEq, Repr

-- Unknown dates go last; `timestamp` is exact here.
def sortKey (result : ResearchResult) : Nat × Int :=
  match result.publishedAt with
  | none => (1, 0)
  | some publishedAt => (0, -publishedAt.instant)

def keyLe (a b : Nat × Int) : Prop := a.1 < b.1 ∨ a.1 = b.1 ∧ a.2 ≤ b.2

instance (a b : Nat × Int) : Decidable (keyLe a b) := inferInstanceAs (Decidable (_ ∨ _))

-- `sorted` is stable.
def sortByPublicationDate (results : List ResearchResult) : List ResearchResult :=
  results.insertionSort fun a b => keyLe (sortKey a) (sortKey b)

def flagNew [Unicode] (results : List ResearchResult) (seenUrls : List String) :
    Except PyException (List ResearchResult) := do
  let seenKeys ← seenUrls.mapM normalizeUrl
  results.mapM fun result => do
    let key ← normalizeUrl result.url
    return { result with isNew := key ∉ seenKeys }

-- One hit of the deduplication: the keys seen and the hits kept.
def dedupeHit [Unicode] (state : List String × List RawSearchHit) (hit : RawSearchHit) :
    Except PyException (List String × List RawSearchHit) := do
  let key ← normalizeUrl hit.url
  if key ∉ state.1 then
    return (state.1 ++ [key], state.2 ++ [hit])
  else
    return state

def dedupeHits [Unicode] (hits : List RawSearchHit) : Except PyException (List RawSearchHit) := do
  let state ← hits.foldlM dedupeHit ([], [])
  return state.2

def asUtc (value : DateTime) : Except PyException DateTime :=
  if value.isNaive then .ok value.replaceUtc else value.astimezoneUtc

structure Pricing where
  llmInputPerMtok : ℚ
  llmOutputPerMtok : ℚ
  searchPerCall : ℚ
deriving DecidableEq, Repr

structure Usage where
  llmCalls : Nat := 0
  llmInputTokens : Nat := 0
  llmOutputTokens : Nat := 0
  searchCalls : Nat := 0
deriving DecidableEq, Repr

-- Halves go to the even neighbour.
def roundHalfEven (x : ℚ) : Int :=
  let below := x.floor
  let rest := x - below
  if rest < 1 / 2 then below
  else if rest > 1 / 2 then below + 1
  else if below % 2 = 0 then below
  else below + 1

-- Costs are exact here.
def Usage.costUsd (usage : Usage) (pricing : Pricing) : ℚ :=
  let tokens := (usage.llmInputTokens * pricing.llmInputPerMtok +
    usage.llmOutputTokens * pricing.llmOutputPerMtok) / 1000000
  roundHalfEven ((tokens + usage.searchCalls * pricing.searchPerCall) * 1000000) / 1000000

-- The meter is a port: the adapters record into it.
structure SpendGuard where
  pricing : Pricing
  capUsd : ℚ
deriving DecidableEq, Repr

-- `f"{amount:.2f}"`.
def formatCents (amount : ℚ) : String :=
  let cents := (roundHalfEven (amount * 100)).natAbs
  (if amount < 0 then "-" else "") ++ toString (cents / 100) ++ "." ++
    String.ofList [Char.ofNat (0x30 + cents % 100 / 10), Char.ofNat (0x30 + cents % 10)]

end AgentBoilerplate.Agent
