import AgentBoilerplate.Agent

namespace AgentBoilerplate.Agent

open Python Effects

-- The calls of the ports. The meter of a spend guard is read by `snapshot`.
inductive AgentCall where
  | markStarted (jobId : String)
  | search (keyword : String)
  | decide (goal : String) (steps : List AgentStep) (hits : List RawSearchHit)
  | critique (goal : String) (hits : List RawSearchHit)
  | requestClarification (jobId question : String)
  | reportStep (jobId : String) (step : AgentStep)
  | enrichMany (hits : List RawSearchHit)
  | fetchPublishedDate (url : String)
  | deliver (jobId : String) (results : List ResearchResult)
  | reportFailure (jobId error : String)
  | snapshot

@[reducible] def AgentCall.Answer : AgentCall → Type
  | .markStarted _ => Except PyException Unit
  | .search _ => Except PyException (List RawSearchHit)
  | .decide _ _ _ => Except PyException AgentAction
  | .critique _ _ => Except PyException Critique
  | .requestClarification _ _ => Except PyException Unit
  | .reportStep _ _ => Except PyException Unit
  | .enrichMany _ => Except PyException (List HitEnrichment)
  | .fetchPublishedDate _ => Except PyException (Option DateTime)
  | .deliver _ _ => Except PyException Unit
  | .reportFailure _ _ => Except PyException Unit
  | .snapshot => Usage

@[reducible] def AgentPorts : Interface := ⟨AgentCall, AgentCall.Answer⟩

-- Code that calls the ports and may raise.
abbrev AgentRun := Fallible AgentPorts PyException

@[simp] def ask (request : AgentCall) : Program AgentPorts request.Answer := .call request .done

-- What the runs do `except Exception as exc`, before they raise it again.
def reportResult {α : Type} (jobId : String) :
    Except PyException α → Program AgentPorts (Except PyException α)
  | .ok value => return .ok value
  | .error exc => do
      let _ ← ask (.reportFailure jobId exc.message)
      return .error exc

def reportingFailure {α : Type} (jobId : String) (run : AgentRun α) :
    Program AgentPorts (Except PyException α) :=
  run.run >>= reportResult jobId

variable [Unicode]

-- The date cascade: the provider's date, the date the page declares, the guess.
def chooseDate (provider page guess : Option DateTime) :
    Except PyException (Option DateTime × DateConfidence) :=
  match provider, page, guess with
  | some date, _, _ => do return (some (← asUtc date), .high)
  | none, some date, _ => do return (some (← asUtc date), .high)
  | none, none, some date => do return (some (← asUtc date), .medium)
  | none, none, none => .ok (none, .unknown)

-- The page is fetched only when the provider gave no date.
def resolveHit (pageDates : Bool) (hit : RawSearchHit) (enrichment : HitEnrichment) :
    AgentRun ResearchResult := do
  let pageDate ←
    if hit.publishedAt = none ∧ pageDates then raising (ask (.fetchPublishedDate hit.url))
    else pure none
  let chosen ← orRaise (chooseDate hit.publishedAt pageDate enrichment.publishedAt)
  return {
    title := hit.title
    url := hit.url
    snippet := hit.snippet
    publishedAt := chosen.1
    dateConfidence := chosen.2
    eventType := enrichment.eventType
    summary := enrichment.summary
    raw := hit.raw }

-- `zip(…, strict=True)` finds the lengths out at the end of the shorter list.
def resolveZip (pageDates : Bool) :
    List RawSearchHit → List HitEnrichment → AgentRun (List ResearchResult)
  | [], [] => return []
  | [], _ :: _ => throw (valueError "zip() argument 2 is longer than argument 1")
  | _ :: _, [] => throw (valueError "zip() argument 2 is shorter than argument 1")
  | hit :: hits, enrichment :: enrichments => do
      let result ← resolveHit pageDates hit enrichment
      let results ← resolveZip pageDates hits enrichments
      return result :: results

def resolveHits (pageDates : Bool) (hits : List RawSearchHit) :
    AgentRun (List ResearchResult) := do
  let enrichments ← raising (ask (.enrichMany hits))
  resolveZip pageDates hits enrichments

def research (jobId keyword : String) (seenUrls : Option (List String)) (pageDates : Bool) :
    AgentRun (List ResearchResult) := do
  raising (ask (.markStarted jobId))
  let found ← raising (ask (.search keyword))
  let hits ← orRaise (dedupeHits found)
  let results ← sortByPublicationDate <$> resolveHits pageDates hits
  let results ← match seenUrls with
    | none => pure results
    | some seenUrls => orRaise (flagNew results seenUrls)
  raising (ask (.deliver jobId results))
  return results

-- The workflow mode.
def runResearch (jobId keyword : String) (seenUrls : Option (List String)) (pageDates : Bool) :
    Program AgentPorts (Except PyException (List ResearchResult)) :=
  reportingFailure jobId (research jobId keyword seenUrls pageDates)

end AgentBoilerplate.Agent
