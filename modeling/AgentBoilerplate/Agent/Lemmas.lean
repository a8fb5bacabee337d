import AgentBoilerplate.Agent.Graph
import AgentBoilerplate.Collections.Traversal

namespace AgentBoilerplate.Agent

open Python Effects Collections

theorem hitFromDict_hitToDict (hit : RawSearchHit) : hitFromDict (hitToDict hit) = hit := rfl

theorem hits_roundtrip (hits : List RawSearchHit) : (hits.map hitToDict).map hitFromDict = hits := by
  rw [List.map_map]
  exact List.map_id'' hitFromDict_hitToDict hits

theorem AgentStepKind.ofValue_value (kind : AgentStepKind) : ofValue kind.value = .ok kind := by
  cases kind <;> rfl

theorem stepFromDict_stepToDict (step : AgentStep) : stepFromDict (stepToDict step) = .ok step := by
  simp only [stepFromDict, stepToDict, AgentStepKind.ofValue_value]
  rfl

theorem steps_roundtrip (steps : List AgentStep) :
    (steps.map stepToDict).mapM stepFromDict = .ok steps := by
  induction steps with
  | nil => rfl
  | cons step steps ih =>
      rw [List.map_cons, List.mapM_cons, stepFromDict_stepToDict, ih]
      rfl

theorem AgentStepKind.value_eq_search (kind : AgentStepKind) :
    kind.value = AgentStepKind.search.value ↔ kind = .search := by
  cases kind <;> decide

theorem searchesDone_encoded (steps : List AgentStep) :
    searchesDoneDict (steps.map stepToDict) = searchesDone steps := by
  unfold searchesDoneDict searchesDone
  rw [List.countP_map]
  congr 1
  funext step
  simp [stepToDict, AgentStepKind.value_eq_search]

-- The form under which a URL is compared, if it is accepted.
def canonical [Unicode] (url : String) : String :=
  match normalizeUrl url with
  | .ok key => key
  | .error _ => url

theorem normalizeUrl_eq [Unicode] {url : String} (h : Returns (normalizeUrl url)) :
    normalizeUrl url = .ok (canonical url) := by
  obtain ⟨key, hkey⟩ := h
  unfold canonical
  rw [hkey]

-- A hit is new only if its URL is accepted.
theorem hitKeys_of_newHits [Unicode] {collected : List String} {found new : List RawSearchHit}
    (h : newHits collected found = .ok new) : ∃ keys, hitKeys new = .ok keys := by
  induction found generalizing new with
  | nil =>
      cases h
      exact ⟨[], rfl⟩
  | cons hit found ih =>
      unfold newHits at h
      cases hkey : normalizeUrl hit.url with
      | error e =>
          rw [hkey] at h
          cases h
      | ok key =>
          cases hrest : newHits collected found with
          | error e =>
              rw [hkey, hrest] at h
              cases h
          | ok rest =>
              rw [hkey, hrest] at h
              obtain ⟨keys, hkeys⟩ := ih hrest
              cases h
              split
              · refine ⟨key :: keys, ?_⟩
                unfold hitKeys at hkeys ⊢
                rw [List.mapM_cons, hkey, hkeys]
                rfl
              · exact ⟨keys, hkeys⟩

-- Concrete surroundings, to run the agent in: all text is ASCII, the policy
-- searches once, and the critic has nothing to say.
namespace Sample

@[reducible] def unicode : Unicode where
  lower s := s.map Char.toLower
  nfkc s := s
  isPrintable := Str.isAscii

def hit (url : String) : RawSearchHit where
  title := "Lean 4.33.0"
  url := url
  snippet := ""

def task : AgentTask where
  jobId := "c1a7f6d2-5b0e-4e9b-9d34-7a2f80c6e915"
  goal := "lean 4"
  critic := true
  clarifier := true
  clarification := none
  seenUrls := none
  pageDates := false
  maxSteps := 2
  budget := none

-- What a search answers is left open.
def answers (found : List RawSearchHit) : Oracle AgentPorts
  | _, .search _ => .ok found
  | _, .decide _ steps _ =>
      .ok (if steps = [] then .search "lean 4 release" "start" else .finish "covered")
  | _, .critique _ _ => .ok { assessment := "on topic" }
  | _, .enrichMany hits => .ok (hits.map fun _ => {})
  | _, .fetchPublishedDate _ => .ok none
  | _, .snapshot => {}
  | _, .markStarted _ | _, .requestClarification _ _ | _, .reportStep _ _ | _, .deliver _ _
  | _, .reportFailure _ _ => .ok ()

def oracle : Oracle AgentPorts := answers [hit "https://ex.com/a", hit "https://ex.com/b"]

end Sample

end AgentBoilerplate.Agent
