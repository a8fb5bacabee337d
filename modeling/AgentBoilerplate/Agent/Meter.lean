import AgentBoilerplate.Agent.Budgets
import AgentBoilerplate.Effects.Triples
import Mathlib.Tactic.Linarith

namespace AgentBoilerplate.Agent

open Python Effects Fallible

-- `record_llm` of the meter; `max(tokens, 0)`.
def Usage.recordLlm (usage : Usage) (inputTokens outputTokens : Int) : Usage :=
  { usage with
    llmCalls := usage.llmCalls + 1
    llmInputTokens := usage.llmInputTokens + inputTokens.toNat
    llmOutputTokens := usage.llmOutputTokens + outputTokens.toNat }

def Usage.recordSearch (usage : Usage) : Usage := { usage with searchCalls := usage.searchCalls + 1 }

-- What an adapter records.
inductive Recording where
  | llm (inputTokens outputTokens : Int)
  | search

def Usage.record (usage : Usage) : Recording → Usage
  | .llm inputTokens outputTokens => usage.recordLlm inputTokens outputTokens
  | .search => usage.recordSearch

-- The meter of a task, by what the adapters record during each call: anything,
-- but a reading of the meter records nothing.
structure UsageMeter where
  records : List (Event AgentPorts) → Event AgentPorts → List Recording
  reads : ∀ before answer, records before ⟨.snapshot, answer⟩ = []

-- One call: the calls so far, and the usage.
def UsageMeter.metered (meter : UsageMeter) (state : List (Event AgentPorts) × Usage)
    (event : Event AgentPorts) : List (Event AgentPorts) × Usage :=
  (state.1 ++ [event], (meter.records state.1 event).foldl Usage.record state.2)

def UsageMeter.usage (meter : UsageMeter) (events : List (Event AgentPorts)) : Usage :=
  (events.foldl meter.metered ([], {})).2

structure Pricing.Nonneg (pricing : Pricing) : Prop where
  llmInput : 0 ≤ pricing.llmInputPerMtok
  llmOutput : 0 ≤ pricing.llmOutputPerMtok
  search : 0 ≤ pricing.searchPerCall

-- What `exceeded` answers when the meter shows this usage.
def SpendGuard.ExceededBy (guard : SpendGuard) (usage : Usage) : Prop :=
  guard.capUsd > 0 ∧ usage.costUsd guard.pricing ≥ guard.capUsd

instance (guard : SpendGuard) (usage : Usage) : Decidable (guard.ExceededBy usage) :=
  inferInstanceAs (Decidable (_ ∧ _))

-- The cap of a task is exceeded after these calls.
def Exceeded (budget : Option SpendGuard) (meter : UsageMeter) (events : List (Event AgentPorts)) :
    Prop :=
  ∃ guard ∈ budget, guard.ExceededBy (meter.usage events)

-- The readings among the calls are those of the meter.
def Metered (meter : UsageMeter) (events : List (Event AgentPorts)) : Prop :=
  ∀ past answer, past ++ [⟨.snapshot, answer⟩] <+: events → answer = meter.usage past

-- Once the cap is exceeded, at most so many searches follow, and neither the
-- policy nor the critic is called.
def Restrained (budget : Option SpendGuard) (meter : UsageMeter) (searches : Nat)
    (events : List (Event AgentPorts)) : Prop :=
  ∀ past later, events = past ++ later → Exceeded budget meter past →
    callCount Mark.isSearched later ≤ searches ∧ callCount Mark.isDecided later = 0 ∧
      callCount Mark.isCritiqued later = 0

section Costs

theorem roundHalfEven_near (x : ℚ) : x - 1 / 2 ≤ roundHalfEven x ∧ (roundHalfEven x : ℚ) ≤ x + 1 / 2 := by
  have hbelow : (x.floor : ℚ) ≤ x := Int.floor_le x
  have habove : x < x.floor + 1 := Int.lt_floor_add_one x
  have hnear : (roundHalfEven x = x.floor ∧ x - x.floor ≤ 1 / 2) ∨
      (roundHalfEven x = x.floor + 1 ∧ 1 / 2 ≤ x - x.floor) := by
    unfold roundHalfEven
    dsimp only
    split
    · rename_i hless
      exact Or.inl ⟨rfl, hless.le⟩
    · rename_i hless
      split
      · rename_i hmore
        exact Or.inr ⟨rfl, hmore.le⟩
      · rename_i hmore
        have hhalf : x - x.floor = 1 / 2 := le_antisymm (not_lt.mp hmore) (not_lt.mp hless)
        split
        · exact Or.inl ⟨rfl, hhalf.le⟩
        · exact Or.inr ⟨rfl, hhalf.ge⟩
  rcases hnear with ⟨heq, hrest⟩ | ⟨heq, hrest⟩
  · rw [heq]
    constructor <;> linarith
  · rw [heq]
    push_cast
    constructor <;> linarith

theorem roundHalfEven_mono {x y : ℚ} (h : x ≤ y) : roundHalfEven x ≤ roundHalfEven y := by
  by_contra hnot
  have hstep : (roundHalfEven y : ℚ) + 1 ≤ roundHalfEven x := by exact_mod_cast not_le.mp hnot
  have hx := (roundHalfEven_near x).2
  have hy := (roundHalfEven_near y).1
  have hsame : x = y := le_antisymm h (by linarith)
  rw [hsame] at hnot
  exact hnot le_rfl

-- What a cost depends on, from one usage to a greater one.
structure Usage.Below (usage later : Usage) : Prop where
  llmInput : usage.llmInputTokens ≤ later.llmInputTokens
  llmOutput : usage.llmOutputTokens ≤ later.llmOutputTokens
  search : usage.searchCalls ≤ later.searchCalls

theorem Usage.below_refl (usage : Usage) : usage.Below usage := ⟨le_rfl, le_rfl, le_rfl⟩

theorem Usage.Below.trans {usage later last : Usage} (h : usage.Below later) (h' : later.Below last) :
    usage.Below last :=
  ⟨h.llmInput.trans h'.llmInput, h.llmOutput.trans h'.llmOutput, h.search.trans h'.search⟩

theorem Usage.below_record (usage : Usage) (recording : Recording) :
    usage.Below (usage.record recording) := by
  cases recording with
  | llm inputTokens outputTokens => exact ⟨Nat.le_add_right _ _, Nat.le_add_right _ _, le_rfl⟩
  | search => exact ⟨le_rfl, le_rfl, Nat.le_add_right _ _⟩

theorem Usage.below_records (usage : Usage) (recordings : List Recording) :
    usage.Below (recordings.foldl Usage.record usage) := by
  induction recordings generalizing usage with
  | nil => exact usage.below_refl
  | cons recording rest ih => exact (usage.below_record recording).trans (ih _)

theorem Usage.Below.costUsd_le {usage later : Usage} (h : usage.Below later) {pricing : Pricing}
    (hpricing : pricing.Nonneg) : usage.costUsd pricing ≤ later.costUsd pricing := by
  have hinput : usage.llmInputTokens * pricing.llmInputPerMtok ≤
      later.llmInputTokens * pricing.llmInputPerMtok :=
    mul_le_mul_of_nonneg_right (by exact_mod_cast h.llmInput) hpricing.llmInput
  have houtput : usage.llmOutputTokens * pricing.llmOutputPerMtok ≤
      later.llmOutputTokens * pricing.llmOutputPerMtok :=
    mul_le_mul_of_nonneg_right (by exact_mod_cast h.llmOutput) hpricing.llmOutput
  have hsearch : usage.searchCalls * pricing.searchPerCall ≤ later.searchCalls * pricing.searchPerCall :=
    mul_le_mul_of_nonneg_right (by exact_mod_cast h.search) hpricing.search
  unfold Usage.costUsd
  dsimp only
  have hrounded := roundHalfEven_mono (show
    ((usage.llmInputTokens * pricing.llmInputPerMtok +
        usage.llmOutputTokens * pricing.llmOutputPerMtok) / 1000000 +
      usage.searchCalls * pricing.searchPerCall) * 1000000 ≤
    ((later.llmInputTokens * pricing.llmInputPerMtok +
        later.llmOutputTokens * pricing.llmOutputPerMtok) / 1000000 +
      later.searchCalls * pricing.searchPerCall) * 1000000 by linarith)
  have hcast : (roundHalfEven _ : ℚ) ≤ roundHalfEven _ := Int.cast_le.mpr hrounded
  linarith

end Costs

section Meters

variable {budget : Option SpendGuard} {meter : UsageMeter} {past events : List (Event AgentPorts)}

theorem UsageMeter.metered_past (meter : UsageMeter) (events : List (Event AgentPorts))
    (state : List (Event AgentPorts) × Usage) : (events.foldl meter.metered state).1 = state.1 ++ events := by
  induction events generalizing state with
  | nil => exact (List.append_nil _).symm
  | cons event events ih =>
      rw [List.foldl_cons, ih, metered, List.append_assoc]
      rfl

theorem UsageMeter.usage_append (meter : UsageMeter) (past : List (Event AgentPorts))
    (event : Event AgentPorts) : meter.usage (past ++ [event]) =
      (meter.records past event).foldl Usage.record (meter.usage past) := by
  have hpast := meter.metered_past past ([], {})
  rw [List.nil_append] at hpast
  unfold usage
  rw [List.foldl_append, List.foldl_cons, List.foldl_nil, metered, hpast]

theorem UsageMeter.usage_below (meter : UsageMeter) (past later : List (Event AgentPorts)) :
    (meter.usage past).Below (meter.usage (past ++ later)) := by
  induction later generalizing past with
  | nil =>
      rw [List.append_nil]
      exact Usage.below_refl _
  | cons event later ih =>
      have hrest := ih (past ++ [event])
      rw [List.append_assoc, List.singleton_append] at hrest
      have hfirst := Usage.below_records (meter.usage past) (meter.records past event)
      rw [← meter.usage_append] at hfirst
      exact hfirst.trans hrest

-- A reading of the meter leaves it as it is.
theorem UsageMeter.usage_snapshot (meter : UsageMeter) (past : List (Event AgentPorts)) (answer : Usage) :
    meter.usage (past ++ [⟨.snapshot, answer⟩]) = meter.usage past := by
  rw [meter.usage_append, meter.reads]
  rfl

-- Once exceeded, the cap stays exceeded.
theorem Exceeded.stays (hprices : ∀ guard ∈ budget, guard.pricing.Nonneg)
    (h : Exceeded budget meter past) (hlater : past <+: events) : Exceeded budget meter events := by
  obtain ⟨later, rfl⟩ := hlater
  obtain ⟨guard, hguard, hcap, hcost⟩ := h
  have hmore := (meter.usage_below past later).costUsd_le (hprices guard hguard)
  exact ⟨guard, hguard, hcap, hcost.le.trans hmore⟩

theorem Metered.before {event : Event AgentPorts} (h : Metered meter (past ++ [event])) :
    Metered meter past :=
  fun earlier answer hearlier => h earlier answer (hearlier.trans (List.prefix_append past [event]))

theorem metered_oracle {α : Type} {oracle : Oracle AgentPorts}
    (hmeter : ∀ past, oracle past .snapshot = meter.usage past) (p : Program AgentPorts α) :
    Metered meter (p.execute oracle).2 := by
  refine Program.run_keeps (fun request past hpast => ?_) p fun before answer hbefore => ?_
  · intro before answer hbefore
    rcases List.prefix_concat_iff.mp hbefore with hlast | hearlier
    · obtain ⟨rfl, hevent⟩ := List.append_inj' hlast rfl
      obtain ⟨hcall, hanswer⟩ := Event.mk.inj (List.singleton_inj.mp hevent)
      subst hcall
      rw [eq_of_heq hanswer]
      exact hmeter before
    · exact hpast before answer hearlier
  · exact absurd (List.prefix_nil.mp hbefore) (by simp)

theorem callCount_append (call : Mark → Bool) (past events : List (Event AgentPorts)) :
    callCount call (past ++ events) = callCount call past + callCount call events := by
  unfold callCount
  rw [marks_append, List.countP_append]

theorem Restrained.append {searches more : Nat} (h : Restrained budget meter searches past)
    (hsearched : callCount Mark.isSearched events ≤ more)
    (hdecided : callCount Mark.isDecided events = 0) (hcritiqued : callCount Mark.isCritiqued events = 0) :
    Restrained budget meter (searches + more) (past ++ events) := by
  intro before later hsplit hexceeded
  rcases List.append_eq_append_iff.mp hsplit with ⟨rest, rfl, hrest⟩ | ⟨rest, hrest, rfl⟩
  · rw [hrest] at hsearched hdecided hcritiqued
    rw [callCount_append] at hsearched hdecided hcritiqued
    omega
  · obtain ⟨hold, hundecided, huncritiqued⟩ := h before rest hrest hexceeded
    rw [callCount_append, callCount_append, callCount_append]
    omega

-- Before the cap is exceeded, nothing is held back.
theorem restrained_clear (hprices : ∀ guard ∈ budget, guard.pricing.Nonneg)
    (h : ¬ Exceeded budget meter past) (searches : Nat) : Restrained budget meter searches past := by
  intro before later hsplit hexceeded
  exact absurd (hexceeded.stays hprices ⟨later, hsplit.symm⟩) h

-- A call that is made before it is exceeded is not held back either.
theorem restrained_call (hprices : ∀ guard ∈ budget, guard.pricing.Nonneg)
    (h : ¬ Exceeded budget meter past) (event : Event AgentPorts) (searches : Nat) :
    Restrained budget meter searches (past ++ [event]) := by
  intro before later hsplit hexceeded
  rcases List.eq_nil_or_concat later with rfl | ⟨rest, last, rfl⟩
  · exact ⟨Nat.zero_le _, rfl, rfl⟩
  · rw [List.concat_eq_append, ← List.append_assoc] at hsplit
    obtain ⟨rfl, -⟩ := List.append_inj' hsplit rfl
    exact absurd (hexceeded.stays hprices (List.prefix_append before rest)) h

end Meters

end AgentBoilerplate.Agent
