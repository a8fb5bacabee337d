import AgentBoilerplate.Agent.Meter

namespace AgentBoilerplate.Agent

open Python Effects Fallible

section

variable {budget : Option SpendGuard} {meter : UsageMeter}

-- The cap is not exceeded, as far as the meter is read right.
def Clear (budget : Option SpendGuard) (meter : UsageMeter) : Assertion AgentPorts :=
  fun events => Metered meter events → ¬ Exceeded budget meter events

-- The calls made since the cap was exceeded are at most so many searches.
def Spared (budget : Option SpendGuard) (meter : UsageMeter) (searches : Nat) :
    Assertion AgentPorts :=
  fun events => Metered meter events → Restrained budget meter searches events

-- Code that keeps to one search after the cap, however it ends.
abbrev Spares {α : Type} (budget : Option SpendGuard) (meter : UsageMeter) (searches : Nat)
    (x : AgentRun α) (Q : α → Assertion AgentPorts) : Prop :=
  Triple (Spared budget meter searches) x Q fun _ => Spared budget meter 1

theorem Spared.le {searches more : Nat} {events : List (Event AgentPorts)}
    (h : Spared budget meter searches events) (hle : searches ≤ more) :
    Spared budget meter more events := by
  intro hmetered past later hsplit hexceeded
  obtain ⟨hsearched, hrest⟩ := h hmetered past later hsplit hexceeded
  exact ⟨hsearched.trans hle, hrest⟩

-- Calls that are none of the three.
theorem Spared.quiet {searches : Nat} {past events : List (Event AgentPorts)} {trace : List Mark}
    (h : Spared budget meter searches past) (hextends : past <+: events)
    (hmarks : marks events = marks past ++ trace) (hsearched : trace.countP Mark.isSearched = 0)
    (hdecided : trace.countP Mark.isDecided = 0) (hcritiqued : trace.countP Mark.isCritiqued = 0) :
    Spared budget meter searches events := by
  obtain ⟨new, rfl⟩ := hextends
  have hnew : marks new = trace := List.append_cancel_left ((marks_append past new).symm.trans hmarks)
  intro hmetered
  have hpast : Metered meter past :=
    fun before answer hbefore => hmetered before answer (hbefore.trans (List.prefix_append past new))
  unfold Spared at h
  have hmore := @Restrained.append budget meter past new searches 0 (h hpast)
  unfold callCount at hmore
  rw [hnew] at hmore
  exact hmore hsearched.le hdecided hcritiqued

theorem Spared.unmarked {searches : Nat} {past : List (Event AgentPorts)} {event : Event AgentPorts}
    (h : Spared budget meter searches past) (hmark : mark event = none) :
    Spared budget meter searches (past ++ [event]) :=
  h.quiet (List.prefix_append past [event])
    ((marks_unmarked past hmark).trans (List.append_nil _).symm) rfl rfl rfl

theorem Spared.searched {past : List (Event AgentPorts)} (h : Spared budget meter 0 past)
    (query : String) (answer : Except PyException (List RawSearchHit)) :
    Spared budget meter 1 (past ++ [⟨.search query, answer⟩]) :=
  fun hmetered => (h hmetered.before).append le_rfl rfl rfl

theorem Spares.silent {α : Type} {x : AgentRun α} (h : Silent x) {searches : Nat}
    (hle : searches ≤ 1) : Spares budget meter searches x fun _ => Spared budget meter searches := by
  intro past hpast
  refine ((h past).and (Program.ends_extends _ past)).mono fun events result hresult => ?_
  have hmarks : marks events = marks past ++ [] := hresult.1.trans (List.append_nil _).symm
  have hspared := hpast.quiet hresult.2 hmarks rfl rfl rfl
  cases result with
  | error e => exact hspared.le hle
  | ok value => exact hspared

theorem report_spared {searches : Nat} (jobId : String) (step : AgentStep)
    (past : List (Event AgentPorts)) (h : Spared budget meter searches past) :
    (report jobId step).Ends (fun events _ => Spared budget meter searches events) past :=
  fun _ => h.quiet (List.prefix_append past _) (marks_marked past rfl) rfl rfl rfl

theorem record_spares (task : AgentTask) (state : GraphState) (step : AgentStep) (searches : Nat) :
    Spares budget meter searches (liftM (state.record task step) : AgentRun GraphState)
      fun _ => Spared budget meter searches := by
  refine triple_lift fun past hpast => ?_
  unfold GraphState.record
  rw [Program.ends_bind]
  exact report_spared task.jobId step past hpast

theorem loopRecord_spares (task : AgentTask) (loop : LoopState) (step : AgentStep) (searches : Nat) :
    Spares budget meter searches (liftM (loop.record task step) : AgentRun LoopState)
      fun _ => Spared budget meter searches := by
  refine triple_lift fun past hpast => ?_
  unfold LoopState.record
  rw [Program.ends_bind]
  exact report_spared task.jobId step past hpast

theorem search_spares (query : String) :
    Spares budget meter 0 (raising (ask (.search query))) fun _ => Spared budget meter 1 := by
  refine triple_call fun past answer hpast => ?_
  have hsearched := hpast.searched query answer
  cases answer <;> exact hsearched

-- A reading that lets the code go on says that the cap is not exceeded.
theorem overBudget_spares (searches : Nat) :
    Spares budget meter searches (liftM (overBudget budget) : AgentRun Bool) fun exhausted events =>
      Spared budget meter searches events ∧ (exhausted = false → Clear budget meter events) := by
  refine triple_lift fun past hpast => ?_
  cases hbudget : budget with
  | none =>
      refine ⟨hbudget ▸ hpast, fun _ _ hexceeded => ?_⟩
      obtain ⟨guard, hguard, -⟩ := hexceeded
      cases hguard
  | some guard =>
      rw [hbudget] at hpast
      change Program.Ends _ past guard.exceeded
      unfold SpendGuard.exceeded
      by_cases hcap : guard.capUsd > 0
      · rw [if_pos hcap]
        intro answer
        refine ⟨hpast.unmarked rfl, fun hgo hmetered hexceeded => ?_⟩
        obtain ⟨other, hother, -, hcost⟩ := hexceeded
        cases hother
        have hanswer := hmetered past answer (List.prefix_refl _)
        rw [meter.usage_snapshot, ← hanswer] at hcost
        exact of_decide_eq_false hgo hcost
      · rw [if_neg hcap]
        refine ⟨hpast, fun _ _ hexceeded => ?_⟩
        obtain ⟨other, hother, hpositive, -⟩ := hexceeded
        cases hother
        exact hcap hpositive

section Prices

variable (hprices : ∀ guard ∈ budget, guard.pricing.Nonneg)

include hprices

theorem Clear.spared {events : List (Event AgentPorts)} (h : Clear budget meter events) :
    Spared budget meter 0 events := fun hmetered => restrained_clear hprices (h hmetered) 0

theorem Clear.call {past : List (Event AgentPorts)} (h : Clear budget meter past)
    (event : Event AgentPorts) : Spared budget meter 0 (past ++ [event]) :=
  fun hmetered => restrained_call hprices (h hmetered.before) event 0

-- The policy and the critic are called only then.
theorem decide_spares (goal : String) (steps : List AgentStep) (hits : List RawSearchHit) :
    Triple (Clear budget meter) (raising (ask (.decide goal steps hits)))
      (fun _ => Spared budget meter 0) fun _ => Spared budget meter 1 := by
  refine triple_call fun past answer hpast => ?_
  have hspared := hpast.call hprices ⟨.decide goal steps hits, answer⟩
  cases answer with
  | error e => exact hspared.le (Nat.zero_le 1)
  | ok action => exact hspared

theorem critique_spares (goal : String) (hits : List RawSearchHit) :
    Triple (Clear budget meter) (raising (ask (.critique goal hits)))
      (fun _ => Spared budget meter 0) fun _ => Spared budget meter 1 := by
  refine triple_call fun past answer hpast => ?_
  have hspared := hpast.call hprices ⟨.critique goal hits, answer⟩
  cases answer with
  | error e => exact hspared.le (Nat.zero_le 1)
  | ok verdict => exact hspared

end Prices

end

section Runs

variable [Unicode] {task : AgentTask} {meter : UsageMeter}

omit [Unicode] in
theorem spares_orRaise {α : Type} (x : Except PyException α) {searches : Nat} (hle : searches ≤ 1) :
    Spares task.budget meter searches (orRaise x : AgentRun α)
      fun _ => Spared task.budget meter searches := Spares.silent (silent_orRaise x) hle

theorem searchStep_spares (seq : Nat) (query reason : String) (loop : LoopState) :
    Spares task.budget meter 0 (searchStep task seq query reason loop)
      fun _ => Spared task.budget meter 1 := by
  refine (search_spares query).bind fun found => ?_
  refine (spares_orRaise _ le_rfl).bind fun new => ?_
  exact (spares_orRaise _ le_rfl).bind fun keys => loopRecord_spares task _ _ 1

variable (hprices : ∀ guard ∈ task.budget, guard.pricing.Nonneg)

include hprices

omit [Unicode] in
-- An action of the policy is within the cap; a finish comes after it too.
theorem chooseAction_spares (loop : LoopState) :
    Spares task.budget meter 1 (chooseAction task loop) fun action events =>
      Spared task.budget meter 1 events ∧
        ∀ query reason, action = .search query reason → Spared task.budget meter 0 events := by
  refine (overBudget_spares 1).bind fun exhausted => ?_
  refine triple_ite (fun hexhausted => ?_) fun hexhausted => ?_
  · refine triple_pure fun past hpast => ⟨hpast.1, fun query reason heq => ?_⟩
    cases heq
  · have hclear : ∀ past, Spared task.budget meter 1 past ∧
        (exhausted = false → Clear task.budget meter past) → Clear task.budget meter past :=
      fun past hpast => hpast.2 (Bool.eq_false_of_not_eq_true hexhausted)
    refine ((decide_spares hprices _ _ _).before hclear).bind fun action => ?_
    exact triple_pure fun past hpast => ⟨hpast.le (Nat.zero_le 1), fun _ _ _ => hpast⟩

theorem selfCritique_spares (loop : LoopState) :
    Triple (Clear task.budget meter) (selfCritique task loop)
      (fun _ => Spared task.budget meter 1) fun _ => Spared task.budget meter 1 := by
  refine (critique_spares hprices _ _).bind fun critique => ?_
  refine (loopRecord_spares task _ _ 0).bind fun later => ?_
  refine (overBudget_spares 0).bind fun exhausted => ?_
  have hspared : ∀ past, Spared task.budget meter 0 past ∧
      (exhausted = false → Clear task.budget meter past) → Spared task.budget meter 1 past :=
    fun past hpast => hpast.1.le (Nat.zero_le 1)
  cases critique.gapQuery with
  | none => exact triple_pure hspared
  | some gap =>
      refine triple_ite (fun _ => ?_) fun _ => triple_pure hspared
      refine ((search_spares gap).before fun past hpast => hpast.1).bind fun found => ?_
      refine (spares_orRaise _ le_rfl).bind fun keptKeys => ?_
      exact (spares_orRaise _ le_rfl).bind fun new => loopRecord_spares task _ _ 1

theorem review_spares (loop : LoopState) :
    Spares task.budget meter 1 (review task loop) fun _ => Spared task.budget meter 1 := by
  refine triple_ite (fun _ => ?_) fun _ => triple_pure fun past hpast => hpast
  refine (overBudget_spares 1).bind fun exhausted => ?_
  refine triple_ite (fun _ => triple_pure fun past hpast => hpast.1) fun hexhausted => ?_
  exact (selfCritique_spares hprices loop).before fun past hpast =>
    hpast.2 (Bool.eq_false_of_not_eq_true hexhausted)

-- The turns of the loop, by induction on those that are left.
theorem decisionLoop_spares (seqs : List Nat) (loop : LoopState) :
    Spares task.budget meter 1 (decisionLoop task seqs loop) fun _ => Spared task.budget meter 1 := by
  induction seqs generalizing loop with
  | nil => exact (loopRecord_spares task _ _ 1).bind fun later => triple_pure fun past hpast => hpast
  | cons seq seqs ih =>
      rw [decisionLoop_cons]
      refine (chooseAction_spares hprices loop).bind fun action => ?_
      cases action with
      | ask question reason =>
          have hasked : Spares task.budget meter 1
              (raising (ask (.requestClarification task.jobId question)))
              fun _ => Spared task.budget meter 1 := by
            refine triple_call fun past answer hpast => ?_
            have hmark : mark ⟨.requestClarification task.jobId question, answer⟩ = some .asked := rfl
            have hspared := hpast.quiet (List.prefix_append past _) (marks_marked past hmark) rfl rfl rfl
            cases answer <;> exact hspared
          refine (hasked.before fun past hpast => hpast.1).bind fun _ => ?_
          exact triple_pure fun past hpast => hpast
      | search query reason =>
          have hsearch : Spares task.budget meter 0 (searchStep task seq query reason loop)
            fun _ => Spared task.budget meter 1 := searchStep_spares seq query reason loop
          refine (hsearch.before fun past hpast => hpast.2 query reason rfl).bind fun later => ?_
          exact ih later
      | finish reason =>
          refine ((loopRecord_spares task _ _ 1).before fun past hpast => hpast.1).bind fun later => ?_
          exact triple_pure fun past hpast => hpast

omit hprices in
theorem deliver_spares (hits : List RawSearchHit) (seq : Nat) :
    Spares task.budget meter 1 (deliver task hits seq) fun _ => Spared task.budget meter 1 := by
  intro past hpast
  refine ((deliver_ends task hits seq).and (Program.ends_extends _ past)).mono
    fun events result hresult => ?_
  obtain ⟨hmarks, hextends⟩ := hresult
  have hspared : Spared task.budget meter 1 events := by
    rcases hmarks with hsame | ⟨step, -, -, hreport⟩
    · exact hpast.quiet hextends (hsame.trans (List.append_nil _).symm) rfl rfl rfl
    · exact hpast.quiet hextends hreport rfl rfl rfl
  cases result <;> exact hspared

theorem agentResearch_spares :
    Spares task.budget meter 1 (agentResearch task) fun _ => Spared task.budget meter 1 := by
  have hstarted : Silent (raising (ask (.markStarted task.jobId))) := silent_call fun _ => rfl
  refine (Spares.silent hstarted le_rfl).bind fun _ => ?_
  refine (decisionLoop_spares hprices _ _).bind fun loop => ?_
  cases loop with
  | none => exact triple_pure fun past hpast => hpast
  | some loop =>
      refine (review_spares hprices loop).bind fun later => ?_
      rw [map_eq_pure_bind]
      exact (deliver_spares _ _).bind fun _ => triple_pure fun past hpast => hpast

-- The searches that may have been made since the cap was exceeded, when a node
-- is due: none before a search.
omit [Unicode] hprices in
def Node.quota : Node → Nat
  | .search => 0
  | .decide | .ask | .finalize | .critique => 1

-- What a node leaves to the one that is due next.
def NodeSpares (task : AgentTask) (meter : UsageMeter) (node : Node) :
    NodeResult GraphState String → Assertion AgentPorts
  | .update state, events => Spared task.budget meter 1 events ∧ ∀ next,
      (buildGraph task).next node state = .ok (some next) → Spared task.budget meter next.quota events
  | .interrupt _, events => Spared task.budget meter 1 events

theorem runDecide_spares (state : GraphState) :
    Spares task.budget meter 1 (Node.runDecide task state) (NodeSpares task meter .decide) := by
  have hfinish : ∀ (reason : String) (past : List (Event AgentPorts)),
      Spared task.budget meter 1 past → NodeSpares task meter .decide
        (.update { state with next := actionToDict (.finish reason) }) past := by
    intro reason past hpast
    refine ⟨hpast, fun next hnext => ?_⟩
    rw [next_decide] at hnext
    cases hnext
    exact hpast
  refine triple_ite (fun _ => triple_pure (hfinish _)) fun _ => ?_
  refine (overBudget_spares 1).bind fun exhausted => ?_
  refine triple_ite (fun _ => triple_pure fun past hpast => hfinish _ past hpast.1) fun hexhausted => ?_
  have hclear : ∀ past, Spared task.budget meter 1 past ∧
      (exhausted = false → Clear task.budget meter past) → Clear task.budget meter past :=
    fun past hpast => hpast.2 (Bool.eq_false_of_not_eq_true hexhausted)
  refine Triple.before (Triple.bind (R := fun _ => Clear task.budget meter) ?_ fun steps => ?_) hclear
  · refine triple_orRaise (fun _ _ past hpast => hpast) fun e _ past hpast => ?_
    exact (hpast.spared hprices).le (Nat.zero_le 1)
  · refine (decide_spares hprices _ _ _).bind fun action => triple_pure fun past hpast => ?_
    refine ⟨hpast.le (Nat.zero_le 1), fun next _ => hpast.le (Nat.zero_le _)⟩

omit hprices in
theorem runSearch_spares (state : GraphState) :
    Spares task.budget meter 0 (Node.runSearch task state) (NodeSpares task meter .search) := by
  refine (spares_orRaise _ (Nat.zero_le 1)).bind fun query => ?_
  refine (spares_orRaise _ (Nat.zero_le 1)).bind fun reason => ?_
  refine (search_spares query).bind fun found => ?_
  refine (spares_orRaise _ le_rfl).bind fun new => ?_
  refine (record_spares task _ _ 1).bind fun later => ?_
  refine (spares_orRaise _ le_rfl).bind fun keys => triple_pure fun past hpast => ⟨hpast, ?_⟩
  intro next hnext
  cases hnext
  exact hpast

omit hprices in
theorem runAsk_spares (resume : Option String) (state : GraphState) :
    Spares task.budget meter 1 (Node.runAsk resume state) (NodeSpares task meter .ask) := by
  refine (spares_orRaise _ le_rfl).bind fun question => ?_
  cases resume with
  | none => exact triple_pure fun past hpast => hpast
  | some answer =>
      refine triple_pure fun past hpast => ⟨hpast, fun next hnext => ?_⟩
      cases hnext
      exact hpast

omit hprices in
theorem runFinalize_spares (state : GraphState) :
    Spares task.budget meter 1 (Node.runFinalize task state) (NodeSpares task meter .finalize) := by
  refine (spares_orRaise _ le_rfl).bind fun reason => ?_
  refine (record_spares task _ _ 1).bind fun later => ?_
  refine triple_pure fun past hpast => ⟨hpast, fun next hnext => ?_⟩
  have hnode : (if task.critic then some Node.critique else none) = some next := Except.ok.inj hnext
  split at hnode
  · cases hnode
    exact hpast
  · cases hnode

theorem runCritique_spares (state : GraphState) :
    Spares task.budget meter 1 (Node.runCritique task state) (NodeSpares task meter .critique) := by
  have hlast : ∀ (state : GraphState) (past : List (Event AgentPorts)),
      Spared task.budget meter 1 past → NodeSpares task meter .critique (.update state) past := by
    intro state past hpast
    refine ⟨hpast, fun next hnext => ?_⟩
    cases hnext
  refine (overBudget_spares 1).bind fun exhausted => ?_
  refine triple_ite (fun _ => triple_pure fun past hpast => hlast _ past hpast.1) fun hexhausted => ?_
  have hclear : ∀ past, Spared task.budget meter 1 past ∧
      (exhausted = false → Clear task.budget meter past) → Clear task.budget meter past :=
    fun past hpast => hpast.2 (Bool.eq_false_of_not_eq_true hexhausted)
  refine ((critique_spares hprices _ _).before hclear).bind fun verdict => ?_
  refine (record_spares task _ _ 0).bind fun later => ?_
  refine (overBudget_spares 0).bind fun exhausted => ?_
  have hspared : ∀ past, Spared task.budget meter 0 past ∧
      (exhausted = false → Clear task.budget meter past) →
        NodeSpares task meter .critique (.update later) past :=
    fun past hpast => hlast _ past (hpast.1.le (Nat.zero_le 1))
  cases verdict.gapQuery with
  | none => exact triple_pure hspared
  | some gap =>
      refine triple_ite (fun _ => ?_) fun _ => triple_pure hspared
      refine ((search_spares gap).before fun past hpast => hpast.1).bind fun found => ?_
      refine (spares_orRaise _ le_rfl).bind fun keptKeys => ?_
      refine (spares_orRaise _ le_rfl).bind fun new => ?_
      exact (record_spares task _ _ 1).bind fun repaired => triple_pure (hlast _)

theorem node_spares (node : Node) (resume : Option String) (state : GraphState) :
    Spares task.budget meter node.quota ((buildGraph task).node node resume state)
      (NodeSpares task meter node) := by
  cases node with
  | decide => exact runDecide_spares hprices state
  | search => exact runSearch_spares state
  | ask => exact runAsk_spares resume state
  | finalize => exact runFinalize_spares state
  | critique => exact runCritique_spares hprices state

-- The nodes of the graph, by induction on the limit of the framework.
theorem invoke_spares (limit : Nat) (executed : List Node) (node : Node) (resume : Option String)
    (state : GraphState) {past : List (Event AgentPorts)}
    (hpast : Spared task.budget meter node.quota past) :
    ((buildGraph task).invoke limit executed node resume state).Ends
      (fun events _ => Spared task.budget meter 1 events) past := by
  have hquota : ∀ node : Node, node.quota ≤ 1 := fun node => by cases node <;> decide
  induction limit generalizing executed node resume state past with
  | zero => exact hpast.le (hquota node)
  | succ limit ih =>
      unfold StateGraph.invoke
      rw [Program.ends_bind]
      refine (node_spares hprices node resume state past hpast).mono fun events result hresult => ?_
      cases result with
      | error e => exact hresult
      | ok value =>
          cases value with
          | interrupt question => exact hresult
          | update state' =>
              obtain ⟨hspared, hdue⟩ := hresult
              dsimp only
              cases hnext : (buildGraph task).next node state' with
              | error e => exact hspared
              | ok next =>
                  cases next with
                  | none => exact hspared
                  | some node' => exact ih _ node' none state' (hdue node' hnext)

-- Nothing was made before a task, so any node may be due.
theorem startGraph_spares (limit : Nat) (checkpoint : Option Checkpoint)
    (resumeAnswer : Option String) {past : List (Event AgentPorts)}
    (hpast : Spared task.budget meter 0 past) :
    (startGraph task limit checkpoint resumeAnswer).Ends
      (fun events _ => Spared task.budget meter 1 events) past := by
  unfold startGraph
  cases resumeAnswer with
  | none => exact invoke_spares hprices _ _ _ _ _ (hpast.le (Nat.zero_le _))
  | some answer =>
      cases checkpoint with
      | none => exact invoke_spares hprices _ _ _ _ _ (hpast.le (Nat.zero_le _))
      | some checkpoint =>
          obtain ⟨state, due⟩ := checkpoint
          cases due with
          | none => exact hpast.le (Nat.zero_le 1)
          | some due => exact invoke_spares hprices _ _ _ _ _ (hpast.le (Nat.zero_le _))

omit hprices in
theorem settle_spares (limit : Nat) (invocation : GraphInvocation) :
    Spares task.budget meter 1 (settle task limit invocation) fun _ => Spared task.budget meter 1 := by
  intro past hpast
  refine ((settle_ends task limit invocation).and (Program.ends_extends _ past)).mono
    fun events result hresult => ?_
  obtain ⟨hmarks, hextends⟩ := hresult
  have hspared : Spared task.budget meter 1 events := by
    rcases hmarks with hsame | ⟨step, -, -, -, hreport⟩ | ⟨-, hasked⟩
    · exact hpast.quiet hextends (hsame.trans (List.append_nil _).symm) rfl rfl rfl
    · exact hpast.quiet hextends hreport rfl rfl rfl
    · exact hpast.quiet hextends hasked rfl rfl rfl
  cases result <;> exact hspared

omit [Unicode] hprices in
theorem reportingFailure_spares {α : Type} {x : AgentRun α}
    (hx : Spares task.budget meter 1 x fun _ => Spared task.budget meter 1)
    {past : List (Event AgentPorts)} (hpast : Spared task.budget meter 1 past) :
    (reportingFailure task.jobId x).Ends (fun events _ => Spared task.budget meter 1 events) past := by
  unfold reportingFailure
  rw [Program.ends_bind]
  refine (hx past hpast).mono fun events result hresult => ?_
  cases result with
  | ok value => exact hresult
  | error e => exact fun answer => Spared.unmarked hresult rfl

omit [Unicode] hprices in
theorem spared_nothing (searches : Nat) : Spared task.budget meter searches [] := by
  intro _ past later hsplit _
  obtain ⟨-, rfl⟩ := List.append_eq_nil_iff.mp hsplit.symm
  exact ⟨Nat.zero_le _, rfl, rfl⟩

-- A run of the loop, and one of the graph.
theorem runAgentResearch_spares :
    (runAgentResearch task).Ends (fun events _ => Spared task.budget meter 1 events) [] :=
  reportingFailure_spares (agentResearch_spares hprices) (spared_nothing 1)

theorem runAgentGraph_spares (limit : Nat) (checkpoint : Option Checkpoint)
    (resumeAnswer : Option String) :
    (runAgentGraph task limit checkpoint resumeAnswer).Ends
      (fun events _ => Spared task.budget meter 1 events) [] := by
  unfold runAgentGraph
  intro answer
  have hstarted : Spared task.budget meter 0 [⟨.markStarted task.jobId, answer⟩] :=
    (spared_nothing 0).unmarked rfl
  cases answer with
  | error e => exact fun reported => (hstarted.le (Nat.zero_le 1)).unmarked rfl
  | ok _ =>
      change (startGraph task limit checkpoint resumeAnswer >>= _).Ends _ _
      rw [Program.ends_bind]
      refine (startGraph_spares hprices limit checkpoint resumeAnswer hstarted).mono
        fun events invocation hevents => ?_
      rw [Program.ends_bind]
      refine (reportingFailure_spares (settle_spares limit invocation) hevents).mono ?_
      exact fun last result hlast => hlast

end Runs

end AgentBoilerplate.Agent
