import AgentBoilerplate.Agent.Completion

namespace AgentBoilerplate.Agent

open Python Effects Fallible Collections

theorem finishes_append (steps later : List StepDict) :
    finishes (steps ++ later) = finishes steps + finishes later := List.countP_append

theorem finishes_step (step : AgentStep) :
    finishes [stepToDict step] = if step.kind = .finish then 1 else 0 := by
  unfold finishes stepToDict
  cases step.kind <;> rfl

section

variable [Unicode] {task : AgentTask}

-- Code that raises only after something went wrong, whatever it starts from.
abbrev Completes {α : Type} (task : AgentTask) (P : Assertion AgentPorts) (x : AgentRun α)
    (Q : α → Assertion AgentPorts) : Prop :=
  Triple P x Q fun _ events => ¬ Smooth task events

-- A value that says something by itself.
def Giving {α : Type} (fact : α → Prop) : α → Assertion AgentPorts := fun value _ => fact value

theorem newHits_returns (collected : List String) {found : List RawSearchHit} (h : Usable found) :
    Returns (newHits collected found) := by
  induction found with
  | nil => exact returns_ok _
  | cons hit found ih =>
      obtain ⟨⟨key, hkey⟩, hrest⟩ := List.forall_mem_cons.mp h
      obtain ⟨new, hnew⟩ := ih hrest
      unfold newHits
      rw [hkey, hnew]
      exact returns_ok _

theorem usable_newHits {collected : List String} {found new : List RawSearchHit}
    (h : newHits collected found = .ok new) : Usable new := by
  obtain ⟨hfound, rfl⟩ := newHits_eq_ok h
  exact fun hit hhit => hfound hit (List.mem_of_mem_filter hhit)

theorem hitKeys_returns {hits : List RawSearchHit} (h : Usable hits) : Returns (hitKeys hits) :=
  (mapM_returns _ hits).mpr h

theorem Usable.append {hits more : List RawSearchHit} (h : Usable hits) (h' : Usable more) :
    Usable (hits ++ more) := fun hit hhit => (List.mem_append.mp hhit).elim (h hit) (h' hit)

theorem Usable.kept {hits : List RawSearchHit} (h : Usable hits) (verdict : Critique) :
    Usable (verdict.kept hits) := fun hit hhit => h hit (List.mem_of_mem_filter hhit)

theorem search_completes (query : String) :
    Completes task (fun _ => True) (raising (ask (.search query))) fun found =>
      Smoothly task fun _ => Usable found := by
  refine triple_call fun past answer _ => ?_
  cases answer with
  | error e =>
      intro hsmooth
      cases hsmooth.last.1
  | ok found => exact fun hsmooth => hsmooth.last.2

-- The new hits of an answer, if it can be used.
theorem newHits_completes (collected : List String) (found : List RawSearchHit) :
    Completes task (Smoothly task fun _ => Usable found) (orRaise (newHits collected found))
      (Giving fun new => newHits collected found = .ok new) := by
  refine triple_orRaise (fun new hnew past _ => hnew) fun e he past hpast hsmooth => ?_
  obtain ⟨new, hnew⟩ := newHits_returns collected (hpast hsmooth)
  cases he.symm.trans hnew

theorem hitKeys_completes {hits : List RawSearchHit} (h : Usable hits) (P : Assertion AgentPorts) :
    Completes task P (orRaise (hitKeys hits)) fun _ => P := by
  refine triple_orRaise (fun keys _ past hpast => hpast) fun e he => ?_
  obtain ⟨keys, hkeys⟩ := hitKeys_returns h
  cases he.symm.trans hkeys

theorem decide_completes (goal : String) (steps : List AgentStep) (hits : List RawSearchHit) :
    Completes task (fun _ => True) (raising (ask (.decide goal steps hits))) fun _ _ => True := by
  refine triple_call fun past answer _ => ?_
  cases answer with
  | error e =>
      intro hsmooth
      cases hsmooth.last.1
  | ok action => trivial

theorem critique_completes (goal : String) (hits : List RawSearchHit) :
    Completes task (fun _ => True) (raising (ask (.critique goal hits))) fun _ _ => True := by
  refine triple_call fun past answer _ => ?_
  cases answer with
  | error e =>
      intro hsmooth
      cases hsmooth.last.1
  | ok verdict => trivial

theorem overBudget_completes (budget : Option SpendGuard) :
    Completes task (fun _ => True) (liftM (overBudget budget) : AgentRun Bool) fun _ _ => True :=
  triple_lift fun past _ => (Program.ends_extends _ past).mono fun _ _ _ => trivial

theorem record_completes (state : GraphState) (step : AgentStep) :
    Completes task (fun _ => True) (liftM (state.record task step) : AgentRun GraphState)
      (Giving fun later => later = { state with steps := state.steps ++ [stepToDict step] }) :=
  triple_lift fun _ _ _ => rfl

theorem loopRecord_completes (loop : LoopState) (step : AgentStep) :
    Completes task (fun _ => True) (liftM (loop.record task step) : AgentRun LoopState)
      (Giving fun later => later = { loop with steps := loop.steps ++ [step] }) :=
  triple_lift fun _ _ _ => rfl

-- A fact that the code found out on its way.
theorem completes_of {α : Type} {c : Prop} {x : AgentRun α} {Q : α → Assertion AgentPorts}
    (h : c → Completes task (fun _ => True) x Q) : Completes task (fun _ => c) x Q :=
  fun past hc => h hc past trivial

section Loop

theorem chooseAction_completes (loop : LoopState) :
    Completes task (fun _ => True) (chooseAction task loop) fun _ _ => True := by
  refine (overBudget_completes task.budget).bind fun exhausted => ?_
  refine triple_ite (fun _ => triple_pure fun past _ => trivial) fun _ => ?_
  exact (decide_completes _ _ _).bind fun action => triple_pure fun past _ => trivial

theorem searchStep_completes (seq : Nat) (query reason : String) {loop : LoopState}
    (husable : Usable loop.hits) :
    Completes task (fun _ => True) (searchStep task seq query reason loop)
      (Giving fun later => Usable later.hits ∧
        finishes (later.steps.map stepToDict) = finishes (loop.steps.map stepToDict)) := by
  refine (search_completes query).bind fun found => ?_
  refine (newHits_completes _ _).bind fun new => completes_of fun hnew => ?_
  have hnewUsable := usable_newHits hnew
  refine (hitKeys_completes hnewUsable _).bind fun keys => ?_
  refine (loopRecord_completes _ _).after fun later events hlater => ?_
  cases hlater
  refine ⟨husable.append hnewUsable, ?_⟩
  rw [List.map_append, List.map_singleton, finishes_append, finishes_step]
  rfl

theorem finish_completes {loop : LoopState} (husable : Usable loop.hits) {step : AgentStep}
    (hkind : step.kind = .finish) :
    Completes task (fun _ => True)
      (do
        let later ← (liftM (loop.record task step) : AgentRun LoopState)
        return some later)
      (Giving fun result => ∀ later ∈ result, Usable later.hits ∧
        finishes (later.steps.map stepToDict) = finishes (loop.steps.map stepToDict) + 1) := by
  refine (loopRecord_completes loop step).bind fun later => triple_pure fun past hlater => ?_
  intro other hother
  cases hother
  cases hlater
  refine ⟨husable, ?_⟩
  rw [List.map_append, List.map_singleton, finishes_append, finishes_step, if_pos hkind]

-- The loop ends with a finish, by induction on the turns that are left.
theorem decisionLoop_completes (seqs : List Nat) {loop : LoopState} (husable : Usable loop.hits) :
    Completes task (fun _ => True) (decisionLoop task seqs loop)
      (Giving fun result => ∀ later ∈ result, Usable later.hits ∧
        finishes (later.steps.map stepToDict) = finishes (loop.steps.map stepToDict) + 1) := by
  induction seqs generalizing loop with
  | nil => exact finish_completes husable rfl
  | cons seq seqs ih =>
      rw [decisionLoop_cons]
      refine (chooseAction_completes loop).bind fun action => ?_
      cases action with
      | ask question reason =>
          have hasked : Completes task (fun _ => True)
              (raising (ask (.requestClarification task.jobId question))) fun _ _ => True := by
            refine triple_call fun past answer _ => ?_
            cases answer with
            | error e =>
                intro hsmooth
                cases hsmooth.last.1
            | ok _ => trivial
          refine hasked.bind fun _ => triple_pure fun past _ later hlater => ?_
          cases hlater
      | search query reason =>
          refine (searchStep_completes seq query reason husable).bind fun later => ?_
          refine completes_of fun hlater => ?_
          rw [← hlater.2]
          exact ih hlater.1
      | finish reason => exact finish_completes husable rfl

-- The review, of hits whose URLs can be compared.
theorem selfCritique_completes {loop : LoopState} (husable : Usable loop.hits) :
    Completes task (fun _ => True) (selfCritique task loop) fun _ _ => True := by
  refine (critique_completes _ _).bind fun critique => ?_
  refine ((loopRecord_completes _ _).after fun _ _ _ => trivial).bind fun later => ?_
  refine (overBudget_completes task.budget).bind fun exhausted => ?_
  cases critique.gapQuery with
  | none => exact triple_pure fun past _ => trivial
  | some gap =>
      refine triple_ite (fun _ => ?_) fun _ => triple_pure fun past _ => trivial
      refine (search_completes gap).bind fun found => ?_
      refine (hitKeys_completes (husable.kept critique) _).bind fun keptKeys => ?_
      refine ((newHits_completes _ _).after fun _ _ _ => trivial).bind fun new => ?_
      exact (loopRecord_completes _ _).after fun _ _ _ => trivial

theorem review_completes {loop : LoopState} (husable : Usable loop.hits) :
    Completes task (fun _ => True) (review task loop) fun _ _ => True := by
  refine triple_ite (fun _ => ?_) fun _ => triple_pure fun past _ => trivial
  refine (overBudget_completes task.budget).bind fun exhausted => ?_
  exact triple_ite (fun _ => triple_pure fun past _ => trivial) fun _ => selfCritique_completes husable

end Loop

section Graph

variable {state : GraphState}

-- What a node leaves when it goes on: usable hits, what it adds to the journal,
-- and a question only where it can be asked. Only the node "ask" pauses.
def NodeCompletes (task : AgentTask) (node : Node) (resume : Option String) (state : GraphState) :
    NodeResult GraphState String → Prop
  | .update next => Usable next.rawHits ∧
      (∃ added : List AgentStep, next.steps = state.steps ++ added.map stepToDict ∧
        finishes (added.map stepToDict) = if node = .finalize then 1 else 0) ∧
      ((buildGraph task).next node next = .ok (some .ask) → task.clarifier = true)
  | .interrupt _ => node = .ask ∧ resume = none

theorem nodeCompletes_next {node : Node} {resume : Option String} (husable : Usable state.rawHits)
    (next : Dict) (hnode : node ≠ .finalize)
    (hask : (buildGraph task).next node { state with next := next } = .ok (some .ask) →
      task.clarifier = true) :
    NodeCompletes task node resume state (.update { state with next := next }) := by
  refine ⟨husable, ⟨[], (List.append_nil _).symm, ?_⟩, hask⟩
  rw [if_neg hnode]
  rfl

theorem runDecide_completes (resume : Option String) (husable : Usable state.rawHits)
    {steps : List AgentStep} (hsteps : state.steps = steps.map stepToDict) :
    Completes task (fun _ => True) (Node.runDecide task state)
      (Giving (NodeCompletes task .decide resume state)) := by
  have hchosen : ∀ action, (∀ question reason, action = .ask question reason → task.clarifier = true) →
      NodeCompletes task .decide resume state
        (.update { state with next := actionToDict action }) := by
    intro action hask
    refine nodeCompletes_next husable _ (by decide) fun hnext => ?_
    rw [next_decide] at hnext
    cases action with
    | ask question reason => exact hask question reason rfl
    | search | finish => cases hnext
  have hfinish : ∀ reason : String, NodeCompletes task .decide resume state
      (.update { state with next := actionToDict (.finish reason) }) := by
    intro reason
    refine hchosen (.finish reason) fun question reason heq => ?_
    cases heq
  refine triple_ite (fun _ => triple_pure fun past _ => hfinish _) fun _ => ?_
  refine (overBudget_completes task.budget).bind fun exhausted => ?_
  refine triple_ite (fun _ => triple_pure fun past _ => hfinish _) fun _ => ?_
  have hencoded : state.steps.mapM stepFromDict = .ok steps := by rw [hsteps, steps_roundtrip]
  rw [hencoded, orRaise_ok_bind]
  refine (decide_completes _ _ _).bind fun action => triple_pure fun past _ => ?_
  exact hchosen _ fun question reason hask => (applyAskGuard_ask hask).1

theorem runSearch_completes (resume : Option String) (husable : Usable state.rawHits)
    (hdue : Due task state .search) :
    Completes task (fun _ => True) (Node.runSearch task state)
      (Giving (NodeCompletes task .search resume state)) := by
  obtain ⟨-, query, reason, hnext⟩ := hdue
  have hquery : state.next.get "query" = .ok query := by
    rw [hnext]
    rfl
  have hreason : state.next.get "reason" = .ok reason := by
    rw [hnext]
    rfl
  unfold Node.runSearch
  rw [hquery, hreason, orRaise_ok_bind, orRaise_ok_bind]
  refine (search_completes query).bind fun found => ?_
  refine (newHits_completes _ _).bind fun new => completes_of fun hnew => ?_
  have hnewUsable := usable_newHits hnew
  refine (record_completes state _).bind fun later => completes_of fun hlater => ?_
  refine (hitKeys_completes hnewUsable fun _ => True).bind fun keys => triple_pure fun past _ => ?_
  cases hlater
  refine ⟨?_, ⟨[_], rfl, rfl⟩, fun hask => ?_⟩
  · simp only [GraphState.rawHits, List.map_append, hits_roundtrip]
    exact husable.append hnewUsable
  · cases hask

theorem runAsk_completes (resume : Option String) (husable : Usable state.rawHits)
    (hdue : Due task state .ask) :
    Completes task (fun _ => True) (Node.runAsk resume state)
      (Giving (NodeCompletes task .ask resume state)) := by
  obtain ⟨question, reason, hnext⟩ := hdue
  have hquestion : state.next.get "question" = .ok question := by
    rw [hnext]
    rfl
  unfold Node.runAsk
  rw [hquestion, orRaise_ok_bind]
  cases resume with
  | none => exact triple_pure fun past _ => ⟨rfl, rfl⟩
  | some answer =>
      refine triple_pure fun past _ => ⟨husable, ⟨[], (List.append_nil _).symm, rfl⟩, fun hask => ?_⟩
      cases hask

theorem runFinalize_completes (resume : Option String) (husable : Usable state.rawHits)
    (hdue : Due task state .finalize) :
    Completes task (fun _ => True) (Node.runFinalize task state)
      (Giving (NodeCompletes task .finalize resume state)) := by
  obtain ⟨reason, hnext⟩ := hdue
  have hreason : state.next.get "reason" = .ok reason := by
    rw [hnext]
    rfl
  unfold Node.runFinalize
  rw [hreason, orRaise_ok_bind]
  refine (record_completes state _).bind fun later => completes_of fun hlater => ?_
  refine triple_pure fun past _ => ?_
  cases hlater
  refine ⟨husable, ⟨[_], rfl, rfl⟩, fun hask => ?_⟩
  have hnode : (if task.critic then some Node.critique else none) = some .ask := Except.ok.inj hask
  split at hnode <;> cases hnode

theorem runCritique_completes (resume : Option String) (husable : Usable state.rawHits) :
    Completes task (fun _ => True) (Node.runCritique task state)
      (Giving (NodeCompletes task .critique resume state)) := by
  have hlast : ∀ (next : GraphState) (added : List AgentStep), Usable next.rawHits →
      next.steps = state.steps ++ added.map stepToDict → finishes (added.map stepToDict) = 0 →
        NodeCompletes task .critique resume state (.update next) := by
    intro next added hhits hsteps hnone
    refine ⟨hhits, ⟨added, hsteps, hnone⟩, fun hask => ?_⟩
    cases hask
  have hskipped := hlast state [] husable (List.append_nil _).symm rfl
  refine (overBudget_completes task.budget).bind fun exhausted => ?_
  refine triple_ite (fun _ => triple_pure fun past _ => hskipped) fun _ => ?_
  refine (critique_completes _ _).bind fun verdict => ?_
  have hkept : Usable (verdict.kept state.rawHits) := husable.kept verdict
  have hreviewed : Usable (((verdict.kept state.rawHits).map hitToDict).map hitFromDict) := by
    rw [hits_roundtrip]
    exact hkept
  refine (record_completes _ _).bind fun later => completes_of fun hlater => ?_
  cases hlater
  refine (overBudget_completes task.budget).bind fun exhausted => ?_
  cases verdict.gapQuery with
  | none => exact triple_pure fun past _ => hlast _ [_] hreviewed rfl rfl
  | some gap =>
      refine triple_ite (fun _ => ?_) fun _ => triple_pure fun past _ => hlast _ [_] hreviewed rfl rfl
      refine (search_completes gap).bind fun found => ?_
      refine (hitKeys_completes hkept _).bind fun keptKeys => ?_
      refine (newHits_completes _ _).bind fun new => completes_of fun hnew => ?_
      refine (record_completes _ _).bind fun repaired => completes_of fun hrepaired => ?_
      cases hrepaired
      refine triple_pure fun past _ => hlast _ [_, _] ?_ (List.append_assoc _ _ _) rfl
      rw [GraphState.rawHits, hits_roundtrip]
      exact hkept.append (usable_newHits hnew)

theorem node_completes (node : Node) (resume : Option String) (husable : Usable state.rawHits)
    {steps : List AgentStep} (hsteps : state.steps = steps.map stepToDict)
    (hdue : Due task state node) :
    Completes task (fun _ => True) ((buildGraph task).node node resume state)
      (Giving (NodeCompletes task node resume state)) := by
  cases node with
  | decide => exact runDecide_completes resume husable hsteps
  | search => exact runSearch_completes resume husable hdue
  | ask => exact runAsk_completes resume husable hdue
  | finalize => exact runFinalize_completes resume husable hdue
  | critique => exact runCritique_completes resume husable

end Graph

end

end AgentBoilerplate.Agent
