import AgentBoilerplate.Agent.Lemmas

namespace AgentBoilerplate.Agent

open Python Effects

-- The journal is numbered from 1.
def Numbered (steps : List AgentStep) : Prop := steps.map AgentStep.seq = List.range' 1 steps.length

theorem Numbered.nextSeq {steps : List AgentStep} (h : Numbered steps) :
    nextSeq steps = steps.length + 1 := by
  unfold Agent.nextSeq
  cases hlast : steps.getLast? with
  | none =>
      rw [List.getLast?_eq_none_iff] at hlast
      subst hlast
      rfl
  | some last =>
      have hmap := congrArg List.getLast? h
      have hne : steps ≠ [] := by
        rintro rfl
        cases hlast
      rw [List.getLast?_map, hlast, List.getLast?_range'] at hmap
      have hpos := List.length_pos_iff.mpr hne
      simp only [Option.map_some, hpos.ne', if_false, Option.some.injEq] at hmap
      dsimp only
      omega

theorem Numbered.append {steps : List AgentStep} (h : Numbered steps) {step : AgentStep}
    (hseq : step.seq = steps.length + 1) : Numbered (steps ++ [step]) := by
  unfold Numbered at h ⊢
  rw [List.map_append, h, List.length_append, List.length_singleton, List.range'_1_concat]
  simp [hseq, Nat.add_comm]

-- The loop is told the goal with the clarification in it.
def AgentTask.informed (task : AgentTask) (goal : String) (clarification : Option String) :
    AgentTask := { task with goal := goal, clarification := clarification }

-- What the graph holds where the loop has these variables and arguments.
structure Mirrors (goal : String) (clarification : Option String) (state : GraphState)
    (loop : LoopState) : Prop where
  hits : state.hits = loop.hits.map hitToDict
  collected : state.collected = loop.collectedUrls
  steps : state.steps = loop.steps.map stepToDict
  numbered : Numbered loop.steps
  goal : state.goalWithClarification = goal
  informed : clarification ≠ none ↔ state.asked = true ∨ state.clarification ≠ none

-- A node that updates the state as the loop does its variables.
def Updates (goal : String) (clarification : Option String) :
    NodeResult GraphState String → LoopState → Prop
  | .update state, loop => Mirrors goal clarification state loop
  | .interrupt _, _ => False

section

variable {task : AgentTask} {goal : String} {clarification : Option String}
  {state : GraphState} {loop : LoopState}

namespace Mirrors

theorem length (h : Mirrors goal clarification state loop) :
    state.steps.length = loop.steps.length := by
  rw [h.steps, List.length_map]

theorem searches (h : Mirrors goal clarification state loop) :
    searchesDoneDict state.steps = searchesDone loop.steps := by
  rw [h.steps, searchesDone_encoded]

theorem rawHits (h : Mirrors goal clarification state loop) :
    state.hits.map hitFromDict = loop.hits := by
  rw [h.hits, hits_roundtrip]

theorem decided (h : Mirrors goal clarification state loop) (next : Dict) :
    Mirrors goal clarification { state with next := next } loop :=
  ⟨h.hits, h.collected, h.steps, h.numbered, h.goal, h.informed⟩

theorem withHits (h : Mirrors goal clarification state loop) (hits : List RawSearchHit) :
    Mirrors goal clarification { state with hits := hits.map hitToDict }
      { loop with hits := hits } :=
  ⟨rfl, h.collected, h.steps, h.numbered, h.goal, h.informed⟩

theorem record (h : Mirrors goal clarification state loop) {step : AgentStep}
    (hseq : step.seq = loop.steps.length + 1) :
    Mirrors goal clarification { state with steps := state.steps ++ [stepToDict step] }
      { loop with steps := loop.steps ++ [step] } := by
  refine ⟨h.hits, h.collected, ?_, h.numbered.append hseq, h.goal, h.informed⟩
  simp [h.steps]

-- The same step recorded on both sides.
theorem record_agree_bind {α β : Type} {R : α → β → Prop}
    (h : Mirrors goal clarification state loop) {step : AgentStep}
    (hseq : step.seq = loop.steps.length + 1) {f : GraphState → AgentRun α}
    {g : LoopState → AgentRun β}
    (hnext : ∀ state, Mirrors goal clarification state { loop with steps := loop.steps ++ [step] } →
      Fallible.Agree R (f state) (g { loop with steps := loop.steps ++ [step] })) :
    Fallible.Agree R (liftM (state.record task step) >>= f)
      (liftM (loop.record (task.informed goal clarification) step) >>= g) := by
  unfold Fallible.Agree
  rw [Fallible.run_lift_bind, Fallible.run_lift_bind]
  exact .call fun _ => hnext _ (h.record hseq)

theorem record_agree (h : Mirrors goal clarification state loop) {step : AgentStep}
    (hseq : step.seq = loop.steps.length + 1) :
    Fallible.Agree (Updates goal clarification)
      (do
        let state ← state.record task step
        return .update state : Node.Run)
      (liftM (loop.record (task.informed goal clarification) step)) :=
  .call fun _ => .done (h.record hseq)

end Mirrors

theorem runFinalize_agree (h : Mirrors goal clarification state loop) {reason : String}
    (hreason : state.next.get "reason" = .ok reason) :
    Fallible.Agree (Updates goal clarification) (Node.runFinalize task state)
      (liftM (loop.record (task.informed goal clarification)
        { seq := loop.steps.length + 1, kind := .finish, detail := "", reason := reason })) := by
  unfold Node.runFinalize
  rw [hreason, h.length]
  exact h.record_agree rfl

theorem applyAskGuard_eq (h : Mirrors goal clarification state loop) (action : AgentAction) :
    applyAskGuard task state action = askGuard (task.informed goal clarification) action := by
  cases action with
  | ask question reason => simp only [applyAskGuard, askGuard, AgentTask.informed, h.informed]
  | search | finish => rfl

theorem askGuard_ask {action : AgentAction} {question reason : String}
    (h : askGuard task action = .ask question reason) : task.clarifier = true := by
  cases action with
  | ask question reason =>
      simp only [askGuard] at h
      split at h
      · cases h
      · rename_i hguard
        simpa using fun hclarifier => hguard (Or.inl hclarifier)
  | search | finish => cases h

theorem route_actionToDict (state : GraphState) (action : AgentAction) :
    route { state with next := actionToDict action } = .ok (some (match action with
      | .search _ _ => .search
      | .ask _ _ => .ask
      | .finish _ => .finalize)) := by
  cases action <;> rfl

theorem mirrors_start (task : AgentTask) (resumeAnswer : Option String) :
    Mirrors (clarifiedGoal task.goal (task.clarification.or resumeAnswer))
      (task.clarification.or resumeAnswer) (initialState task resumeAnswer) ⟨[], [], []⟩ := by
  refine ⟨rfl, rfl, rfl, rfl, rfl, ?_⟩
  rw [initialState, Option.isSome_iff_ne_none, or_self]

-- What one turn of the loop decides.
def chooseAction (task : AgentTask) (loop : LoopState) : AgentRun AgentAction := do
  let exhausted ← overBudget task.budget
  if exhausted then
    return .finish (costBudgetReason task.budget)
  else
    let action ← raising (ask (.decide task.goal loop.steps loop.hits))
    return askGuard task action

theorem runDecide_agree (h : Mirrors goal clarification state loop)
    (hbudget : searchesDone loop.steps < task.maxSteps) :
    Fallible.Agree (fun result action =>
        result = .update { state with next := actionToDict action } ∧
          ∀ question reason, action = .ask question reason → task.clarifier = true)
      (Node.runDecide task state) (chooseAction (task.informed goal clarification) loop) := by
  unfold Node.runDecide chooseAction
  rw [h.searches, if_neg (by omega)]
  refine Fallible.Agree.bind_same fun exhausted => Fallible.agree_ite
    (fun _ => Fallible.agree_pure ⟨rfl, by simp⟩) fun _ => ?_
  rw [h.steps, steps_roundtrip, Fallible.orRaise_ok_bind, h.goal, h.rawHits]
  refine Fallible.Agree.bind_same fun action => ?_
  rw [applyAskGuard_eq h]
  refine Fallible.agree_pure ⟨rfl, fun question reason hask => ?_⟩
  have hclarifier := askGuard_ask hask
  exact hclarifier

variable [Unicode]

theorem runCritique_agree (h : Mirrors goal clarification state loop) :
    Fallible.Agree (Updates goal clarification)
      (Node.runCritique task state)
      (do
        let exhausted ← overBudget task.budget
        if exhausted then return loop
        else selfCritique (task.informed goal clarification) loop) := by
  refine Fallible.Agree.bind_same fun exhausted => Fallible.agree_ite
    (fun _ => Fallible.agree_pure h) fun _ => ?_
  unfold selfCritique
  rw [h.goal, h.rawHits, h.length, h.numbered.nextSeq]
  refine Fallible.Agree.bind_same fun ⟨assessment, irrelevantUrls, gapQuery⟩ => ?_
  refine (h.withHits _).record_agree_bind rfl fun state h => ?_
  refine Fallible.Agree.bind_same fun exhausted => ?_
  rw [h.searches, h.length, List.length_append]
  cases gapQuery with
  | none => exact Fallible.agree_pure h
  | some gap =>
      refine Fallible.agree_ite (fun _ => ?_) fun _ => Fallible.agree_pure h
      refine Fallible.Agree.bind_same fun found => ?_
      refine Fallible.Agree.bind_same fun keptKeys => ?_
      refine Fallible.Agree.bind_same fun new => ?_
      exact (h.withHits _).record_agree (by simp)

theorem settle_agree (limit : Nat) (h : Mirrors goal clarification state loop)
    (executed : List Node) :
    Program.Agree (SameOutcome Eq)
      (settle task limit ⟨executed, state, none, .finished⟩).run
      (some <$> deliver (task.informed goal clarification) loop.hits (nextSeq loop.steps)).run := by
  simp only [settle, h.rawHits, h.length, h.numbered.nextSeq]
  exact Fallible.agree_refl _

theorem invoke_finalize_agree (task : AgentTask) {steps : Nat} (limit : Nat)
    (h : Mirrors goal clarification state loop)
    {reason : String} (hreason : state.next.get "reason" = .ok reason) (hsteps : 2 ≤ steps)
    (executed : List Node) :
    Program.Agree (SameOutcome Eq)
      ((buildGraph task).invoke steps executed .finalize none state >>=
        fun invocation => (settle task limit invocation).run)
      (do
        let loop ← loop.record (task.informed goal clarification)
          { seq := loop.steps.length + 1, kind := .finish, detail := "", reason := reason }
        conclude (task.informed goal clarification) loop : AgentRun _).run := by
  obtain ⟨steps, rfl⟩ := Nat.exists_eq_add_of_le' hsteps
  refine StateGraph.invoke_agree (runFinalize_agree h hreason) (fun e => .done rfl)
    (fun _ _ h => h.elim) fun state loop h => ?_
  unfold conclude review
  by_cases hcritic : (task.informed goal clarification).critic = true
  · have hnext : (buildGraph task).next .finalize state = .ok (some .critique) :=
      congrArg Except.ok (if_pos hcritic)
    rw [if_pos hcritic, hnext]
    exact StateGraph.invoke_agree (runCritique_agree h) (fun e => .done rfl)
      (fun _ _ h => h.elim) fun state loop h => settle_agree limit h _
  · have hnext : (buildGraph task).next .finalize state = .ok none :=
      congrArg Except.ok (if_neg hcritic)
    rw [if_neg hcritic, hnext, pure_bind]
    exact settle_agree limit h _

-- What it does then.
def searchStep (task : AgentTask) (seq : Nat) (query reason : String) (loop : LoopState) :
    AgentRun LoopState := do
  let found ← raising (ask (.search query))
  let new ← orRaise (newHits loop.collectedUrls found)
  let keys ← orRaise (hitKeys new)
  LoopState.record task
    { loop with hits := loop.hits ++ new, collectedUrls := loop.collectedUrls ++ keys }
    { seq := seq, kind := .search, detail := query, reason := reason, newHits := new.length }

theorem decisionLoop_cons (seq : Nat) (seqs : List Nat) :
    decisionLoop task (seq :: seqs) loop = (do
      match ← chooseAction task loop with
      | .ask question _ =>
          raising (ask (.requestClarification task.jobId question))
          return none
      | .search query reason =>
          let loop ← searchStep task seq query reason loop
          decisionLoop task seqs loop
      | .finish reason =>
          let loop ← loop.record task
            { seq := seq, kind := .finish, detail := "", reason := reason }
          return some loop) := by
  unfold chooseAction searchStep
  simp only [decisionLoop, bind_assoc]
  congr 1
  funext exhausted
  cases exhausted with
  | true => simp
  | false =>
      rw [if_neg Bool.false_ne_true, if_neg Bool.false_ne_true, bind_assoc]
      rfl

theorem runSearch_agree (h : Mirrors goal clarification state loop) {query reason : String}
    (hquery : state.next.get "query" = .ok query) (hreason : state.next.get "reason" = .ok reason) :
    Fallible.Agree (fun result next => Updates goal clarification result next ∧
        next.steps.length = loop.steps.length + 1 ∧
        searchesDone next.steps = searchesDone loop.steps + 1)
      (Node.runSearch task state)
      (searchStep (task.informed goal clarification) (loop.steps.length + 1) query reason loop) := by
  unfold Node.runSearch searchStep
  rw [hquery, hreason, Fallible.orRaise_ok_bind, Fallible.orRaise_ok_bind, h.length, h.collected]
  refine Fallible.Agree.bind_same fun found => ?_
  cases hnew : newHits loop.collectedUrls found with
  | error e => exact Fallible.agree_throw e
  | ok new =>
      obtain ⟨keys, hkeys⟩ := hitKeys_of_newHits hnew
      simp only [hkeys, Fallible.orRaise_ok_bind]
      refine .call fun _ => .done ⟨⟨?_, ?_, ?_, h.numbered.append rfl, h.goal, h.informed⟩, ?_, ?_⟩
      · simp [h.hits]
      · simp [h.collected]
      · simp [h.steps]
      · simp
      · simp [searchesDone]

-- The loop from here on, and what follows it.
def restOfLoop (task : AgentTask) (seqs : List Nat) (loop : LoopState) :
    AgentRun (Option (List ResearchResult)) := do
  match ← decisionLoop task seqs loop with
  | none => return none
  | some loop => conclude task loop

theorem invoke_decide_agree (limit : Nat) {remaining steps : Nat}
    (h : Mirrors goal clarification state loop)
    (hsearches : searchesDone loop.steps = loop.steps.length)
    (hremaining : loop.steps.length + remaining = task.maxSteps) (hsteps : 2 * remaining + 3 ≤ steps)
    (executed : List Node) :
    Program.Agree (SameOutcome Eq)
      ((buildGraph task).invoke steps executed .decide none state >>=
        fun invocation => (settle task limit invocation).run)
      (restOfLoop (task.informed goal clarification)
        (List.range' (loop.steps.length + 1) remaining) loop).run := by
  induction remaining generalizing steps state loop executed with
  | zero =>
      obtain ⟨steps, rfl⟩ := Nat.exists_eq_add_of_le' (show 1 ≤ steps by omega)
      let chosen := { state with next := actionToDict (.finish (stepBudgetReason task.maxSteps)) }
      refine StateGraph.invoke_agree (y := pure ()) (R := fun result _ => result = .update chosen)
        (f := fun _ => restOfLoop (task.informed goal clarification) [] loop)
        ?_ (fun e => .done rfl) (fun _ _ h => by cases h) ?_
      · change Fallible.Agree _ (Node.runDecide task state) _
        unfold Node.runDecide
        rw [h.searches, if_pos (by omega)]
        exact Fallible.agree_pure rfl
      · rintro _ _ heq
        cases heq
        have hnext : (buildGraph task).next .decide chosen = .ok (some .finalize) :=
          route_actionToDict _ _
        have hfinish := invoke_finalize_agree task limit (h.decided chosen.next) rfl
          (show 2 ≤ steps by omega) (executed ++ [.decide])
        rw [show loop.steps.length = task.maxSteps by omega] at hfinish
        rw [hnext]
        unfold restOfLoop decisionLoop
        simp only [bind_assoc, pure_bind]
        exact hfinish
  | succ remaining ih =>
      obtain ⟨steps, rfl⟩ := Nat.exists_eq_add_of_le' (show 2 ≤ steps by omega)
      unfold restOfLoop
      rw [List.range'_succ, decisionLoop_cons, bind_assoc]
      refine StateGraph.invoke_agree (runDecide_agree h (by omega)) (fun e => .done rfl)
        (fun _ _ h => by cases h.1) ?_
      rintro _ action ⟨heq, hallowed⟩
      cases heq
      have hnext : (buildGraph task).next .decide { state with next := actionToDict action } = _ :=
        route_actionToDict state action
      rw [hnext]
      cases action with
      | search query reason =>
          dsimp only
          rw [bind_assoc]
          refine StateGraph.invoke_agree (runSearch_agree (h.decided _) rfl rfl) (fun e => .done rfl)
            (fun _ _ h => h.1.elim) fun state next hupdate => ?_
          obtain ⟨hmirrors, hlength, hdone⟩ := hupdate
          rw [← hlength]
          exact ih hmirrors (by omega) (by omega) (by omega) _
      | ask question reason =>
          have hclarifier := hallowed question reason rfl
          -- the node pauses without a call
          let paused : GraphInvocation := ⟨executed ++ [.decide] ++ [.ask],
            { state with next := actionToDict (.ask question reason) }, some .ask,
            .interrupted question⟩
          change Program.Agree _ (settle task limit paused).run _
          simp only [settle, paused, hclarifier, if_true, bind_assoc, pure_bind]
          exact Fallible.agree_refl _
      | finish reason =>
          simp only [bind_assoc, pure_bind]
          exact invoke_finalize_agree task limit (h.decided _) rfl (by omega) _

-- A fresh thread makes the calls of the loop and returns or raises what it
-- does. The loop gets the clarification in its goal.
theorem runAgentGraph_agree (task : AgentTask) {limit : Nat}
    (hlimit : 2 * task.maxSteps + 3 ≤ limit) (resumeAnswer : Option String) :
    Program.Agree (fun run result => run.result = result)
      (runAgentGraph task limit none resumeAnswer)
      (runAgentResearch (task.informed
        (clarifiedGoal task.goal (task.clarification.or resumeAnswer))
        (task.clarification.or resumeAnswer))) := by
  have hstart : startGraph task limit none resumeAnswer =
      (buildGraph task).invoke limit [] .decide none (initialState task resumeAnswer) := by
    cases resumeAnswer <;> rfl
  have hrun := invoke_decide_agree limit (mirrors_start task resumeAnswer) rfl
    (Nat.zero_add task.maxSteps) hlimit []
  refine .call fun answer => ?_
  cases answer with
  | error exc => exact .call fun _ => .done rfl
  | ok _ =>
      rw [← hstart] at hrun
      have hreported : Program.Agree Eq _ _ := hrun.bind fun a b hab => by
        rw [sameOutcome_eq.mp hab]
        exact Program.agree_refl (reportResult task.jobId b)
      rw [bind_assoc] at hreported
      have hgraph : Program.Agree (fun (run : GraphRun) result => run.result = result)
          (startGraph task limit none resumeAnswer >>= fun invocation =>
            reportingFailure task.jobId (settle task limit invocation) >>= fun result =>
              pure ⟨some invocation, result⟩)
          (startGraph task limit none resumeAnswer >>= fun invocation =>
            reportingFailure task.jobId (settle task limit invocation)) := by
        refine Program.Agree.bind_same fun invocation => (Program.agree_map _ _).mono ?_
        rintro run result rfl
        rfl
      refine (hgraph.trans hreported).mono ?_
      rintro run result ⟨_, hresult, rfl⟩
      exact hresult

theorem startGraph_run_of_le {σ : Type} (handler : Handler AgentPorts σ) {limit limit' : Nat}
    (hle : limit ≤ limit') {checkpoint : Option Checkpoint} {resumeAnswer : Option String} {s : σ}
    (hending : ((startGraph task limit checkpoint resumeAnswer).run handler s).1.ending ≠
      .outOfSteps) :
    (startGraph task limit' checkpoint resumeAnswer).run handler s =
      (startGraph task limit checkpoint resumeAnswer).run handler s := by
  unfold startGraph at hending ⊢
  split at hending
  · exact StateGraph.invoke_run_of_le handler hle hending
  · rfl
  · exact StateGraph.invoke_run_of_le handler hle hending

theorem settle_of_le (limit limit' : Nat) {invocation : GraphInvocation}
    (hending : invocation.ending ≠ .outOfSteps) :
    settle task limit' invocation = settle task limit invocation := by
  unfold settle
  cases hcase : invocation.ending with
  | outOfSteps => exact absurd hcase hending
  | _ => rfl

-- A greater limit makes no difference to a task that stays within its own.
theorem runAgentGraph_run_of_le {σ : Type} (handler : Handler AgentPorts σ) {limit limit' : Nat}
    (hle : limit ≤ limit') {checkpoint : Option Checkpoint} {resumeAnswer : Option String} {s : σ}
    (hending : ∀ invocation,
      ((runAgentGraph task limit checkpoint resumeAnswer).run handler s).1.invocation =
        some invocation → invocation.ending ≠ .outOfSteps) :
    (runAgentGraph task limit' checkpoint resumeAnswer).run handler s =
      (runAgentGraph task limit checkpoint resumeAnswer).run handler s := by
  unfold runAgentGraph at hending ⊢
  rw [Program.run_bind] at hending
  rw [Program.run_bind, Program.run_bind]
  generalize (reportingFailure task.jobId (raising (ask (.markStarted task.jobId)))).run handler s =
    started at hending ⊢
  obtain ⟨result, later⟩ := started
  cases result with
  | error exc => rfl
  | ok _ =>
      dsimp only at hending ⊢
      rw [Program.run_bind] at hending
      have hstart : ((startGraph task limit checkpoint resumeAnswer).run handler later).1.ending ≠
          .outOfSteps := hending _ (by rw [Program.run_bind]; rfl)
      simp only [Program.run_bind, startGraph_run_of_le handler hle hstart,
        settle_of_le limit limit' hstart]

-- On a fresh thread the graph makes the port calls of the loop, with the same
-- arguments and in the same order, and ends as the loop does, unless the
-- framework stops it. The loop gets the clarification in its goal.
theorem graph_refines_loop (task : AgentTask) (limit : Nat) (resumeAnswer : Option String)
    (oracle : Oracle AgentPorts)
    (hlimit : ∀ invocation,
      ((runAgentGraph task limit none resumeAnswer).execute oracle).1.invocation =
        some invocation → invocation.ending ≠ .outOfSteps) :
    let informed := task.clarification.or resumeAnswer
    let graph := (runAgentGraph task limit none resumeAnswer).execute oracle
    let loop := (runAgentResearch
      (task.informed (clarifiedGoal task.goal informed) informed)).execute oracle
    graph.1.result = loop.1 ∧ graph.2 = loop.2 := by
  have hagree := runAgentGraph_agree task (Nat.le_max_right limit (2 * task.maxSteps + 3))
    resumeAnswer
  have hrun := runAgentGraph_run_of_le oracle.handler 
    (Nat.le_max_left limit (2 * task.maxSteps + 3)) hlimit
  have hexecute := hagree.execute oracle
  unfold Program.execute at hexecute
  rw [hrun] at hexecute
  exact hexecute

end

-- One search, a review and a delivery.
theorem graph_refines_loop_searching :
    letI := Sample.unicode
    let informed := Sample.task.clarification.or none
    let graph := (runAgentGraph Sample.task 25 none none).execute Sample.oracle
    let loop := (runAgentResearch
      (Sample.task.informed (clarifiedGoal Sample.task.goal informed) informed)).execute Sample.oracle
    graph.2.length = 10 ∧ graph.1.result = loop.1 ∧ graph.2 = loop.2 := by
  refine ⟨by decide +kernel,
    @graph_refines_loop Sample.unicode Sample.task 25 none Sample.oracle fun invocation h => ?_⟩
  have hending : ((@runAgentGraph Sample.unicode Sample.task 25 none none).execute
      Sample.oracle).1.invocation.map Invocation.ending = some .finished := by decide +kernel
  rw [h] at hending
  rw [Option.some.inj hending]
  simp

end AgentBoilerplate.Agent
