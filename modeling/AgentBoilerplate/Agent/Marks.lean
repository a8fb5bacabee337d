import AgentBoilerplate.Agent.Parity

namespace AgentBoilerplate.Agent

open Python Effects

-- What the budgets, the journal and the collection of a run depend on.
inductive Mark where
  | searched (answer : Except PyException (List RawSearchHit))
  | decided
  | critiqued (answer : Except PyException Critique)
  | asked
  | recorded (step : AgentStep)

def mark : Event AgentPorts → Option Mark
  | ⟨.search _, answer⟩ => some (.searched answer)
  | ⟨.decide _ _ _, _⟩ => some .decided
  | ⟨.critique _ _, answer⟩ => some (.critiqued answer)
  | ⟨.requestClarification _ _, _⟩ => some .asked
  | ⟨.reportStep _ step, _⟩ => some (.recorded step)
  | _ => none

def marks (events : List (Event AgentPorts)) : List Mark := events.filterMap mark

theorem marks_append (past events : List (Event AgentPorts)) :
    marks (past ++ events) = marks past ++ marks events := List.filterMap_append

theorem marks_unmarked (past : List (Event AgentPorts)) {event : Event AgentPorts}
    (h : mark event = none) : marks (past ++ [event]) = marks past := by
  have hnone : marks [event] = [] := List.filterMap_cons_none h
  rw [marks_append, hnone, List.append_nil]

theorem marks_marked (past : List (Event AgentPorts)) {event : Event AgentPorts} {m : Mark}
    (h : mark event = some m) : marks (past ++ [event]) = marks past ++ [m] := by
  have hsome : marks [event] = [m] := List.filterMap_cons_some h
  rw [marks_append, hsome]

section Rules

variable {α : Type} {past : List (Event AgentPorts)}
  {post : List (Event AgentPorts) → Except PyException α → Prop}

-- The spend guard is not marked, whatever it answers.
theorem overBudget_ends_bind (budget : Option SpendGuard) {f : Bool → AgentRun α}
    (h : ∀ exhausted events, marks events = marks past → (f exhausted).run.Ends post events) :
    ((liftM (overBudget budget) : AgentRun Bool) >>= f).run.Ends post past := by
  rw [Fallible.run_lift_bind]
  cases budget with
  | none => exact h false past rfl
  | some guard =>
      change Program.Ends post past (guard.exceeded >>= fun exhausted => (f exhausted).run)
      unfold SpendGuard.exceeded
      by_cases hcap : guard.capUsd > 0
      · rw [if_pos hcap]
        exact fun answer => h _ _ (marks_unmarked past rfl)
      · rw [if_neg hcap]
        exact h false past rfl

theorem record_ends_bind (task : AgentTask) (state : GraphState) (step : AgentStep)
    {f : GraphState → AgentRun α}
    (h : ∀ events, marks events = marks past ++ [.recorded step] →
      (f { state with steps := state.steps ++ [stepToDict step] }).run.Ends post events) :
    ((liftM (state.record task step) : AgentRun GraphState) >>= f).run.Ends post past := by
  rw [Fallible.run_lift_bind]
  exact fun answer => h _ (marks_marked past rfl)

theorem loopRecord_ends_bind (task : AgentTask) (loop : LoopState) (step : AgentStep)
    {f : LoopState → AgentRun α}
    (h : ∀ events, marks events = marks past ++ [.recorded step] →
      (f { loop with steps := loop.steps ++ [step] }).run.Ends post events) :
    ((liftM (loop.record task step) : AgentRun LoopState) >>= f).run.Ends post past := by
  rw [Fallible.run_lift_bind]
  exact fun answer => h _ (marks_marked past rfl)

theorem loopRecord_ends (task : AgentTask) (loop : LoopState) (step : AgentStep)
    {post : List (Event AgentPorts) → Except PyException LoopState → Prop}
    (h : ∀ events, marks events = marks past ++ [.recorded step] →
      post events (.ok { loop with steps := loop.steps ++ [step] })) :
    (liftM (loop.record task step) : AgentRun LoopState).run.Ends post past :=
  fun _ => h _ (marks_marked past rfl)

theorem search_ends_bind (query : String) {f : List RawSearchHit → AgentRun α}
    (herror : ∀ e events, marks events = marks past ++ [.searched (.error e)] →
      post events (.error e))
    (hok : ∀ found events, marks events = marks past ++ [.searched (.ok found)] →
      (f found).run.Ends post events) :
    (raising (ask (.search query)) >>= f).run.Ends post past := by
  rw [Fallible.run_raising_bind]
  intro answer
  cases answer with
  | error e => exact herror e _ (marks_marked past rfl)
  | ok found => exact hok found _ (marks_marked past rfl)

theorem critique_ends_bind (goal : String) (hits : List RawSearchHit) {f : Critique → AgentRun α}
    (herror : ∀ e events, marks events = marks past ++ [.critiqued (.error e)] →
      post events (.error e))
    (hok : ∀ verdict events, marks events = marks past ++ [.critiqued (.ok verdict)] →
      (f verdict).run.Ends post events) :
    (raising (ask (.critique goal hits)) >>= f).run.Ends post past := by
  rw [Fallible.run_raising_bind]
  intro answer
  cases answer with
  | error e => exact herror e _ (marks_marked past rfl)
  | ok verdict => exact hok verdict _ (marks_marked past rfl)

theorem decide_ends_bind (goal : String) (steps : List AgentStep) (hits : List RawSearchHit)
    {f : AgentAction → AgentRun α}
    (herror : ∀ e events, marks events = marks past ++ [.decided] → post events (.error e))
    (hok : ∀ action events, marks events = marks past ++ [.decided] →
      (f action).run.Ends post events) :
    (raising (ask (.decide goal steps hits)) >>= f).run.Ends post past := by
  rw [Fallible.run_raising_bind]
  intro answer
  cases answer with
  | error e => exact herror e _ (marks_marked past rfl)
  | ok action => exact hok action _ (marks_marked past rfl)

-- A part of a run that leaves no mark.
def Silent {β : Type} (x : AgentRun β) : Prop :=
  ∀ past, x.run.Ends (fun events _ => marks events = marks past) past

theorem silent_ends_bind {β : Type} {x : AgentRun β} {f : β → AgentRun α} (hx : Silent x)
    (herror : ∀ e events, marks events = marks past → post events (.error e))
    (hok : ∀ value events, marks events = marks past → (f value).run.Ends post events) :
    (x >>= f).run.Ends post past := by
  rw [ExceptT.run_bind, Program.ends_bind]
  refine (hx past).mono fun events result hevents => ?_
  cases result with
  | error e => exact herror e events hevents
  | ok value => exact hok value events hevents

theorem silent_bind {β : Type} {x : AgentRun β} {f : β → AgentRun α} (hx : Silent x)
    (hf : ∀ value, Silent (f value)) : Silent (x >>= f) := by
  intro past
  refine silent_ends_bind hx (fun e events hevents => hevents) fun value events hevents => ?_
  refine (hf value events).mono fun later result hlater => ?_
  rw [hlater, hevents]

theorem silent_orRaise (x : Except PyException α) : Silent (orRaise x : AgentRun α) := fun _ => rfl

theorem silent_pure (value : α) : Silent (pure value : AgentRun α) := fun _ => rfl

theorem silent_call {request : AgentCall} {result : request.Answer → Except PyException α}
    (h : ∀ answer, mark ⟨request, answer⟩ = none) :
    Silent (raising (.call request fun answer => .done (result answer))) :=
  fun past answer => marks_unmarked past (h answer)

end Rules

section Delivery

theorem resolveHit_silent (pageDates : Bool) (hit : RawSearchHit) (enrichment : HitEnrichment) :
    Silent (resolveHit pageDates hit enrichment) := by
  unfold resolveHit
  by_cases hfetch : hit.publishedAt = none ∧ pageDates = true
  · rw [if_pos hfetch]
    refine silent_bind (silent_call fun _ => rfl) fun _ => ?_
    exact silent_bind (silent_orRaise _) fun _ => silent_pure _
  · rw [if_neg hfetch]
    refine silent_bind (silent_pure none) fun _ => ?_
    exact silent_bind (silent_orRaise _) fun _ => silent_pure _

theorem resolveZip_silent (pageDates : Bool) (hits : List RawSearchHit)
    (enrichments : List HitEnrichment) : Silent (resolveZip pageDates hits enrichments) := by
  induction hits generalizing enrichments with
  | nil =>
      cases enrichments with
      | nil => exact silent_pure _
      | cons _ _ => exact silent_orRaise (.error _)
  | cons hit hits ih =>
      cases enrichments with
      | nil => exact silent_orRaise (.error _)
      | cons enrichment enrichments =>
          refine silent_bind (resolveHit_silent _ _ _) fun _ => ?_
          exact silent_bind (ih enrichments) fun _ => silent_pure _

theorem resolveHits_silent (pageDates : Bool) (hits : List RawSearchHit) :
    Silent (resolveHits pageDates hits) :=
  silent_bind (silent_call fun _ => rfl) fun _ => resolveZip_silent _ _ _

-- A delivery records at most one step, the report.
theorem deliver_ends [Unicode] {past : List (Event AgentPorts)} (task : AgentTask)
    (hits : List RawSearchHit) (seq : Nat) :
    (deliver task hits seq).run.Ends (fun events _ => marks events = marks past ∨
      ∃ step : AgentStep, step.seq = seq ∧ step.kind = .report ∧
        marks events = marks past ++ [.recorded step]) past := by
  have hsorted : Silent (sortByPublicationDate <$> resolveHits task.pageDates hits) := by
    rw [map_eq_pure_bind]
    exact silent_bind (resolveHits_silent _ _) fun _ => silent_pure _
  unfold deliver
  refine silent_ends_bind hsorted (fun e events hevents => Or.inl hevents) ?_
  intro results events hevents
  have hdeliver : ∀ results, Silent (do
      raising (ask (.deliver task.jobId results))
      return results : AgentRun (List ResearchResult)) := fun results =>
    silent_bind (silent_call fun _ => rfl) fun _ => silent_pure results
  cases task.seenUrls with
  | none =>
      refine (hdeliver results events).mono fun later result hlater => ?_
      rw [hlater]
      exact Or.inl hevents
  | some seenUrls =>
      refine silent_ends_bind (silent_orRaise _) ?_ fun flagged later hlater => ?_
      · intro e later hlater
        rw [hlater]
        exact Or.inl hevents
      · rw [Fallible.run_lift_bind]
        intro answer
        refine (hdeliver flagged _).mono fun last result hlast => ?_
        rw [marks_marked later rfl, hlater, hevents] at hlast
        exact Or.inr ⟨_, rfl, rfl, hlast⟩

-- What follows a run of the graph: a delivery, or the question it paused on.
theorem settle_ends [Unicode] {past : List (Event AgentPorts)} (task : AgentTask) (limit : Nat)
    (invocation : GraphInvocation) :
    (settle task limit invocation).run.Ends (fun events _ => marks events = marks past ∨
      (∃ step : AgentStep, step.seq = invocation.state.steps.length + 1 ∧ step.kind = .report ∧
        invocation.ending = .finished ∧ marks events = marks past ++ [.recorded step]) ∨
      (∃ question, invocation.ending = .interrupted question) ∧
        marks events = marks past ++ [.asked]) past := by
  unfold settle
  cases hending : invocation.ending with
  | raised e => exact Or.inl rfl
  | outOfSteps => exact Or.inl rfl
  | interrupted question =>
      dsimp only
      by_cases hclarifier : task.clarifier = true
      · rw [if_pos hclarifier, Fallible.run_raising_bind]
        intro answer
        have hmark : mark ⟨.requestClarification task.jobId question, answer⟩ = some .asked := rfl
        have hasked := marks_marked past hmark
        cases answer <;> exact Or.inr (Or.inr ⟨⟨question, rfl⟩, hasked⟩)
      · rw [if_neg hclarifier]
        exact Or.inl rfl
  | finished =>
      dsimp only
      rw [map_eq_pure_bind, ExceptT.run_bind, Program.ends_bind]
      refine (deliver_ends task _ _).mono fun events result hevents => ?_
      have hmarks : marks events = marks past ∨ ∃ step : AgentStep,
          step.seq = invocation.state.steps.length + 1 ∧ step.kind = .report ∧
            Ending.finished = (.finished : Ending PyException String) ∧
            marks events = marks past ++ [.recorded step] := by
        rcases hevents with hevents | ⟨step, hseq, hkind, hevents⟩
        · exact Or.inl hevents
        · exact Or.inr ⟨step, hseq, hkind, rfl, hevents⟩
      cases result <;> exact hmarks.imp_right Or.inl

theorem reportResult_ends {α : Type} {past : List (Event AgentPorts)} (jobId : String)
    (result : Except PyException α) :
    (reportResult jobId result).Ends
      (fun events value => value = result ∧ marks events = marks past) past := by
  cases result with
  | ok value => exact ⟨rfl, rfl⟩
  | error e => exact fun answer => ⟨rfl, marks_unmarked past rfl⟩

end Delivery

def Critique.kept (verdict : Critique) (hits : List RawSearchHit) : List RawSearchHit :=
  hits.filter fun hit => hit.url ∉ verdict.irrelevantUrls

theorem hits_encoded (hits : List HitDict) : (hits.map hitFromDict).map hitToDict = hits := by
  rw [List.map_map]
  exact List.map_id hits

theorem runFinalize_ends {past : List (Event AgentPorts)} {task : AgentTask} (state : GraphState)
    (reason : String) :
    (Node.runFinalize task { state with next := actionToDict (.finish reason) }).run.Ends
      (fun events result => ∃ step : AgentStep, step.seq = state.steps.length + 1 ∧
        step.kind = .finish ∧ marks events = marks past ++ [.recorded step] ∧
        result = .ok (.update { state with
          steps := state.steps ++ [stepToDict step]
          next := actionToDict (.finish reason) })) past := by
  intro answer
  exact ⟨_, rfl, rfl, marks_marked past rfl, rfl⟩

theorem applyAskGuard_ask {task : AgentTask} {state : GraphState} {action : AgentAction}
    {question reason : String} (h : applyAskGuard task state action = .ask question reason) :
    task.clarifier = true ∧ state.asked = false ∧ state.clarification = none := by
  cases action with
  | ask question reason =>
      simp only [applyAskGuard] at h
      split at h
      · cases h
      · rename_i hguard
        simpa [not_or] using hguard
  | search | finish => cases h

-- What the node "decide" does: at most one call of the policy, and only within
-- the step budget.
structure Decides (task : AgentTask) (state : GraphState) (action : AgentAction) : Prop where
  search : ∀ query reason, action = .search query reason →
    searchesDoneDict state.steps < task.maxSteps
  ask : ∀ question reason, action = .ask question reason →
    searchesDoneDict state.steps < task.maxSteps ∧ state.asked = false ∧ state.clarification = none

theorem runDecide_ends {past : List (Event AgentPorts)} {task : AgentTask} (state : GraphState) :
    (Node.runDecide task state).run.Ends
      (fun events result => ∃ trace, marks events = marks past ++ trace ∧
        (trace = [] ∧ (∀ value, result = .ok value → ∃ reason,
            value = .update { state with next := actionToDict (.finish reason) }) ∨
          trace = [.decided] ∧ searchesDoneDict state.steps < task.maxSteps ∧
            ∀ value, result = .ok value → ∃ action, Decides task state action ∧
              value = .update { state with next := actionToDict action })) past := by
  unfold Node.runDecide
  by_cases hbudget : searchesDoneDict state.steps ≥ task.maxSteps
  · rw [if_pos hbudget]
    refine ⟨[], (List.append_nil _).symm, Or.inl ⟨rfl, fun value hvalue => ?_⟩⟩
    cases hvalue
    exact ⟨_, rfl⟩
  · rw [if_neg hbudget]
    refine overBudget_ends_bind task.budget fun exhausted events hevents => ?_
    by_cases hexhausted : exhausted = true
    · rw [if_pos hexhausted]
      refine ⟨[], by rw [hevents, List.append_nil], Or.inl ⟨rfl, fun value hvalue => ?_⟩⟩
      cases hvalue
      exact ⟨_, rfl⟩
    · rw [if_neg hexhausted]
      cases state.steps.mapM stepFromDict with
      | error e =>
          refine ⟨[], by rw [hevents, List.append_nil], Or.inl ⟨rfl, fun value hvalue => ?_⟩⟩
          cases hvalue
      | ok steps =>
          rw [Fallible.orRaise_ok_bind]
          refine decide_ends_bind _ _ _ ?_ ?_
          · intro e events' hevents'
            rw [hevents] at hevents'
            refine ⟨_, hevents', Or.inr ⟨rfl, by omega, fun value hvalue => ?_⟩⟩
            cases hvalue
          · intro action events' hevents'
            rw [hevents] at hevents'
            refine ⟨_, hevents', Or.inr ⟨rfl, by omega, fun value hvalue => ?_⟩⟩
            cases hvalue
            refine ⟨applyAskGuard task state action, ⟨?_, ?_⟩, rfl⟩
            · intro query reason _
              omega
            · intro question reason hask
              exact ⟨by omega, (applyAskGuard_ask hask).2⟩

section

variable [Unicode]

-- What a search of a run does: the marks it leaves, and the new hits with
-- their keys and its step. `recorded` is the number of steps before it.
inductive Searches (collected : List String) (recorded : Nat) :
    List Mark → Except PyException (List RawSearchHit × List String × AgentStep) → Prop
  | failed {answer : Except PyException (List RawSearchHit)} {e : PyException} :
      Searches collected recorded [.searched answer] (.error e)
  | found {found new : List RawSearchHit} {keys : List String} {step : AgentStep}
      (hnew : newHits collected found = .ok new) (hkeys : hitKeys new = .ok keys)
      (hseq : step.seq = recorded + 1) (hkind : step.kind = .search)
      (hcount : step.newHits = new.length) :
      Searches collected recorded [.searched (.ok found), .recorded step] (.ok (new, keys, step))

-- What a review does: the hits it leaves, and the steps it adds. `repairs` says
-- whether the budget allows it a search.
inductive Reviews (repairs : Prop) (hits : List RawSearchHit) (recorded : Nat) :
    List Mark → Except PyException (List RawSearchHit × List AgentStep) → Prop
  | skipped : Reviews repairs hits recorded [] (.ok (hits, []))
  | failed {e : PyException} :
      Reviews repairs hits recorded [.critiqued (.error e)] (.error e)
  | reviewed {verdict : Critique} {step : AgentStep} (hseq : step.seq = recorded + 1)
      (hkind : step.kind = .critique) :
      Reviews repairs hits recorded [.critiqued (.ok verdict), .recorded step]
        (.ok (verdict.kept hits, [step]))
  | repairFailed {verdict : Critique} {step : AgentStep} (hrepairs : repairs)
      (hseq : step.seq = recorded + 1) (hkind : step.kind = .critique)
      {answer : Except PyException (List RawSearchHit)} {e : PyException} :
      Reviews repairs hits recorded
        [.critiqued (.ok verdict), .recorded step, .searched answer] (.error e)
  | repaired {verdict : Critique} {step repair : AgentStep} (hrepairs : repairs)
      (hseq : step.seq = recorded + 1) (hkind : step.kind = .critique)
      {found new : List RawSearchHit} {keys : List String}
      (hkeys : hitKeys (verdict.kept hits) = .ok keys) (hnew : newHits keys found = .ok new)
      (hrepair : repair.seq = recorded + 2) (hrepairKind : repair.kind = .search)
      (hcount : repair.newHits = new.length) :
      Reviews repairs hits recorded
        [.critiqued (.ok verdict), .recorded step, .searched (.ok found), .recorded repair]
        (.ok (verdict.kept hits ++ new, [step, repair]))

variable {past : List (Event AgentPorts)} {task : AgentTask}

def GraphState.searched (state : GraphState) (new : List RawSearchHit) (keys : List String)
    (step : AgentStep) : GraphState :=
  { state with
    hits := state.hits ++ new.map hitToDict
    collected := state.collected ++ keys
    steps := state.steps ++ [stepToDict step] }

def GraphState.reviewed (state : GraphState) (hits : List RawSearchHit) (steps : List AgentStep) :
    GraphState :=
  { state with
    hits := hits.map hitToDict
    steps := state.steps ++ steps.map stepToDict }

theorem runSearch_ends (state : GraphState) (query reason : String) :
    (Node.runSearch task { state with next := actionToDict (.search query reason) }).run.Ends
      (fun events result => ∃ trace outcome, marks events = marks past ++ trace ∧
        Searches state.collected state.steps.length trace outcome ∧
        result = outcome.map fun done => .update
          { state.searched done.1 done.2.1 done.2.2 with
            next := actionToDict (.search query reason) }) past := by
  change ((raising (ask (.search query)) >>= _ : Node.Run)).run.Ends _ past
  refine search_ends_bind query ?_ ?_
  · intro e events hevents
    exact ⟨_, _, hevents, .failed, rfl⟩
  · intro found events hevents
    cases hnew : newHits state.collected found with
    | error e => exact ⟨_, .error e, hevents, .failed, rfl⟩
    | ok new =>
        obtain ⟨keys, hkeys⟩ := hitKeys_of_newHits hnew
        refine record_ends_bind task _ _ fun events' hevents' => ?_
        simp only [hkeys]
        rw [hevents, List.append_assoc] at hevents'
        exact ⟨_, _, hevents', .found hnew hkeys rfl rfl rfl, rfl⟩

theorem runCritique_ends (state : GraphState) :
    (Node.runCritique task state).run.Ends
      (fun events result => ∃ trace outcome, marks events = marks past ++ trace ∧
        Reviews (searchesDoneDict state.steps < task.maxSteps) (state.hits.map hitFromDict)
          state.steps.length trace outcome ∧
        result = outcome.map fun done => .update (state.reviewed done.1 done.2)) past := by
  refine overBudget_ends_bind task.budget fun exhausted events hevents => ?_
  by_cases hexhausted : exhausted = true
  · rw [if_pos hexhausted]
    refine ⟨[], .ok (state.hits.map hitFromDict, []), ?_, .skipped, ?_⟩
    · rw [hevents, List.append_nil]
    · simp only [Except.map, GraphState.reviewed, hits_encoded, List.map_nil, List.append_nil]
  · rw [if_neg hexhausted]
    refine critique_ends_bind _ _ ?_ ?_
    · intro e events' hevents'
      rw [hevents] at hevents'
      exact ⟨_, _, hevents', .failed, rfl⟩
    · intro verdict events' hevents'
      obtain ⟨assessment, irrelevantUrls, gapQuery⟩ := verdict
      refine record_ends_bind task _ _ fun events hrecorded => ?_
      rw [hevents', hevents, List.append_assoc] at hrecorded
      refine overBudget_ends_bind task.budget fun exhausted events' hsame => ?_
      rw [← hsame] at hrecorded
      cases gapQuery with
      | none => exact ⟨_, _, hrecorded, .reviewed rfl rfl, rfl⟩
      | some gap =>
          dsimp only
          split
          · rename_i hrepairs
            have hbudget : searchesDoneDict state.steps < task.maxSteps := by
              have hdone := hrepairs.2.1
              rw [searchesDoneDict, List.countP_append] at hdone
              unfold searchesDoneDict
              omega
            refine search_ends_bind gap ?_ ?_
            · intro e events hfailed
              rw [hrecorded, List.append_assoc] at hfailed
              exact ⟨_, _, hfailed, .repairFailed hbudget rfl rfl, rfl⟩
            · intro found events hfound
              rw [hrecorded, List.append_assoc] at hfound
              generalize hkept : (state.hits.map hitFromDict).filter (fun hit =>
                decide (hit.url ∉ irrelevantUrls)) = kept at *
              cases hkeys : hitKeys kept with
              | error e => exact ⟨_, .error e, hfound, .repairFailed hbudget rfl rfl, rfl⟩
              | ok keys =>
                  cases hnew : newHits keys found with
                  | error e =>
                      rw [Fallible.orRaise_ok_bind, hnew]
                      exact ⟨_, .error e, hfound, .repairFailed hbudget rfl rfl, rfl⟩
                  | ok new =>
                      rw [Fallible.orRaise_ok_bind, hnew]
                      refine record_ends_bind task _ _ fun events' hrepaired => ?_
                      rw [hfound, List.append_assoc] at hrepaired
                      subst hkept
                      refine ⟨_, _, hrepaired,
                        .repaired hbudget rfl rfl hkeys hnew ?_ rfl rfl, ?_⟩
                      · simp
                      · simp [Except.map, GraphState.reviewed, Critique.kept]
          · exact ⟨_, _, hrecorded, .reviewed rfl rfl, rfl⟩

def LoopState.searched (loop : LoopState) (new : List RawSearchHit) (keys : List String)
    (step : AgentStep) : LoopState :=
  { hits := loop.hits ++ new
    collectedUrls := loop.collectedUrls ++ keys
    steps := loop.steps ++ [step] }

def LoopState.reviewed (loop : LoopState) (hits : List RawSearchHit) (steps : List AgentStep) :
    LoopState :=
  { loop with
    hits := hits
    steps := loop.steps ++ steps }

omit [Unicode] in
theorem chooseAction_ends (loop : LoopState) :
    (chooseAction task loop).run.Ends
      (fun events _ => marks events = marks past ∨ marks events = marks past ++ [.decided])
      past := by
  refine overBudget_ends_bind task.budget fun exhausted events hevents => ?_
  by_cases hexhausted : exhausted = true
  · rw [if_pos hexhausted]
    exact Or.inl hevents
  · rw [if_neg hexhausted]
    refine decide_ends_bind _ _ _ (fun e events' hevents' => ?_) fun action events' hevents' => ?_
    · rw [hevents] at hevents'
      exact Or.inr hevents'
    · rw [hevents] at hevents'
      exact Or.inr hevents'

theorem searchStep_ends (loop : LoopState) (query reason : String) :
    (searchStep task (loop.steps.length + 1) query reason loop).run.Ends
      (fun events result => ∃ trace outcome, marks events = marks past ++ trace ∧
        Searches loop.collectedUrls loop.steps.length trace outcome ∧
        result = outcome.map fun done => loop.searched done.1 done.2.1 done.2.2) past := by
  refine search_ends_bind query ?_ ?_
  · intro e events hevents
    exact ⟨_, _, hevents, .failed, rfl⟩
  · intro found events hevents
    cases hnew : newHits loop.collectedUrls found with
    | error e => exact ⟨_, .error e, hevents, .failed, rfl⟩
    | ok new =>
        obtain ⟨keys, hkeys⟩ := hitKeys_of_newHits hnew
        rw [Fallible.orRaise_ok_bind, hkeys, Fallible.orRaise_ok_bind]
        refine loopRecord_ends task _ _ fun events' hevents' => ?_
        rw [hevents, List.append_assoc] at hevents'
        exact ⟨_, _, hevents', .found hnew hkeys rfl rfl rfl, rfl⟩

theorem review_ends (loop : LoopState) (hnumbered : Numbered loop.steps) :
    (review task loop).run.Ends
      (fun events result => ∃ trace outcome, marks events = marks past ++ trace ∧
        Reviews (searchesDone loop.steps < task.maxSteps) loop.hits loop.steps.length trace
          outcome ∧
        result = outcome.map fun done => loop.reviewed done.1 done.2) past := by
  have hskipped : ∀ events, marks events = marks past →
      (pure loop : AgentRun LoopState).run.Ends
        (fun events result => ∃ trace outcome, marks events = marks past ++ trace ∧
          Reviews (searchesDone loop.steps < task.maxSteps) loop.hits loop.steps.length trace
            outcome ∧
          result = outcome.map fun done => loop.reviewed done.1 done.2) events := by
    intro events hevents
    refine ⟨[], .ok (loop.hits, []), ?_, .skipped, ?_⟩
    · rw [hevents, List.append_nil]
    · simp [Except.map, LoopState.reviewed]
  unfold review
  by_cases hcritic : task.critic = true
  swap
  · rw [if_neg hcritic]
    exact hskipped past rfl
  rw [if_pos hcritic]
  refine overBudget_ends_bind task.budget fun exhausted events hevents => ?_
  by_cases hexhausted : exhausted = true
  · rw [if_pos hexhausted]
    exact hskipped events hevents
  · rw [if_neg hexhausted]
    refine critique_ends_bind _ _ ?_ ?_
    · intro e events' hevents'
      rw [hevents] at hevents'
      exact ⟨_, _, hevents', .failed, rfl⟩
    · intro verdict events' hevents'
      obtain ⟨assessment, irrelevantUrls, gapQuery⟩ := verdict
      rw [hnumbered.nextSeq]
      refine loopRecord_ends_bind task _ _ fun events hrecorded => ?_
      rw [hevents', hevents, List.append_assoc] at hrecorded
      refine overBudget_ends_bind task.budget fun exhausted events' hsame => ?_
      rw [← hsame] at hrecorded
      cases gapQuery with
      | none => exact ⟨_, _, hrecorded, .reviewed rfl rfl, rfl⟩
      | some gap =>
          dsimp only
          split
          · rename_i hrepairs
            have hbudget : searchesDone loop.steps < task.maxSteps := by
              have hdone := hrepairs.2.1
              rw [searchesDone, List.countP_append] at hdone
              unfold searchesDone
              omega
            refine search_ends_bind gap ?_ ?_
            · intro e events hfailed
              rw [hrecorded, List.append_assoc] at hfailed
              exact ⟨_, _, hfailed, .repairFailed hbudget rfl rfl, rfl⟩
            · intro found events hfound
              rw [hrecorded, List.append_assoc] at hfound
              generalize hkept : loop.hits.filter (fun hit =>
                decide (hit.url ∉ irrelevantUrls)) = kept at *
              cases hkeys : hitKeys kept with
              | error e => exact ⟨_, .error e, hfound, .repairFailed hbudget rfl rfl, rfl⟩
              | ok keys =>
                  rw [Fallible.orRaise_ok_bind]
                  cases hnew : newHits keys found with
                  | error e => exact ⟨_, .error e, hfound, .repairFailed hbudget rfl rfl, rfl⟩
                  | ok new =>
                      rw [Fallible.orRaise_ok_bind]
                      refine loopRecord_ends task _ _ fun events' hrepaired => ?_
                      rw [hfound, List.append_assoc] at hrepaired
                      subst hkept
                      refine ⟨_, _, hrepaired,
                        .repaired hbudget rfl rfl hkeys hnew rfl rfl rfl, ?_⟩
                      simp [LoopState.reviewed, Except.map, Critique.kept]
          · exact ⟨_, _, hrecorded, .reviewed rfl rfl, rfl⟩

end

end AgentBoilerplate.Agent
