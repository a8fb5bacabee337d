import AgentBoilerplate.Agent.Progress
import AgentBoilerplate.Agent.Restraint

namespace AgentBoilerplate.Agent

open Python Effects Fallible Collections

-- The finishes in the journal of a thread, by the node that is due.
def owed : Option Node → Nat
  | some .critique | none => 1
  | some .decide | some .search | some .ask | some .finalize => 0

section

variable [Unicode]

-- A thread that can go on: hits whose URLs can be compared, a journal that can
-- be read back, and its finish where it is due.
structure Ready (due : Option Node) (state : GraphState) : Prop where
  usable : Usable state.rawHits
  encoded : ∃ steps : List AgentStep, state.steps = steps.map stepToDict
  finishes : finishes state.steps = owed due

-- What a delivery makes of a run that started from `hits` and `steps`.
structure Whole (hits : List RawSearchHit) (steps : List StepDict) (events : List (Event AgentPorts))
    (results : List ResearchResult) : Prop where
  finishes : finishes (steps ++ (reports (marks events)).map stepToDict) = 1
  collects : (results.map ResearchResult.source).Perm
    ((collected hits events).map RawSearchHit.source)

-- A run that returns, if nothing goes wrong.
def EndsWell (task : AgentTask) (hits : List RawSearchHit) (steps : List StepDict)
    (events : List (Event AgentPorts)) (result : Except PyException (Option (List ResearchResult))) :
    Prop :=
  Smooth task events → ∃ value, result = .ok value ∧ ∀ results ∈ value, Whole hits steps events results

variable {task : AgentTask} {past : List (Event AgentPorts)} {state : GraphState}

theorem Reviews.usable {repairs : Prop} {hits : List RawSearchHit} {recorded : Nat}
    {trace : List Mark} {reviewed : List RawSearchHit × List AgentStep}
    (h : Reviews repairs hits recorded trace (.ok reviewed)) (husable : Usable hits) :
    Usable reviewed.1 := by
  cases h with
  | skipped => exact husable
  | reviewed => exact husable.kept _
  | repaired _ _ _ hkeys hnew => exact (husable.kept _).append (usable_newHits hnew)

theorem Reviews.unfinished {repairs : Prop} {hits : List RawSearchHit} {recorded : Nat}
    {trace : List Mark} {reviewed : List RawSearchHit × List AgentStep}
    (h : Reviews repairs hits recorded trace (.ok reviewed)) :
    finishes ((Agent.reports trace).map stepToDict) = 0 := by
  rw [h.reports]
  cases h with
  | skipped => rfl
  | @reviewed _ step _ hkind =>
      rw [List.map_singleton, finishes_step, hkind]
      rfl
  | @repaired _ step repair _ _ hkind _ _ _ _ _ _ hrepairKind =>
      rw [← List.singleton_append, List.map_append, finishes_append, List.map_singleton,
        List.map_singleton, finishes_step, finishes_step, hkind, hrepairKind]
      rfl

theorem conclude_completes {loop : LoopState} (hnumbered : Numbered loop.steps)
    (husable : Usable loop.hits) :
    (conclude task loop).run.Ends (fun events result => Smooth task events →
      ∃ trace results later, marks events = marks past ++ trace ∧ result = .ok (some results) ∧
        finishes ((reports trace).map stepToDict) = 0 ∧ Gathers loop.hits trace later ∧
        (results.map ResearchResult.source).Perm (later.map RawSearchHit.source)) past := by
  unfold conclude
  rw [ExceptT.run_bind, Program.ends_bind]
  have hcompletes := @review_completes _ task loop husable past trivial
  refine ((review_ends loop hnumbered).and hcompletes).mono fun events result hresult => ?_
  obtain ⟨⟨trace, outcome, hevents, hreviews, rfl⟩, hleaving⟩ := hresult
  cases outcome with
  | error e => exact fun hsmooth => absurd hsmooth hleaving
  | ok reviewed =>
      dsimp only [Except.map]
      rw [map_eq_pure_bind, ExceptT.run_bind, Program.ends_bind]
      have hdeliver := @deliver_succeeds _ task reviewed.1
        (nextSeq (loop.reviewed reviewed.1 reviewed.2).steps) (hreviews.usable husable) events
        fun _ => trivial
      refine ((deliver_ends task _ _).and hdeliver).mono fun later result hlater => ?_
      obtain ⟨hmarks, hleaving⟩ := hlater
      cases result with
      | error e => exact fun hsmooth => absurd hsmooth hleaving
      | ok results =>
          intro hsmooth
          have hresults := hleaving hsmooth
          rcases hmarks with hsame | ⟨step, -, hkind, hreport⟩
          · exact ⟨trace, results, _, hsame.trans hevents, rfl, hreviews.unfinished, hreviews.gathers,
              hresults⟩
          · rw [hevents, List.append_assoc] at hreport
            refine ⟨_, results, _, hreport, rfl, ?_,
              hreviews.gathers.trans (gathers_unsearched _ step (by simp [hkind])), hresults⟩
            have hone : (reports [Mark.recorded step]).map stepToDict = [stepToDict step] := rfl
            rw [reports_append, List.map_append, finishes_append, hreviews.unfinished, hone,
              finishes_step, hkind]
            rfl

-- The marks of a whole run, and what is delivered of the hits they leave.
theorem whole_of {hits later : List RawSearchHit} {steps : List StepDict} {trace : List Mark}
    {events : List (Event AgentPorts)} {results : List ResearchResult} (hmarks : marks events = trace)
    (hfinishes : finishes (steps ++ (reports trace).map stepToDict) = 1)
    (hgathers : Gathers hits trace later)
    (hresults : (results.map ResearchResult.source).Perm (later.map RawSearchHit.source)) :
    Whole hits steps events results := by
  refine ⟨hmarks ▸ hfinishes, ?_⟩
  unfold collected
  rw [hmarks, hgathers.collects]
  exact hresults

theorem agentResearch_endsWell :
    (agentResearch task).run.Ends (EndsWell task [] []) [] := by
  unfold agentResearch
  rw [Fallible.run_raising_bind]
  intro answer
  cases answer with
  | error e =>
      intro hsmooth
      cases hsmooth.last.1
  | ok _ =>
      change (decisionLoop task _ _ >>= _).run.Ends _ _
      rw [ExceptT.run_bind, Program.ends_bind]
      have hcontinues := @decisionLoop_continues _ task ([] ++ [⟨.markStarted task.jobId, .ok ()⟩])
        task.maxSteps ⟨[], [], []⟩ rfl (Nat.zero_add _)
      have hgathers := @decisionLoop_gathers _ task ([] ++ [⟨.markStarted task.jobId, .ok ()⟩])
        task.maxSteps ⟨[], [], []⟩ rfl
      have husable : Usable [] := fun hit hhit => by cases hhit
      have hcompletes := @decisionLoop_completes _ task (List.range' 1 task.maxSteps) ⟨[], [], []⟩
        husable ([] ++ [⟨.markStarted task.jobId, .ok ()⟩]) trivial
      refine ((hgathers.and hcontinues).and hcompletes).mono fun events result hresult => ?_
      obtain ⟨⟨⟨trace, hevents, hloop⟩, trace', hevents', -, hreports⟩, hleaving⟩ := hresult
      have hsame : trace' = trace := List.append_cancel_left (hevents'.symm.trans hevents)
      rw [hsame] at hreports
      cases result with
      | error e => exact fun hsmooth => absurd hsmooth hleaving
      | ok loop =>
          cases loop with
          | none => exact fun _ => ⟨none, rfl, fun results hresults => by cases hresults⟩
          | some loop =>
              obtain ⟨hhits, hfinish⟩ := hleaving loop rfl
              refine (conclude_completes hreports.2 hhits).mono fun last result hlast hsmooth => ?_
              obtain ⟨rest, results, later, hrest, rfl, hnone, hlater, hperm⟩ := hlast hsmooth
              refine ⟨some results, rfl, fun other hother => ?_⟩
              cases hother
              rw [hevents, List.append_assoc] at hrest
              have hall : marks last = trace ++ rest := hrest
              have hfirst : Gathers [] trace loop.hits := hloop
              refine whole_of hall ?_ (hfirst.trans hlater) hperm
              rw [hreports.1] at hfinish
              change finishes ((reports (trace ++ rest)).map stepToDict) = 1
              rw [reports_append, List.map_append, finishes_append, hnone]
              exact hfinish

-- A failure that is reported leaves nothing well.
theorem reportingFailure_endsWell {hits : List RawSearchHit} {steps : List StepDict}
    {x : AgentRun (Option (List ResearchResult))}
    (hx : x.run.Ends (EndsWell task hits steps) past) :
    (reportingFailure task.jobId x).Ends (EndsWell task hits steps) past := by
  unfold reportingFailure
  rw [Program.ends_bind]
  refine hx.mono fun events result hresult => ?_
  cases result with
  | ok value => exact hresult
  | error e =>
      intro answer hsmooth
      obtain ⟨value, hvalue, -⟩ := hresult (hsmooth.earlier (List.prefix_append events _))
      cases hvalue

theorem owed_next {node : Node} {next : Option Node}
    (h : (buildGraph task).next node state = .ok next) :
    owed next = owed (some node) + if node = .finalize then 1 else 0 := by
  cases node with
  | decide =>
      change route state = .ok next at h
      unfold route at h
      cases hkind : state.next.get "kind" with
      | error e =>
          rw [hkind] at h
          cases h
      | ok kind =>
          rw [hkind] at h
          change (if kind = "search" then _ else _ : Except PyException (Option Node)) = _ at h
          split at h
          · cases h
            rfl
          · split at h
            · cases h
              rfl
            · split at h
              · cases h
                rfl
              · cases h
  | finalize =>
      have hnode : (if task.critic then some Node.critique else none) = next := Except.ok.inj h
      rw [← hnode]
      split <;> rfl
  | search | ask | critique =>
      cases h
      rfl

-- A node leaves the thread ready for the next one.
theorem Ready.next {node : Node} {resume : Option String} {later : GraphState} {next : Option Node}
    (h : Ready (some node) state) (hnode : NodeCompletes task node resume state (.update later))
    (hnext : (buildGraph task).next node later = .ok next) : Ready next later := by
  obtain ⟨husable, ⟨added, hadded, hfinishes⟩, -⟩ := hnode
  obtain ⟨steps, hsteps⟩ := h.encoded
  refine ⟨husable, ⟨steps ++ added, ?_⟩, ?_⟩
  · rw [hadded, hsteps, List.map_append]
  · rw [hadded, finishes_append, h.finishes, hfinishes, owed_next hnext]

-- What a run of the graph leaves: a thread that is ready, and if it finishes,
-- the hits that it collected. If nothing goes wrong, it raises nothing.
structure GraphCompletes (task : AgentTask) (hits : List RawSearchHit) (trace : List Mark)
    (events : List (Event AgentPorts)) (invocation : GraphInvocation) : Prop where
  ready : Ready invocation.due invocation.state
  finished : invocation.ending = .finished →
    invocation.due = none ∧ Gathers hits trace invocation.state.rawHits
  smooth : Smooth task events → invocation.ending = .outOfSteps ∨ invocation.ending = .finished ∨
    task.clarifier = true ∧ ∃ question, invocation.ending = .interrupted question

theorem invoke_completes {node : Node} {resume : Option String} {limit : Nat} (executed : List Node)
    (hdue : Due task state node) (htracks : state.Tracks) (hready : Ready (some node) state)
    (hask : node = .ask → resume = none → task.clarifier = true) :
    ((buildGraph task).invoke limit executed node resume state).Ends
      (fun events invocation => ∃ trace, marks events = marks past ++ trace ∧
        GraphCompletes task state.rawHits trace events invocation) past := by
  induction limit generalizing executed node resume state past with
  | zero =>
      refine ⟨[], (List.append_nil _).symm, hready, fun hending => ?_, fun _ => Or.inl rfl⟩
      cases hending
  | succ limit ih =>
      obtain ⟨steps, hsteps⟩ := hready.encoded
      unfold StateGraph.invoke
      rw [Program.ends_bind]
      have hcompletes := node_completes node resume hready.usable hsteps hdue past trivial
      refine (((node_staysWithin node resume hdue).and (node_collects node resume hdue htracks)).and
        hcompletes).mono fun events result hresult => ?_
      obtain ⟨⟨⟨trace, hevents, hwithin⟩, trace', hevents', hcollects⟩, hleaving⟩ := hresult
      have hsame : trace' = trace := List.append_cancel_left (hevents'.symm.trans hevents)
      subst hsame
      cases result with
      | error e =>
          refine ⟨trace', hevents', hready, fun hending => ?_, fun hsmooth => absurd hsmooth hleaving⟩
          cases hending
      | ok value =>
          cases value with
          | interrupt question =>
              obtain ⟨hnode, hresume⟩ := hleaving
              refine ⟨trace', hevents', hready, fun hending => ?_, fun _ => ?_⟩
              · cases hending
              · exact Or.inr (Or.inr ⟨hask hnode hresume, question, rfl⟩)
          | update state' =>
              obtain ⟨hgathers, hkeeps⟩ := hcollects
              obtain ⟨next, hnext, hwithin⟩ := hwithin
              have hcompleted : NodeCompletes task node resume state (.update state') := hleaving
              have hlater := hready.next hcompleted hnext
              dsimp only
              rw [hnext]
              cases next with
              | none =>
                  exact ⟨trace', hevents', hlater, fun _ => ⟨rfl, hgathers⟩, fun _ => Or.inr (Or.inl rfl)⟩
              | some node' =>
                  have hnode : node ≠ .critique := by
                    intro heq
                    rw [heq] at hnext
                    cases hnext
                  have hask' : node' = .ask → (none : Option String) = none → task.clarifier = true :=
                    fun hnode' _ => hcompleted.2.2 (hnode' ▸ hnext)
                  refine (ih _ hwithin.1 (hkeeps hnode) hlater hask').mono fun last invocation hlast => ?_
                  obtain ⟨rest, hrest, hcompletes⟩ := hlast
                  refine ⟨trace' ++ rest, ?_, hcompletes.ready, fun hending => ?_, hcompletes.smooth⟩
                  · rw [hrest, hevents', List.append_assoc]
                  · obtain ⟨hdone, hrests⟩ := hcompletes.finished hending
                    exact ⟨hdone, hgathers.trans hrests⟩

variable {limit : Nat} {checkpoint : Option Checkpoint} {resumeAnswer : Option String}

theorem startGraph_completes (hsound : ∀ c, checkpoint = some c → c.Sound task)
    (hkeys : ∀ c, checkpoint = some c → c.due ≠ none → c.state.Tracks)
    (hready : ∀ c, checkpoint = some c → Ready c.due c.state) :
    (startGraph task limit checkpoint resumeAnswer).Ends
      (fun events invocation => ∃ trace, marks events = marks past ++ trace ∧
        GraphCompletes task (taskHits checkpoint resumeAnswer) trace events invocation) past := by
  have hdecide : Due task (initialState task resumeAnswer) .decide := trivial
  have htracks : (initialState task resumeAnswer).Tracks := rfl
  have hfresh : Ready (some .decide) (initialState task resumeAnswer) :=
    ⟨fun hit hhit => (by cases hhit), ⟨[], rfl⟩, rfl⟩
  have hnever : Node.decide = .ask → (none : Option String) = none → task.clarifier = true :=
    fun heq => by cases heq
  unfold startGraph taskHits
  cases resumeAnswer with
  | none => exact invoke_completes [] hdecide htracks hfresh hnever
  | some answer =>
      cases checkpoint with
      | none => exact invoke_completes [] hdecide htracks hfresh hnever
      | some checkpoint =>
          have hcheckpoint := hkeys checkpoint rfl
          have hstate := hready checkpoint rfl
          obtain ⟨state, due⟩ := checkpoint
          cases due with
          | some due =>
              refine invoke_completes [] (hsound _ rfl due rfl) (hcheckpoint (by simp)) hstate ?_
              intro _ hnone
              cases hnone
          | none =>
              refine ⟨[], (List.append_nil _).symm, hstate, fun _ => ?_, fun _ => Or.inr (Or.inl rfl)⟩
              exact ⟨rfl, gathers_nothing _⟩

theorem settle_endsWell {hits : List RawSearchHit} {steps : List StepDict} {trace : List Mark}
    {invocation : GraphInvocation} (hmarks : marks past = trace)
    (hcompletes : GraphCompletes task hits trace past invocation)
    (hjournals : Journals steps trace invocation) (hlimit : invocation.ending ≠ .outOfSteps) :
    (settle task limit invocation).run.Ends (EndsWell task hits steps) past := by
  unfold settle
  cases hending : invocation.ending with
  | raised e =>
      intro hsmooth
      rcases hcompletes.smooth hsmooth with hother | hother | ⟨-, question, hother⟩
      · cases hending.symm.trans hother
      · cases hending.symm.trans hother
      · cases hending.symm.trans hother
  | outOfSteps => exact absurd hending hlimit
  | interrupted question =>
      dsimp only
      by_cases hclarifier : task.clarifier = true
      · rw [if_pos hclarifier, Fallible.run_raising_bind]
        intro answer
        cases answer with
        | error e =>
            intro hsmooth
            cases hsmooth.last.1
        | ok _ => exact fun _ => ⟨none, rfl, fun results hresults => by cases hresults⟩
      · rw [if_neg hclarifier]
        intro hsmooth
        rcases hcompletes.smooth hsmooth with hother | hother | ⟨hother, -⟩
        · cases hending.symm.trans hother
        · cases hending.symm.trans hother
        · exact absurd hother hclarifier
  | finished =>
      obtain ⟨hdone, hgathers⟩ := hcompletes.finished hending
      have hsteps := hjournals.whole (by simp [hending])
      have hfinishes : finishes (steps ++ (reports trace).map stepToDict) = 1 := by
        rw [← hsteps, hcompletes.ready.finishes, hdone]
        rfl
      dsimp only
      rw [map_eq_pure_bind, ExceptT.run_bind, Program.ends_bind]
      have hdeliver := @deliver_succeeds _ task invocation.state.rawHits
        (invocation.state.steps.length + 1) hcompletes.ready.usable past fun _ => trivial
      refine ((deliver_ends task _ _).and hdeliver).mono fun later result hlater => ?_
      obtain ⟨hreported, hleaving⟩ := hlater
      cases result with
      | error e => exact fun hsmooth => absurd hsmooth hleaving
      | ok results =>
          intro hsmooth
          refine ⟨some results, rfl, fun other hother => ?_⟩
          cases hother
          have hresults := hleaving hsmooth
          rcases hreported with hsame | ⟨step, -, hkind, hreport⟩
          · exact whole_of (hsame.trans hmarks) hfinishes hgathers hresults
          · rw [hmarks] at hreport
            have hone : (reports [Mark.recorded step]).map stepToDict = [stepToDict step] := rfl
            refine whole_of hreport ?_ (hgathers.trans (gathers_unsearched _ step (by simp [hkind]))) hresults
            rw [reports_append, List.map_append, ← List.append_assoc, finishes_append, hfinishes, hone,
              finishes_step, hkind]
            rfl

theorem runAgentGraph_endsWell (hsound : ∀ c, checkpoint = some c → c.Sound task)
    (hkeys : ∀ c, checkpoint = some c → c.due ≠ none → c.state.Tracks)
    (hready : ∀ c, checkpoint = some c → Ready c.due c.state) :
    (runAgentGraph task limit checkpoint resumeAnswer).Ends (fun events run =>
      (∀ invocation, run.invocation = some invocation → Ready invocation.due invocation.state) ∧
        ((∀ invocation, run.invocation = some invocation → invocation.ending ≠ .outOfSteps) →
          EndsWell task (taskHits checkpoint resumeAnswer) (taskSteps checkpoint resumeAnswer) events
            run.result)) [] := by
  unfold runAgentGraph
  intro answer
  cases answer with
  | error e =>
      refine fun reported => ⟨fun invocation heq => (by cases heq), fun _ hsmooth => ?_⟩
      cases (hsmooth.earlier (List.prefix_append _ _)).last.1
  | ok _ =>
      change (startGraph task limit checkpoint resumeAnswer >>= _).Ends _ _
      rw [Program.ends_bind]
      refine ((startGraph_completes hsound hkeys hready).and (startGraph_journals hsound)).mono
        fun events invocation h => ?_
      obtain ⟨⟨trace, hevents, hcompletes⟩, trace', hevents', hjournals⟩ := h
      have hsame : trace' = trace := List.append_cancel_left (hevents'.symm.trans hevents)
      rw [hsame] at hjournals
      rw [Program.ends_bind]
      by_cases hlimit : invocation.ending = .outOfSteps
      · refine (Program.ends_extends _ events).mono fun last result _ => ⟨fun other heq => ?_, fun hnot => ?_⟩
        · cases heq
          exact hcompletes.ready
        · exact absurd hlimit (hnot invocation rfl)
      · have hsettled := reportingFailure_endsWell
          (@settle_endsWell _ task events limit _ _ _ _ hevents hcompletes hjournals hlimit)
        refine hsettled.mono fun last result hlast => ⟨fun other heq => ?_, fun _ => hlast⟩
        cases heq
        exact hcompletes.ready

theorem Reached.ready {maxSteps : Nat} (h : Reached maxSteps checkpoint) (c : Checkpoint)
    (heq : checkpoint = some c) : Ready c.due c.state := by
  induction h generalizing c with
  | fresh => cases heq
  | @left task limit checkpoint resumeAnswer oracle invocation h hsteps hrun ih =>
      cases heq
      rw [← hsteps] at h
      have hends := @runAgentGraph_endsWell _ task limit checkpoint resumeAnswer h.sound h.tracks ih
      exact (hends.execute oracle).1 invocation hrun

-- What the cap promises while a task runs: once exceeded it stays so, one more
-- search may be made, and neither the policy nor the critic is called.
structure Capped (task : AgentTask) (meter : UsageMeter) (events : List (Event AgentPorts)) : Prop where
  stays : ∀ past later, past <+: later → later <+: events → Exceeded task.budget meter past →
    Exceeded task.budget meter later
  restrained : Restrained task.budget meter 1 events

omit [Unicode] in
theorem capped_of {meter : UsageMeter} (hprices : ∀ guard ∈ task.budget, guard.pricing.Nonneg)
    {events : List (Event AgentPorts)} (hmetered : Metered meter events)
    (hspared : Spared task.budget meter 1 events) : Capped task meter events :=
  ⟨fun _ _ hlater _ hexceeded => hexceeded.stays hprices hlater, hspared hmetered⟩

theorem EndsWell.finishes {hits : List RawSearchHit} {steps : List StepDict}
    {events : List (Event AgentPorts)} {result : Except PyException (Option (List ResearchResult))}
    (h : EndsWell task hits steps events result) (hsmooth : Smooth task events)
    (hconcludes : Concludes task.jobId (outcomes events) result) :
    Finishes task hits steps events result := by
  obtain ⟨value, rfl, hwhole⟩ := h hsmooth
  generalize houtcomes : outcomes events = tried at hconcludes
  cases hconcludes with
  | delivered results =>
      obtain ⟨hfinishes, hcollects⟩ := hwhole results rfl
      exact .delivered results houtcomes hfinishes hcollects
  | asked question => exact .paused question houtcomes

-- The spend cap, in both orchestrators and on any thread that earlier tasks left.
-- A run that no port fails, and whose answers can all be used, pauses or finishes.
theorem spend_capped (task : AgentTask) (limit : Nat) {checkpoint : Option Checkpoint}
    (hreached : Reached task.maxSteps checkpoint) (resumeAnswer : Option String) {meter : UsageMeter}
    (hprices : ∀ guard ∈ task.budget, guard.pricing.Nonneg) {oracle : Oracle AgentPorts}
    (hmeter : ∀ past, oracle past .snapshot = meter.usage past) :
    let loop := (runAgentResearch task).execute oracle
    let graph := (runAgentGraph task limit checkpoint resumeAnswer).execute oracle
    (Capped task meter loop.2 ∧
        (NoneFails loop.2 → AllAccepted task loop.2 → Finishes task [] [] loop.2 loop.1)) ∧
      Capped task meter graph.2 ∧
        (NoneFails graph.2 → AllAccepted task graph.2 →
          (∀ invocation, graph.1.invocation = some invocation → invocation.ending ≠ .outOfSteps) →
            Finishes task (taskHits checkpoint resumeAnswer) (taskSteps checkpoint resumeAnswer)
              graph.2 graph.1.result) := by
  intro loop graph
  obtain ⟨-, hloop, hgraph⟩ :=
    one_outcome task.jobId task.goal none false task limit checkpoint resumeAnswer oracle
  refine ⟨⟨?_, fun hnone haccepted => ?_⟩, ?_, fun hnone haccepted hlimit => ?_⟩
  · have hends := @runAgentResearch_spares _ task meter hprices
    exact capped_of hprices (metered_oracle hmeter _) (hends.execute oracle)
  · have hends := reportingFailure_endsWell (@agentResearch_endsWell _ task)
    exact EndsWell.finishes (hends.execute oracle) ⟨hnone, haccepted⟩ hloop.concludes
  · have hends := @runAgentGraph_spares _ task meter hprices limit checkpoint resumeAnswer
    exact capped_of hprices (metered_oracle hmeter _) (hends.execute oracle)
  · have hends := @runAgentGraph_endsWell _ task limit checkpoint resumeAnswer hreached.sound
      hreached.tracks hreached.ready
    exact EndsWell.finishes ((hends.execute oracle).2 hlimit) ⟨hnone, haccepted⟩ hgraph.concludes

end

-- Prices, a cap that the first call of the policy exceeds, and a meter.
def Sample.cappedTask : AgentTask :=
  { task with budget := some { pricing := ⟨3, 15, 1 / 125⟩, capUsd := 1 / 100 } }

def Sample.meter : UsageMeter where
  records
    | _, ⟨.decide _ _ _, _⟩ | _, ⟨.critique _ _, _⟩ => [.llm 5000 1000]
    | _, ⟨.search _, _⟩ => [.search]
    | _, _ => []
  reads _ _ := rfl

def Sample.metered (found : List RawSearchHit) : Oracle AgentPorts
  | past, .snapshot => meter.usage past
  | past, request => answers found past request

-- A port out of range, in the answer to the one search that is still made.
theorem spend_uncapped :
    letI := Sample.unicode
    let oracle := Sample.metered [Sample.hit "https://ex.com:99999/a"]
    let loop := (runAgentResearch Sample.cappedTask).execute oracle
    let graph := (runAgentGraph Sample.cappedTask 25 none none).execute oracle
    (NoneFails loop.2 ∧ Exceeded Sample.cappedTask.budget Sample.meter loop.2 ∧
        ¬ Finishes Sample.cappedTask [] [] loop.2 loop.1) ∧
      NoneFails graph.2 ∧ Exceeded Sample.cappedTask.budget Sample.meter graph.2 ∧
        ¬ Finishes Sample.cappedTask [] [] graph.2 graph.1.result := by
  let := Sample.unicode
  have hraised : ∀ events (result : Except PyException (Option (List ResearchResult))),
      result.isOk = false → ¬ Finishes Sample.cappedTask [] [] events result := by
    intro events result hresult hfinishes
    cases hfinishes with
    | paused => cases hresult
    | delivered => cases hresult
  exact ⟨⟨by decide +kernel, ⟨_, rfl, by decide +kernel⟩, hraised _ _ (by decide +kernel)⟩,
    by decide +kernel, ⟨_, rfl, by decide +kernel⟩, hraised _ _ (by decide +kernel)⟩

theorem spend_capped_sample :
    letI := Sample.unicode
    let oracle := Sample.metered [Sample.hit "https://ex.com/a", Sample.hit "https://ex.com/b"]
    let loop := (runAgentResearch Sample.cappedTask).execute oracle
    let graph := (runAgentGraph Sample.cappedTask 25 none none).execute oracle
    (Capped Sample.cappedTask Sample.meter loop.2 ∧
        Exceeded Sample.cappedTask.budget Sample.meter loop.2 ∧
        Finishes Sample.cappedTask [] [] loop.2 loop.1) ∧
      Capped Sample.cappedTask Sample.meter graph.2 ∧
        Finishes Sample.cappedTask [] [] graph.2 graph.1.result := by
  let := Sample.unicode
  have hprices : ∀ guard ∈ Sample.cappedTask.budget, guard.pricing.Nonneg := by
    intro guard hguard
    cases hguard
    exact ⟨by decide +kernel, by decide +kernel, by decide +kernel⟩
  have hcapped := @spend_capped Sample.unicode Sample.cappedTask 25 none .fresh none Sample.meter
    hprices (Sample.metered [Sample.hit "https://ex.com/a", Sample.hit "https://ex.com/b"])
    fun past => rfl
  obtain ⟨⟨hloop, hloopEnds⟩, hgraph, hgraphEnds⟩ := hcapped
  refine ⟨⟨hloop, ⟨_, rfl, by decide +kernel⟩, ?_⟩, hgraph, ?_⟩
  · exact hloopEnds (by decide +kernel) (by decide +kernel)
  · refine hgraphEnds (by decide +kernel) (by decide +kernel) fun invocation heq hending => ?_
    have hsound : ∀ c : Checkpoint, none = some c → c.Sound Sample.cappedTask :=
      fun c hnone => by cases hnone
    have hspends := @execute_spends Sample.unicode Sample.cappedTask 25 none none hsound
      (Sample.metered [Sample.hit "https://ex.com/a", Sample.hit "https://ex.com/b"])
    have hstopped := hspends.stopped invocation heq hending
    exact absurd hstopped (by decide)

end AgentBoilerplate.Agent
