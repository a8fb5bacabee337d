import AgentBoilerplate.Agent.Marks

namespace AgentBoilerplate.Agent

open Python Effects

-- What a run may spend, or has spent.
structure Spending where
  searches : Nat := 0
  decisions : Nat := 0
  critiques : Nat := 0
  questions : Nat := 0
  executions : Nat := 0

-- `whole` pays for `spent`, and then for `rest`.
structure Spending.Covers (whole spent rest : Spending) : Prop where
  searches : spent.searches + rest.searches ≤ whole.searches
  decisions : spent.decisions + rest.decisions ≤ whole.decisions
  critiques : spent.critiques + rest.critiques ≤ whole.critiques
  questions : spent.questions + rest.questions ≤ whole.questions
  executions : spent.executions + rest.executions ≤ whole.executions

@[simp] def Mark.isSearched : Mark → Bool
  | .searched _ => true
  | _ => false

@[simp] def Mark.isDecided : Mark → Bool
  | .decided => true
  | _ => false

@[simp] def Mark.isCritiqued : Mark → Bool
  | .critiqued _ => true
  | _ => false

@[simp] def Mark.isAsked : Mark → Bool
  | .asked => true
  | _ => false

-- The calls that a trace marks, and the nodes that ran.
@[simp] def spent (trace : List Mark) (executions : Nat) : Spending where
  searches := trace.countP Mark.isSearched
  decisions := trace.countP Mark.isDecided
  critiques := trace.countP Mark.isCritiqued
  questions := trace.countP Mark.isAsked
  executions := executions

theorem Spending.Covers.trans {whole rest last : Spending} {trace trace' : List Mark}
    {executions executions' : Nat} (h : whole.Covers (spent trace executions) rest)
    (h' : rest.Covers (spent trace' executions') last) :
    whole.Covers (spent (trace ++ trace') (executions + executions')) last := by
  obtain ⟨h1, h2, h3, h4, h5⟩ := h
  obtain ⟨h1', h2', h3', h4', h5'⟩ := h'
  simp only [spent] at *
  constructor <;> simp only [List.countP_append] <;> omega

-- The same for calls that no node makes.
theorem Spending.Covers.calls {whole rest last : Spending} {trace trace' : List Mark}
    {executions : Nat} (h : whole.Covers (spent trace executions) rest)
    (h' : rest.Covers (spent trace' 0) last) :
    whole.Covers (spent (trace ++ trace') executions) last := h.trans h'

theorem Spending.Covers.stop {whole spent rest : Spending} (h : whole.Covers spent rest) :
    whole.Covers spent {} := by
  obtain ⟨h1, h2, h3, h4, h5⟩ := h
  constructor <;> dsimp only <;> omega

def GraphState.mayAsk (state : GraphState) : Nat :=
  if state.asked = false ∧ state.clarification = none then 1 else 0

def GraphState.searchesLeft (task : AgentTask) (state : GraphState) : Nat :=
  task.maxSteps - searchesDoneDict state.steps

@[simp] theorem searchesLeft_next (task : AgentTask) (state : GraphState) (next : Dict) :
    { state with next := next }.searchesLeft task = state.searchesLeft task := rfl

@[simp] theorem mayAsk_next (state : GraphState) (next : Dict) :
    { state with next := next }.mayAsk = state.mayAsk := rfl

-- What the rest of a thread may spend from a node that is due. A question costs
-- the node "ask" twice, to pause and to go on, and "decide" once more.
@[simp] def allowance (task : AgentTask) (state : GraphState) (answered : Bool) : Node → Spending
  | .decide => {
      searches := state.searchesLeft task
      decisions := state.searchesLeft task + state.mayAsk
      critiques := 1
      questions := state.mayAsk
      executions := 2 * state.searchesLeft task + 3 + 3 * state.mayAsk }
  | .search => {
      searches := state.searchesLeft task
      decisions := state.searchesLeft task - 1 + state.mayAsk
      critiques := 1
      questions := state.mayAsk
      executions := 2 * state.searchesLeft task + 2 + 3 * state.mayAsk }
  | .ask => {
      searches := state.searchesLeft task
      decisions := state.searchesLeft task
      critiques := 1
      questions := if answered then 0 else 1
      executions := 2 * state.searchesLeft task + (if answered then 4 else 5) }
  | .finalize => {
      searches := state.searchesLeft task
      critiques := 1
      executions := 2 }
  | .critique => {
      searches := state.searchesLeft task
      critiques := 1
      executions := 1 }

-- The decided action is the one that the due node carries out.
def Due (task : AgentTask) (state : GraphState) : Node → Prop
  | .decide | .critique => True
  | .search => 0 < state.searchesLeft task ∧
      ∃ query reason, state.next = actionToDict (.search query reason)
  | .ask => ∃ question reason, state.next = actionToDict (.ask question reason)
  | .finalize => ∃ reason, state.next = actionToDict (.finish reason)

section

variable [Unicode]

-- One node of the graph: it raises or pauses within its allowance, or leaves
-- enough of it to the node that is due next.
def StaysWithin (task : AgentTask) (whole : Spending) (node : Node) (answered : Bool)
    (trace : List Mark) : Except PyException (NodeResult GraphState String) → Prop
  | .error _ => whole.Covers (spent trace 1) {}
  | .ok (.interrupt _) => trace = [] ∧ node = .ask ∧ answered = false
  | .ok (.update state) => ∃ next, (buildGraph task).next node state = .ok next ∧
      match next with
      | none => whole.Covers (spent trace 1) {}
      | some node' => Due task state node' ∧
          whole.Covers (spent trace 1) (allowance task state false node')

-- What is left to spend, and the node that is due, after some nodes ran: a
-- paused thread can still ask its question and go on.
structure Leaves (task : AgentTask) (whole : Spending) (trace : List Mark) (count limit : Nat)
    (invocation : GraphInvocation) : Prop where
  covers : whole.Covers (spent trace count) {}
  due : ∀ node, invocation.due = some node → Due task invocation.state node
  stopped : invocation.ending = .outOfSteps → limit < whole.executions
  paused : ∀ question, invocation.ending = .interrupted question → invocation.due = some .ask ∧
    whole.Covers (spent trace count)
      { allowance task invocation.state true .ask with questions := 1 }

theorem next_decide (task : AgentTask) (state : GraphState) (action : AgentAction) :
    (buildGraph task).next .decide { state with next := actionToDict action } =
      .ok (some (match action with
        | .search _ _ => .search
        | .ask _ _ => .ask
        | .finish _ => .finalize)) := route_actionToDict state action

section Nodes

variable {task : AgentTask} {past : List (Event AgentPorts)} {state : GraphState} {answered : Bool}

omit [Unicode] in
theorem searchesLeft_record {state later : GraphState} {step : AgentStep}
    (h : later.steps = state.steps ++ [stepToDict step]) :
    later.searchesLeft task =
      state.searchesLeft task - if step.kind = .search then 1 else 0 := by
  have hdone : searchesDoneDict later.steps =
      searchesDoneDict state.steps + if step.kind = .search then 1 else 0 := by
    rw [h, searchesDoneDict, List.countP_append, searchesDoneDict]
    congr 1
    simp [stepToDict, AgentStepKind.value_eq_search]
  unfold GraphState.searchesLeft
  omega

theorem decide_staysWithin (state : GraphState) :
    (Node.runDecide task state).run.Ends (fun events result => ∃ trace,
      marks events = marks past ++ trace ∧
      StaysWithin task (allowance task state answered .decide) .decide answered trace result) past := by
  refine (runDecide_ends state).mono fun events result hresult => ?_
  obtain ⟨trace, hevents, hcases⟩ := hresult
  refine ⟨trace, hevents, ?_⟩
  cases hcases with
  | inl hfree =>
      obtain ⟨rfl, hfinish⟩ := hfree
      cases result with
      | error e => constructor <;> simp; omega
      | ok value =>
          obtain ⟨reason, rfl⟩ := hfinish value rfl
          refine ⟨_, next_decide task state _, ⟨reason, rfl⟩, ?_⟩
          constructor <;> simp
          omega
  | inr hdecided =>
      obtain ⟨rfl, hbudget, hupdate⟩ := hdecided
      have hleft : 0 < state.searchesLeft task := by
        unfold GraphState.searchesLeft
        omega
      cases result with
      | error e => constructor <;> simp <;> omega
      | ok value =>
          obtain ⟨action, hdecides, rfl⟩ := hupdate value rfl
          refine ⟨_, next_decide task state action, ?_⟩
          cases action with
          | search query reason =>
              refine ⟨⟨hleft, query, reason, rfl⟩, ?_⟩
              constructor <;> simp <;> omega
          | ask question reason =>
              obtain ⟨-, hasked, hclarification⟩ := hdecides.ask question reason rfl
              have hmay : state.mayAsk = 1 := if_pos ⟨hasked, hclarification⟩
              refine ⟨⟨question, reason, rfl⟩, ?_⟩
              constructor <;> simp [hmay] <;> omega
          | finish reason =>
              refine ⟨⟨reason, rfl⟩, ?_⟩
              constructor <;> simp <;> omega

theorem search_staysWithin (hdue : Due task state .search) :
    (Node.runSearch task state).run.Ends (fun events result => ∃ trace,
      marks events = marks past ++ trace ∧
      StaysWithin task (allowance task state answered .search) .search answered trace result) past := by
  obtain ⟨hleft, query, reason, hnext⟩ := hdue
  have hstate : state = { state with next := actionToDict (.search query reason) } := by
    rw [← hnext]
  rw [hstate]
  refine (runSearch_ends state query reason).mono fun events result hresult => ?_
  obtain ⟨trace, outcome, hevents, hsearches, rfl⟩ := hresult
  refine ⟨trace, hevents, ?_⟩
  cases hsearches with
  | failed => constructor <;> simp <;> omega
  | @found found new keys step hnew hkeys hseq hkind hcount =>
      have hdone : (state.searched new keys step).searchesLeft task =
          state.searchesLeft task - 1 := by
        rw [searchesLeft_record rfl, if_pos hkind]
      have hmay : (state.searched new keys step).mayAsk = state.mayAsk := rfl
      refine ⟨some .decide, rfl, trivial, ?_⟩
      constructor <;> simp [List.countP_cons, hdone, hmay] <;> omega

theorem ask_staysWithin (hdue : Due task state .ask) (resume : Option String) :
    (Node.runAsk resume state).run.Ends (fun events result => ∃ trace,
      marks events = marks past ++ trace ∧
      StaysWithin task (allowance task state resume.isSome .ask) .ask resume.isSome trace result)
      past := by
  obtain ⟨question, reason, hnext⟩ := hdue
  have hquestion : state.next.get "question" = .ok question := by
    rw [hnext]
    rfl
  unfold Node.runAsk
  rw [hquestion, Fallible.orRaise_ok_bind]
  cases resume with
  | none => exact ⟨[], (List.append_nil _).symm, rfl, rfl, rfl⟩
  | some answer =>
      have hmay : { state with clarification := some answer, asked := true }.mayAsk = 0 := rfl
      have hdone : { state with clarification := some answer, asked := true }.searchesLeft task =
          state.searchesLeft task := rfl
      refine ⟨[], (List.append_nil _).symm, some .decide, rfl, trivial, ?_⟩
      constructor <;> simp [hmay, hdone]
      omega

theorem finalize_staysWithin (hdue : Due task state .finalize) :
    (Node.runFinalize task state).run.Ends (fun events result => ∃ trace,
      marks events = marks past ++ trace ∧
      StaysWithin task (allowance task state answered .finalize) .finalize answered trace result)
      past := by
  obtain ⟨reason, hnext⟩ := hdue
  have hstate : state = { state with next := actionToDict (.finish reason) } := by
    rw [← hnext]
  rw [hstate]
  refine (runFinalize_ends state reason).mono fun events result hresult => ?_
  obtain ⟨step, hseq, hkind, hevents, rfl⟩ := hresult
  have hdone : { state with
      steps := state.steps ++ [stepToDict step]
      next := actionToDict (.finish reason) }.searchesLeft task = state.searchesLeft task := by
    rw [searchesLeft_record rfl, hkind]
    rfl
  refine ⟨_, hevents, _, rfl, ?_⟩
  by_cases hcritic : task.critic = true
  · rw [if_pos hcritic]
    refine ⟨trivial, ?_⟩
    constructor <;> simp [hdone]
  · rw [if_neg hcritic]
    constructor <;> simp

theorem critique_staysWithin (state : GraphState) :
    (Node.runCritique task state).run.Ends (fun events result => ∃ trace,
      marks events = marks past ++ trace ∧
      StaysWithin task (allowance task state answered .critique) .critique answered trace result)
      past := by
  refine (runCritique_ends state).mono fun events result hresult => ?_
  obtain ⟨trace, outcome, hevents, hreviews, rfl⟩ := hresult
  refine ⟨trace, hevents, ?_⟩
  cases hreviews with
  | skipped | reviewed =>
      refine ⟨none, rfl, ?_⟩
      constructor <;> simp [List.countP_cons]
  | failed => constructor <;> simp
  | repairFailed hrepairs =>
      constructor <;> simp [List.countP_cons, GraphState.searchesLeft]
      omega
  | repaired hrepairs =>
      refine ⟨none, rfl, ?_⟩
      constructor <;> simp [List.countP_cons, GraphState.searchesLeft]
      omega

theorem node_staysWithin (node : Node) (resume : Option String) (hdue : Due task state node) :
    ((buildGraph task).node node resume state).run.Ends (fun events result => ∃ trace,
      marks events = marks past ++ trace ∧
      StaysWithin task (allowance task state resume.isSome node) node resume.isSome trace result)
      past := by
  cases node with
  | decide => exact decide_staysWithin state
  | search => exact search_staysWithin hdue
  | ask => exact ask_staysWithin hdue resume
  | finalize => exact finalize_staysWithin hdue
  | critique => exact critique_staysWithin state

omit [Unicode] in
theorem Leaves.after {whole rest : Spending} {trace trace' : List Mark} {count limit : Nat}
    {invocation : GraphInvocation} (h : whole.Covers (spent trace 1) rest)
    (hrest : Leaves task rest trace' count limit invocation) :
    Leaves task whole (trace ++ trace') (1 + count) (limit + 1) invocation := by
  refine ⟨h.trans hrest.covers, hrest.due, fun hending => ?_, fun question hending => ?_⟩
  · have hlimit := hrest.stopped hending
    have hexecutions := h.executions
    simp only [spent] at hexecutions
    omega
  · obtain ⟨hdue, hcovers⟩ := hrest.paused question hending
    exact ⟨hdue, h.trans hcovers⟩

-- Every node that runs is paid for, by induction on the limit of the framework.
theorem invoke_leaves {node : Node} {resume : Option String} {limit : Nat}
    (executed : List Node) (hdue : Due task state node) :
    ((buildGraph task).invoke limit executed node resume state).Ends
      (fun events invocation => ∃ trace count, marks events = marks past ++ trace ∧
        invocation.executed.length = executed.length + count ∧
        Leaves task (allowance task state resume.isSome node) trace count limit invocation)
      past := by
  induction limit generalizing executed node resume state past with
  | zero =>
      refine ⟨[], 0, (List.append_nil _).symm, rfl, ?_, ?_, ?_, ?_⟩
      · constructor <;> simp
      · intro due heq
        cases heq
        exact hdue
      · intro _
        cases node <;> cases resume <;> simp
      · intro question hending
        cases hending
  | succ limit ih =>
      unfold StateGraph.invoke
      rw [Program.ends_bind]
      refine (node_staysWithin node resume hdue).mono fun events result hresult => ?_
      obtain ⟨trace, hevents, hwithin⟩ := hresult
      cases result with
      | error e =>
          refine ⟨trace, 1, hevents, by simp, hwithin, ?_, ?_, ?_⟩
          · intro due heq
            cases heq
            exact hdue
          · intro hending
            cases hending
          · intro question hending
            cases hending
      | ok value =>
          cases value with
          | interrupt question =>
              obtain ⟨rfl, rfl, hanswered⟩ := hwithin
              rw [hanswered]
              have hcovers : (allowance task state false .ask).Covers (spent [] 1)
                  { allowance task state true .ask with questions := 1 } := by
                constructor <;> simp
                omega
              refine ⟨[], 1, hevents, by simp, hcovers.stop, ?_, ?_, ?_⟩
              · intro due heq
                cases heq
                exact hdue
              · intro hending
                cases hending
              · intro _ _
                exact ⟨rfl, hcovers⟩
          | update state' =>
              obtain ⟨next, hnext, hwithin⟩ := hwithin
              dsimp only
              rw [hnext]
              cases next with
              | none =>
                  refine ⟨trace, 1, hevents, by simp, hwithin, ?_, ?_, ?_⟩
                  · intro due heq
                    cases heq
                  · intro hending
                    cases hending
                  · intro question hending
                    cases hending
              | some node' =>
                  refine (ih _ hwithin.1).mono fun later invocation hlater => ?_
                  obtain ⟨trace', count, hmarks, hcount, hleaves⟩ := hlater
                  refine ⟨trace ++ trace', 1 + count, ?_, ?_, .after hwithin.2 hleaves⟩
                  · rw [hmarks, hevents, List.append_assoc]
                  · rw [hcount, List.length_append, List.length_singleton, Nat.add_assoc]

end Nodes

def GraphRun.executed (run : GraphRun) : List Node :=
  match run.invocation with
  | none => []
  | some invocation => invocation.executed

-- The checkpoint that a paused task leaves.
def GraphRun.paused (run : GraphRun) : Option Checkpoint :=
  match run.invocation with
  | none => none
  | some invocation =>
      match invocation.ending with
      | .interrupted _ => some ⟨invocation.state, invocation.due⟩
      | _ => none

-- What a task may spend: the rest of the thread it resumes, or a fresh one.
def taskAllowance (task : AgentTask) (checkpoint : Option Checkpoint)
    (resumeAnswer : Option String) : Spending :=
  match resumeAnswer, checkpoint with
  | some _, some ⟨state, some due⟩ => allowance task state true due
  | some _, some ⟨_, none⟩ => {}
  | _, _ => allowance task (initialState task resumeAnswer) false .decide

def Checkpoint.Sound (task : AgentTask) (checkpoint : Checkpoint) : Prop :=
  ∀ node, checkpoint.due = some node → Due task checkpoint.state node

structure Spends (task : AgentTask) (whole : Spending) (trace : List Mark) (limit : Nat)
    (run : GraphRun) : Prop where
  covers : whole.Covers (spent trace run.executed.length) {}
  sound : ∀ invocation, run.invocation = some invocation →
    Checkpoint.Sound task ⟨invocation.state, invocation.due⟩
  stopped : ∀ invocation, run.invocation = some invocation → invocation.ending = .outOfSteps →
    limit < whole.executions
  paused : ∀ checkpoint, run.paused = some checkpoint → checkpoint.due = some .ask ∧
    whole.Covers (spent trace run.executed.length) (allowance task checkpoint.state true .ask)

omit [Unicode] in
theorem Spends.paused_sound {task : AgentTask} {whole : Spending} {trace : List Mark} {limit : Nat}
    {run : GraphRun} {checkpoint : Checkpoint} (h : Spends task whole trace limit run)
    (hpaused : run.paused = some checkpoint) : checkpoint.Sound task := by
  obtain ⟨invocation, result⟩ := run
  cases invocation with
  | none => cases hpaused
  | some invocation =>
      have hsound := h.sound invocation rfl
      unfold GraphRun.paused at hpaused
      cases hending : invocation.ending with
      | interrupted question =>
          simp only [hending, Option.some.injEq] at hpaused
          exact hpaused ▸ hsound
      | finished | raised | outOfSteps => simp [hending] at hpaused

section Tasks

variable {task : AgentTask} {past : List (Event AgentPorts)} {limit : Nat}
  {checkpoint : Option Checkpoint} {resumeAnswer : Option String}

theorem startGraph_leaves (hsound : ∀ c, checkpoint = some c → c.Sound task) :
    (startGraph task limit checkpoint resumeAnswer).Ends
      (fun events invocation => ∃ trace, marks events = marks past ++ trace ∧
        Leaves task (taskAllowance task checkpoint resumeAnswer) trace invocation.executed.length
          limit invocation) past := by
  have hinvoke : ∀ (node : Node) (resume : Option String) (state : GraphState),
      Due task state node →
      ((buildGraph task).invoke limit [] node resume state).Ends
        (fun events invocation => ∃ trace, marks events = marks past ++ trace ∧
          Leaves task (allowance task state resume.isSome node) trace invocation.executed.length
            limit invocation) past := by
    intro node resume state hdue
    refine (invoke_leaves [] hdue).mono fun events invocation h => ?_
    obtain ⟨trace, count, hevents, hcount, hleaves⟩ := h
    rw [List.length_nil, Nat.zero_add] at hcount
    rw [hcount]
    exact ⟨trace, hevents, hleaves⟩
  have hfresh := hinvoke .decide none (initialState task resumeAnswer) trivial
  unfold startGraph taskAllowance
  cases resumeAnswer with
  | none => exact hfresh
  | some answer =>
      cases checkpoint with
      | none => exact hfresh
      | some checkpoint =>
          obtain ⟨state, due⟩ := checkpoint
          cases due with
          | some due => exact hinvoke due (some answer) state (hsound _ rfl due rfl)
          | none =>
              refine ⟨[], (List.append_nil _).symm, ?_, ?_, ?_, ?_⟩
              · constructor <;> simp
              · intro node heq
                cases heq
              · intro hending
                cases hending
              · intro question hending
                cases hending

omit [Unicode] in
-- A paused run still has its question to ask; a delivery spends nothing.
theorem settled_spends {whole : Spending} {trace : List Mark} {invocation : GraphInvocation}
    {events settled : List (Event AgentPorts)}
    (h : Leaves task whole trace invocation.executed.length limit invocation)
    (hsettled : marks settled = marks events ∨
      (∃ step : AgentStep, step.seq = invocation.state.steps.length + 1 ∧ step.kind = .report ∧
        invocation.ending = .finished ∧ marks settled = marks events ++ [.recorded step]) ∨
      (∃ question, invocation.ending = .interrupted question) ∧
        marks settled = marks events ++ [.asked])
    (result : Except PyException (Option (List ResearchResult))) :
    ∃ trace', marks settled = marks events ++ trace' ∧
      Spends task whole (trace ++ trace') limit ⟨some invocation, result⟩ := by
  have hsound : ∀ other, some invocation = some other →
      Checkpoint.Sound task ⟨other.state, other.due⟩ := by
    intro other heq
    cases heq
    exact h.due
  have hstopped : ∀ other, some invocation = some other → other.ending = .outOfSteps →
      limit < whole.executions := by
    intro other heq
    cases heq
    exact h.stopped
  have hpaused : ∀ checkpoint : Checkpoint,
      GraphRun.paused ⟨some invocation, result⟩ = some checkpoint →
        ∃ question, invocation.ending = .interrupted question ∧
          checkpoint = ⟨invocation.state, invocation.due⟩ := by
    intro checkpoint heq
    unfold GraphRun.paused at heq
    cases hending : invocation.ending with
    | interrupted question =>
        simp only [hending, Option.some.injEq] at heq
        exact ⟨question, rfl, heq.symm⟩
    | finished | raised | outOfSteps => simp [hending] at heq
  -- the calls that follow are free, but for the question of a paused run
  have hfree : ∀ trace', trace'.countP Mark.isSearched = 0 → trace'.countP Mark.isDecided = 0 →
      trace'.countP Mark.isCritiqued = 0 → trace'.countP Mark.isAsked ≤ 1 →
      ((∃ question, invocation.ending = .interrupted question) ∨
        trace'.countP Mark.isAsked = 0) →
      Spends task whole (trace ++ trace') limit ⟨some invocation, result⟩ := by
    intro trace' hsearched hdecided hcritiqued hasked hcases
    have hcarried : ∀ question, invocation.ending = .interrupted question →
        invocation.due = some .ask ∧
          whole.Covers (spent (trace ++ trace') invocation.executed.length)
            (allowance task invocation.state true .ask) := by
      intro question hending
      obtain ⟨hdue, hcovers⟩ := h.paused question hending
      refine ⟨hdue, hcovers.calls ?_⟩
      constructor <;> simp [hsearched, hdecided, hcritiqued, hasked]
    refine ⟨?_, hsound, hstopped, ?_⟩
    · cases hcases with
      | inl hinterrupted =>
          obtain ⟨question, hending⟩ := hinterrupted
          exact (hcarried question hending).2.stop
      | inr hquiet =>
          refine h.covers.calls ?_
          constructor <;> simp [hsearched, hdecided, hcritiqued, hquiet]
    · intro checkpoint heq
      obtain ⟨question, hending, rfl⟩ := hpaused checkpoint heq
      exact hcarried question hending
  rcases hsettled with hsame | ⟨step, -, -, -, hreported⟩ | ⟨hinterrupted, hasked⟩
  · refine ⟨[], by rw [hsame, List.append_nil], hfree [] rfl rfl rfl ?_ (Or.inr rfl)⟩
    exact Nat.zero_le 1
  · exact ⟨_, hreported, hfree _ rfl rfl rfl (Nat.zero_le 1) (Or.inr rfl)⟩
  · exact ⟨_, hasked, hfree _ rfl rfl rfl (Nat.le_refl 1) (Or.inl hinterrupted)⟩

theorem runAgentGraph_spends (hsound : ∀ c, checkpoint = some c → c.Sound task) :
    (runAgentGraph task limit checkpoint resumeAnswer).Ends
      (fun events run => ∃ trace, marks events = marks past ++ trace ∧
        Spends task (taskAllowance task checkpoint resumeAnswer) trace limit run) past := by
  have hstarted : ∀ answer, marks (past ++ [⟨.markStarted task.jobId, answer⟩]) = marks past :=
    fun answer => marks_unmarked past rfl
  unfold runAgentGraph
  intro answer
  cases answer with
  | error e =>
      intro reported
      refine ⟨[], ?_, ?_, ?_, ?_, ?_⟩
      · rw [marks_unmarked _ rfl, hstarted, List.append_nil]
      · constructor <;> simp [GraphRun.executed]
      · intro invocation heq
        cases heq
      · intro invocation heq
        cases heq
      · intro checkpoint heq
        cases heq
  | ok _ =>
      change (startGraph task limit checkpoint resumeAnswer >>= _).Ends _ _
      rw [Program.ends_bind]
      refine (startGraph_leaves hsound).mono fun events invocation h => ?_
      obtain ⟨trace, hevents, hleaves⟩ := h
      rw [hstarted] at hevents
      unfold reportingFailure
      rw [bind_assoc, Program.ends_bind]
      refine (settle_ends task limit invocation).mono fun settled result hsettled => ?_
      rw [Program.ends_bind]
      refine (reportResult_ends task.jobId result).mono fun last value hlast => ?_
      obtain ⟨trace', hmarks, hspends⟩ := settled_spends hleaves hsettled value
      rw [← hlast.2, hevents, List.append_assoc] at hmarks
      exact ⟨_, hmarks, hspends⟩

theorem execute_spends (hsound : ∀ c, checkpoint = some c → c.Sound task)
    (oracle : Oracle AgentPorts) :
    let run := (runAgentGraph task limit checkpoint resumeAnswer).execute oracle
    Spends task (taskAllowance task checkpoint resumeAnswer) (marks run.2) limit run.1 := by
  have hends : (runAgentGraph task limit checkpoint resumeAnswer).Ends _ [] :=
    runAgentGraph_spends hsound
  obtain ⟨trace, hmarks, hspends⟩ := hends.execute oracle
  change marks _ = [] ++ trace at hmarks
  rw [List.nil_append] at hmarks
  rw [← hmarks] at hspends
  exact hspends

end Tasks

-- What the loop may spend over some turns and the review.
def loopAllowance (turns : Nat) : Spending where
  searches := turns
  decisions := turns
  critiques := 1
  questions := 1

def LoopLeaves (task : AgentTask) (whole : Spending) (trace : List Mark) :
    Except PyException (Option LoopState) → Prop
  | .ok (some loop) => Numbered loop.steps ∧ whole.Covers (spent trace 0)
      { searches := task.maxSteps - searchesDone loop.steps, critiques := 1 }
  | _ => whole.Covers (spent trace 0) {}

section Loop

variable {task : AgentTask} {past : List (Event AgentPorts)}

omit [Unicode] in
theorem searchesDone_append (steps : List AgentStep) (step : AgentStep) :
    searchesDone (steps ++ [step]) = searchesDone steps + if step.kind = .search then 1 else 0 := by
  rw [searchesDone, List.countP_append, searchesDone]
  congr 1
  simp

omit [Unicode] in
theorem LoopLeaves.after {whole rest : Spending} {trace trace' : List Mark}
    {result : Except PyException (Option LoopState)} (h : whole.Covers (spent trace 0) rest)
    (hrest : LoopLeaves task rest trace' result) :
    LoopLeaves task whole (trace ++ trace') result := by
  match result with
  | .ok (some loop) => exact ⟨hrest.1, h.calls hrest.2⟩
  | .ok none | .error e => exact h.calls hrest

omit [Unicode] in
-- A turn that ends the loop with a step that is no search.
theorem finish_leaves {whole : Spending} {loop : LoopState} (hnumbered : Numbered loop.steps)
    (hsearches : task.maxSteps - searchesDone loop.steps ≤ whole.searches)
    (hcritiques : 1 ≤ whole.critiques) {step : AgentStep}
    (hseq : step.seq = loop.steps.length + 1) (hkind : step.kind = .finish) :
    LoopLeaves task whole [.recorded step]
      (.ok (some { loop with steps := loop.steps ++ [step] })) := by
  have hdone : searchesDone (loop.steps ++ [step]) = searchesDone loop.steps := by
    rw [searchesDone_append, if_neg (by simp [hkind])]
    rfl
  refine ⟨hnumbered.append hseq, ?_⟩
  constructor <;> simp [hdone] <;> omega

theorem decisionLoop_leaves (turns : Nat) (loop : LoopState) (hnumbered : Numbered loop.steps)
    (hsearches : searchesDone loop.steps = loop.steps.length)
    (hturns : loop.steps.length + turns = task.maxSteps) :
    (decisionLoop task (List.range' (loop.steps.length + 1) turns) loop).run.Ends
      (fun events result => ∃ trace, marks events = marks past ++ trace ∧
        LoopLeaves task (loopAllowance turns) trace result) past := by
  induction turns generalizing loop past with
  | zero =>
      refine loopRecord_ends_bind task _ _ fun events hevents => ⟨_, hevents, ?_⟩
      refine finish_leaves hnumbered ?_ ?_ ?_ rfl
      · rw [hsearches, ← hturns]
        simp [loopAllowance]
      · simp [loopAllowance]
      · dsimp only
        omega
  | succ turns ih =>
      rw [List.range'_succ, decisionLoop_cons, ExceptT.run_bind, Program.ends_bind]
      refine (chooseAction_ends loop).mono fun events result hevents => ?_
      have hchosen : ∃ trace, marks events = marks past ++ trace ∧
          (loopAllowance (turns + 1)).Covers (spent trace 0)
            { loopAllowance turns with searches := turns + 1 } := by
        rcases hevents with hfree | hdecided
        · refine ⟨[], by rw [hfree, List.append_nil], ?_⟩
          constructor <;> simp [loopAllowance]
        · refine ⟨_, hdecided, ?_⟩
          constructor <;> simp [loopAllowance]
          omega
      obtain ⟨trace, htrace, hcovers⟩ := hchosen
      cases result with
      | error e => exact ⟨trace, htrace, hcovers.stop⟩
      | ok action =>
          cases action with
          | ask question reason =>
              dsimp only
              rw [Fallible.run_raising_bind]
              intro answer
              have hmark : mark ⟨.requestClarification task.jobId question, answer⟩ =
                some .asked := rfl
              have hasked := marks_marked events hmark
              rw [htrace, List.append_assoc] at hasked
              have hquestion : (loopAllowance (turns + 1)).Covers (spent (trace ++ [.asked]) 0) {} := by
                refine hcovers.calls ?_
                constructor <;> simp [loopAllowance]
              cases answer <;> exact ⟨_, hasked, hquestion⟩
          | finish reason =>
              refine loopRecord_ends_bind task _ _ fun later hlater => ?_
              rw [htrace, List.append_assoc] at hlater
              refine ⟨_, hlater, LoopLeaves.after hcovers (finish_leaves hnumbered ?_ ?_ rfl rfl)⟩
              · rw [hsearches, ← hturns]
                simp
              · simp [loopAllowance]
          | search query reason =>
              dsimp only
              rw [ExceptT.run_bind, Program.ends_bind]
              refine (searchStep_ends loop query reason).mono fun later result hresult => ?_
              obtain ⟨found, outcome, hlater, hsearched, rfl⟩ := hresult
              rw [htrace, List.append_assoc] at hlater
              cases hsearched with
              | failed =>
                  refine ⟨_, hlater, hcovers.calls ?_⟩
                  constructor <;> simp [loopAllowance]
              | @found found new keys step hnew hkeys hseq hkind hcount =>
                  have hlength : (loop.searched new keys step).steps.length =
                      loop.steps.length + 1 := List.length_append
                  have hdone : searchesDone (loop.searched new keys step).steps =
                      (loop.searched new keys step).steps.length := by
                    rw [hlength, LoopState.searched, searchesDone_append, if_pos hkind, hsearches]
                  have hrest := @ih later (loop.searched new keys step) (hnumbered.append hseq) hdone
                    (by omega)
                  rw [hlength] at hrest
                  refine hrest.mono fun last result hlast => ?_
                  obtain ⟨trace', hmarks, hleaves⟩ := hlast
                  rw [hlater, List.append_assoc, List.append_assoc] at hmarks
                  refine ⟨_, hmarks, LoopLeaves.after hcovers (LoopLeaves.after ?_ hleaves)⟩
                  constructor <;> simp [List.countP_cons, loopAllowance]
                  omega

theorem conclude_spends (loop : LoopState) (hnumbered : Numbered loop.steps) :
    (conclude task loop).run.Ends (fun events _ => ∃ trace, marks events = marks past ++ trace ∧
      Spending.Covers { searches := task.maxSteps - searchesDone loop.steps, critiques := 1 }
        (spent trace 0) {}) past := by
  unfold conclude
  rw [ExceptT.run_bind, Program.ends_bind]
  refine (review_ends loop hnumbered).mono fun events result hresult => ?_
  obtain ⟨trace, outcome, hevents, hreviews, rfl⟩ := hresult
  have hcovers : Spending.Covers
      { searches := task.maxSteps - searchesDone loop.steps, critiques := 1 } (spent trace 0) {} := by
    cases hreviews with
    | repairFailed | repaired =>
        constructor <;> simp [List.countP_cons]
        omega
    | skipped | failed | reviewed => constructor <;> simp [List.countP_cons]
  cases outcome with
  | error e => exact ⟨trace, hevents, hcovers⟩
  | ok done =>
      dsimp only [Except.map]
      rw [map_eq_pure_bind, ExceptT.run_bind, Program.ends_bind]
      refine (deliver_ends task _ _).mono fun later result hlater => ?_
      have hreported : ∃ trace, marks later = marks past ++ trace ∧ Spending.Covers
          { searches := task.maxSteps - searchesDone loop.steps, critiques := 1 }
          (spent trace 0) {} := by
        rcases hlater with hsame | ⟨step, -, -, hreport⟩
        · exact ⟨trace, hsame.trans hevents, hcovers⟩
        · rw [hevents, List.append_assoc] at hreport
          refine ⟨_, hreport, hcovers.calls ?_⟩
          constructor <;> simp
      cases result <;> exact hreported

theorem runAgentResearch_spends :
    (runAgentResearch task).Ends (fun events _ => ∃ trace, marks events = marks past ++ trace ∧
      (loopAllowance task.maxSteps).Covers (spent trace 0) {}) past := by
  unfold runAgentResearch reportingFailure
  rw [Program.ends_bind]
  have hrun : (agentResearch task).run.Ends (fun events _ => ∃ trace,
      marks events = marks past ++ trace ∧
      (loopAllowance task.maxSteps).Covers (spent trace 0) {}) past := by
    unfold agentResearch
    have hstarted : Silent (raising (ask (.markStarted task.jobId))) := silent_call fun _ => rfl
    refine silent_ends_bind hstarted ?_ fun _ events hevents => ?_
    · intro e events hevents
      refine ⟨[], by rw [hevents, List.append_nil], ?_⟩
      constructor <;> simp
    · rw [ExceptT.run_bind, Program.ends_bind]
      have hloop := @decisionLoop_leaves _ task events task.maxSteps ⟨[], [], []⟩ rfl rfl
        (Nat.zero_add _)
      refine hloop.mono fun later result hresult => ?_
      obtain ⟨trace, hlater, hleaves⟩ := hresult
      rw [hevents] at hlater
      match result with
      | .error e => exact ⟨trace, hlater, hleaves⟩
      | .ok none => exact ⟨trace, hlater, hleaves⟩
      | .ok (some loop) =>
          refine (conclude_spends loop hleaves.1).mono fun last result hlast => ?_
          obtain ⟨trace', hmarks, hcovers⟩ := hlast
          rw [hlater, List.append_assoc] at hmarks
          exact ⟨_, hmarks, hleaves.2.calls hcovers⟩
  refine hrun.mono fun events result hevents => ?_
  obtain ⟨trace, hmarks, hcovers⟩ := hevents
  refine (reportResult_ends task.jobId result).mono fun later value hlater => ?_
  exact ⟨trace, hlater.2.trans hmarks, hcovers⟩

end Loop

-- The checkpoints that tasks leave on a thread, however each of them ended.
inductive Reached (maxSteps : Nat) : Option Checkpoint → Prop
  | fresh : Reached maxSteps none
  | left {task : AgentTask} {limit : Nat} {checkpoint : Option Checkpoint}
      {resumeAnswer : Option String} {oracle : Oracle AgentPorts} {invocation : GraphInvocation}
      (h : Reached maxSteps checkpoint) (hsteps : task.maxSteps = maxSteps)
      (hrun : ((runAgentGraph task limit checkpoint resumeAnswer).execute oracle).1.invocation =
        some invocation) : Reached maxSteps (some ⟨invocation.state, invocation.due⟩)

omit [Unicode] in
theorem Due.congr {task task' : AgentTask} (h : task.maxSteps = task'.maxSteps)
    {state : GraphState} {node : Node} (hdue : Due task state node) : Due task' state node := by
  cases node with
  | search =>
      obtain ⟨hleft, hnext⟩ := hdue
      unfold GraphState.searchesLeft at hleft
      rw [h] at hleft
      exact ⟨hleft, hnext⟩
  | decide | ask | finalize | critique => exact hdue

theorem Reached.sound {task : AgentTask} {checkpoint : Option Checkpoint}
    (h : Reached task.maxSteps checkpoint) (c : Checkpoint) (heq : checkpoint = some c) :
    c.Sound task := by
  generalize hsteps : task.maxSteps = maxSteps at h
  induction h generalizing c task with
  | fresh => cases heq
  | @left task' limit checkpoint resumeAnswer oracle invocation h hsteps' hrun ih =>
      cases heq
      have hspends : Spends task' (taskAllowance task' checkpoint resumeAnswer) _ limit _ :=
        execute_spends (fun c heq => ih c heq hsteps') oracle
      intro node hnode
      exact (hspends.sound invocation hrun node hnode).congr (hsteps'.trans hsteps.symm)

-- The tasks of one job on a thread: the first, and one that resumes its pause.
def graphJob (task : AgentTask) (limit resumedLimit : Nat) (resumeAnswer : Option String)
    (answer : String) (seenUrls : Option (List String)) (oracle resumedOracle : Oracle AgentPorts) :
    List Node × List (Event AgentPorts) :=
  let first := (runAgentGraph task limit none resumeAnswer).execute oracle
  match first.1.paused with
  | none => (first.1.executed, first.2)
  | some checkpoint =>
      let resumed := (runAgentGraph { task with seenUrls := seenUrls } resumedLimit
        (some checkpoint) (some answer)).execute resumedOracle
      (first.1.executed ++ resumed.1.executed, first.2 ++ resumed.2)

def callCount (call : Mark → Bool) (events : List (Event AgentPorts)) : Nat :=
  (marks events).countP call

omit [Unicode] in
theorem taskAllowance_le (task : AgentTask) (checkpoint : Option Checkpoint)
    (resumeAnswer : Option String) :
    (taskAllowance task checkpoint resumeAnswer).searches ≤ task.maxSteps ∧
      (taskAllowance task checkpoint resumeAnswer).decisions ≤ task.maxSteps + 1 ∧
      (taskAllowance task checkpoint resumeAnswer).critiques ≤ 1 ∧
      (taskAllowance task checkpoint resumeAnswer).questions ≤ 1 ∧
      (taskAllowance task checkpoint resumeAnswer).executions ≤ 2 * task.maxSteps + 6 := by
  have hdue : ∀ (state : GraphState) (answered : Bool) (node : Node), answered = true ∨ node ≠ .ask →
      (allowance task state answered node).searches ≤ task.maxSteps ∧
        (allowance task state answered node).decisions ≤ task.maxSteps + 1 ∧
        (allowance task state answered node).critiques ≤ 1 ∧
        (allowance task state answered node).questions ≤ 1 ∧
        (allowance task state answered node).executions ≤ 2 * task.maxSteps + 6 := by
    intro state answered node hanswered
    have hleft : state.searchesLeft task ≤ task.maxSteps := Nat.sub_le _ _
    have hmay : state.mayAsk ≤ 1 := by
      unfold GraphState.mayAsk
      split <;> omega
    cases node with
    | ask =>
        have htrue : answered = true := hanswered.resolve_right fun h => h rfl
        simp only [allowance, htrue, if_true]
        omega
    | decide | search | finalize | critique =>
        simp only [allowance]
        omega
  have hfresh := hdue (initialState task resumeAnswer) false .decide (Or.inr (by simp))
  unfold taskAllowance
  split
  · exact hdue _ true _ (Or.inl rfl)
  · simp
  · exact hfresh

theorem graphJob_spends (task : AgentTask) (limit resumedLimit : Nat)
    (resumeAnswer : Option String) (answer : String) (seenUrls : Option (List String))
    (oracle resumedOracle : Oracle AgentPorts) :
    let job := graphJob task limit resumedLimit resumeAnswer answer seenUrls oracle resumedOracle
    (taskAllowance task none resumeAnswer).Covers (spent (marks job.2) job.1.length) {} := by
  have hfresh : ∀ c : Checkpoint, none = some c → c.Sound task := fun c heq => by cases heq
  have hspends : Spends task (taskAllowance task none resumeAnswer) _ limit _ :=
    execute_spends hfresh oracle
  unfold graphJob
  dsimp only
  cases hpaused : ((runAgentGraph task limit none resumeAnswer).execute oracle).1.paused with
  | none => exact hspends.covers
  | some checkpoint =>
      have hsound := hspends.paused_sound hpaused
      obtain ⟨hdue, hcovers⟩ := hspends.paused checkpoint hpaused
      obtain ⟨state, due⟩ := checkpoint
      dsimp only at hdue
      subst hdue
      have hresumed : ∀ c : Checkpoint, some ⟨state, some .ask⟩ = some c →
          c.Sound { task with seenUrls := seenUrls } := by
        intro c heq
        cases heq
        intro node hnode
        exact (hsound node hnode).congr rfl
      have hspends' : Spends _ (taskAllowance _ _ (some answer)) _ resumedLimit _ :=
        execute_spends hresumed resumedOracle
      dsimp only
      rw [marks_append, List.length_append]
      exact hcovers.trans hspends'.covers

-- The calls of a task, and of all tasks of a job, stay within the step budget,
-- whatever the policy, the critic, the user and the providers answer.
theorem budgets (task : AgentTask) {checkpoint : Option Checkpoint}
    (hreached : Reached task.maxSteps checkpoint) (limit resumedLimit : Nat)
    (resumeAnswer : Option String) (answer : String) (seenUrls : Option (List String))
    (oracle resumedOracle : Oracle AgentPorts) :
    let loop := (runAgentResearch task).execute oracle
    let graph := (runAgentGraph task limit checkpoint resumeAnswer).execute oracle
    let job := graphJob task limit resumedLimit resumeAnswer answer seenUrls oracle resumedOracle
    (callCount Mark.isSearched loop.2 ≤ task.maxSteps ∧ callCount Mark.isCritiqued loop.2 ≤ 1 ∧
        callCount Mark.isDecided loop.2 ≤ task.maxSteps) ∧
      (callCount Mark.isSearched graph.2 ≤ task.maxSteps ∧
        callCount Mark.isCritiqued graph.2 ≤ 1 ∧
        (2 * task.maxSteps + 6 ≤ limit → ∀ invocation, graph.1.invocation = some invocation →
          invocation.ending ≠ .outOfSteps)) ∧
      callCount Mark.isSearched job.2 ≤ task.maxSteps ∧
      callCount Mark.isDecided job.2 ≤ task.maxSteps + 1 ∧
      callCount Mark.isAsked job.2 ≤ 1 ∧ job.1.length ≤ 2 * task.maxSteps + 6 := by
  intro loop graph job
  refine ⟨?_, ?_, ?_⟩
  · have hends : (runAgentResearch task).Ends _ [] := runAgentResearch_spends
    obtain ⟨trace, hmarks, hcovers⟩ := hends.execute oracle
    have hcount : ∀ call, callCount call loop.2 = trace.countP call :=
      fun call => congrArg (List.countP call) hmarks
    rw [hcount, hcount, hcount]
    exact ⟨hcovers.searches, hcovers.critiques, hcovers.decisions⟩
  · have hspends : Spends task (taskAllowance task checkpoint resumeAnswer) _ limit _ :=
      execute_spends hreached.sound oracle
    obtain ⟨hsearches, -, hcritiques, -, hexecutions⟩ :=
      taskAllowance_le task checkpoint resumeAnswer
    refine ⟨hspends.covers.searches.trans hsearches, hspends.covers.critiques.trans hcritiques, ?_⟩
    intro hlimit invocation hinvocation hending
    have hstopped := hspends.stopped invocation hinvocation hending
    omega
  · obtain ⟨hsearches, hdecisions, -, hquestions, hexecutions⟩ :=
      taskAllowance_le task none resumeAnswer
    have hcovers := graphJob_spends task limit resumedLimit resumeAnswer answer seenUrls oracle
      resumedOracle
    exact ⟨hcovers.searches.trans hsearches, hcovers.decisions.trans hdecisions,
      hcovers.questions.trans hquestions, hcovers.executions.trans hexecutions⟩

end

-- A policy that asks before its first search.
def Sample.asking : Oracle AgentPorts
  | past, .decide goal steps hits =>
      if goal = Sample.task.goal then .ok (.ask "4.0 or later?" "ambiguous")
      else Sample.oracle past (.decide goal steps hits)
  | past, request => Sample.oracle past request

-- A pause, its answer, one search and a review.
theorem budgets_asked :
    letI := Sample.unicode
    let job := graphJob Sample.task 25 25 none "4.0" none Sample.asking Sample.asking
    job.1.length = 8 ∧ callCount Mark.isAsked job.2 = 1 ∧
      callCount Mark.isSearched job.2 ≤ 2 ∧ callCount Mark.isDecided job.2 ≤ 3 := by
  have hbudgets := @budgets Sample.unicode Sample.task none (@Reached.fresh Sample.unicode 2) 25 25
    none "4.0" none Sample.asking Sample.asking
  exact ⟨by decide +kernel, by decide +kernel, hbudgets.2.2.1, hbudgets.2.2.2.1⟩

end AgentBoilerplate.Agent
