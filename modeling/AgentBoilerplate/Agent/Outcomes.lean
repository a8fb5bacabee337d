import AgentBoilerplate.Agent.Parity
import AgentBoilerplate.Effects.Discipline

namespace AgentBoilerplate.Agent

open Python Effects Fallible

-- The calls that decide how an attempt ends, with their answers.
inductive Outcome where
  | delivered (jobId : String) (results : List ResearchResult) (answer : Except PyException Unit)
  | asked (jobId question : String) (answer : Except PyException Unit)
  | failed (jobId error : String) (answer : Except PyException Unit)

def outcome : Event AgentPorts → Option Outcome
  | ⟨.deliver jobId results, answer⟩ => some (.delivered jobId results answer)
  | ⟨.requestClarification jobId question, answer⟩ => some (.asked jobId question answer)
  | ⟨.reportFailure jobId error, answer⟩ => some (.failed jobId error answer)
  | _ => none

def outcomes (events : List (Event AgentPorts)) : List Outcome := events.filterMap outcome

def isDelivery : AgentCall → Prop
  | .deliver _ _ => True
  | _ => False

def isOutcome : AgentCall → Prop
  | .deliver _ _ | .requestClarification _ _ | .reportFailure _ _ => True
  | _ => False

-- The step reporter and the failure reporter.
def isReporter : AgentCall → Prop
  | .reportStep _ _ | .reportFailure _ _ => True
  | _ => False

def raisedOf {α : Type} : Except PyException α → Option PyException
  | .ok _ => none
  | .error e => some e

-- What a port raised, the reporters apart.
def raised : Event AgentPorts → Option PyException
  | ⟨.markStarted _, answer⟩ => raisedOf answer
  | ⟨.search _, answer⟩ => raisedOf answer
  | ⟨.decide _ _ _, answer⟩ => raisedOf answer
  | ⟨.critique _ _, answer⟩ => raisedOf answer
  | ⟨.requestClarification _ _, answer⟩ => raisedOf answer
  | ⟨.enrichMany _, answer⟩ => raisedOf answer
  | ⟨.fetchPublishedDate _, answer⟩ => raisedOf answer
  | ⟨.deliver _ _, answer⟩ => raisedOf answer
  | ⟨.reportStep _ _, _⟩ | ⟨.reportFailure _ _, _⟩ | ⟨.snapshot, _⟩ => none

theorem raisedOf_eq_some {α : Type} (answer : Except PyException α) (e : PyException)
    (h : raisedOf answer = some e) : answer = .error e := by
  cases answer with
  | ok value => cases h
  | error e' =>
      cases h
      rfl

-- The parts of an attempt that decide no outcome, those that deliver nothing,
-- those that raise what a port raises, and all of it.
def undecided : Discipline AgentPorts PyException := ⟨isOutcome, isReporter, raised⟩

def undelivered : Discipline AgentPorts PyException := ⟨isDelivery, isReporter, raised⟩

def uncaught : Discipline AgentPorts PyException := ⟨fun _ => False, isReporter, raised⟩

def unreported : Discipline AgentPorts PyException := ⟨fun _ => False, isReporter, fun _ => none⟩

theorem undecided_undelivered : undecided.Allows undelivered := by
  refine ⟨fun call h => ?_, fun _ h => h, fun _ _ h => h⟩
  cases call with
  | deliver => trivial
  | _ => exact h.elim

theorem undelivered_uncaught : undelivered.Allows uncaught :=
  ⟨fun _ h => h.elim, fun _ h => h, fun _ _ h => h⟩

theorem undecided_uncaught : undecided.Allows uncaught :=
  ⟨fun _ h => h.elim, fun _ h => h, fun _ _ h => h⟩

theorem uncaught_unreported : uncaught.Allows unreported :=
  ⟨fun _ h => h, fun _ h => h, fun _ _ h => by cases h⟩

section Parts

theorem search_keeps (query : String) : Keeps undecided (raising (ask (.search query))) :=
  keeps_call not_false (fun h => h.elim) raisedOf_eq_some

theorem decide_keeps (goal : String) (steps : List AgentStep) (hits : List RawSearchHit) :
    Keeps undecided (raising (ask (.decide goal steps hits))) :=
  keeps_call not_false (fun h => h.elim) raisedOf_eq_some

theorem critique_keeps (goal : String) (hits : List RawSearchHit) :
    Keeps undecided (raising (ask (.critique goal hits))) :=
  keeps_call not_false (fun h => h.elim) raisedOf_eq_some

theorem enrichMany_keeps (hits : List RawSearchHit) :
    Keeps undecided (raising (ask (.enrichMany hits))) :=
  keeps_call not_false (fun h => h.elim) raisedOf_eq_some

theorem fetchPublishedDate_keeps (url : String) :
    Keeps undecided (raising (ask (.fetchPublishedDate url))) :=
  keeps_call not_false (fun h => h.elim) raisedOf_eq_some

theorem markStarted_keeps (jobId : String) : Keeps undecided (raising (ask (.markStarted jobId))) :=
  keeps_call not_false (fun h => h.elim) raisedOf_eq_some

theorem deliverCall_keeps (jobId : String) (results : List ResearchResult) :
    Keeps uncaught (raising (ask (.deliver jobId results))) :=
  keeps_call not_false (fun h => h.elim) raisedOf_eq_some

theorem requestClarification_keeps (jobId question : String) :
    Keeps undelivered (raising (ask (.requestClarification jobId question))) :=
  keeps_call not_false (fun h => h.elim) raisedOf_eq_some

theorem overBudget_keeps (budget : Option SpendGuard) :
    Keeps undecided (liftM (overBudget budget) : AgentRun Bool) := by
  refine keeps_lift ?_
  cases budget with
  | none => trivial
  | some guard =>
      change Program.Keeps undecided _ guard.exceeded
      unfold SpendGuard.exceeded
      by_cases hcap : guard.capUsd > 0
      · rw [if_pos hcap]
        refine ⟨not_false, fun h => h.elim, fun answer e h => ?_, fun _ => trivial⟩
        cases h
      · rw [if_neg hcap]
        trivial

-- What the step reporter answers is not looked at.
theorem report_keeps (jobId : String) (step : AgentStep) :
    Program.Keeps undecided (fun _ _ => False) (report jobId step) := by
  refine ⟨not_false, fun _ _ _ => rfl, fun answer e h => ?_, fun _ => trivial⟩
  cases h

theorem record_keeps (task : AgentTask) (state : GraphState) (step : AgentStep) :
    Keeps undecided (liftM (state.record task step) : AgentRun GraphState) :=
  keeps_lift ((report_keeps task.jobId step).bind (fun _ => trivial) fun _ _ h => h.elim)

theorem loopRecord_keeps (task : AgentTask) (loop : LoopState) (step : AgentStep) :
    Keeps undecided (liftM (loop.record task step) : AgentRun LoopState) :=
  keeps_lift ((report_keeps task.jobId step).bind (fun _ => trivial) fun _ _ h => h.elim)

theorem resolveHit_keeps (pageDates : Bool) (hit : RawSearchHit) (enrichment : HitEnrichment) :
    Keeps undecided (resolveHit pageDates hit enrichment) := by
  refine keeps_ite (fun _ => ?_) fun _ => ?_
  · refine (fetchPublishedDate_keeps hit.url).bind fun pageDate => ?_
    exact (keeps_orRaise _ _).bind fun _ => keeps_pure _ _
  · refine (keeps_pure _ none).bind fun pageDate => ?_
    exact (keeps_orRaise _ _).bind fun _ => keeps_pure _ _

theorem resolveZip_keeps (pageDates : Bool) (hits : List RawSearchHit)
    (enrichments : List HitEnrichment) : Keeps undecided (resolveZip pageDates hits enrichments) := by
  induction hits generalizing enrichments with
  | nil =>
      cases enrichments with
      | nil => exact keeps_pure _ _
      | cons enrichment enrichments => exact keeps_throw _ _
  | cons hit hits ih =>
      cases enrichments with
      | nil => exact keeps_throw _ _
      | cons enrichment enrichments =>
          refine (resolveHit_keeps pageDates hit enrichment).bind fun result => ?_
          exact (ih enrichments).bind fun results => keeps_pure _ _

theorem resolveHits_keeps (pageDates : Bool) (hits : List RawSearchHit) :
    Keeps undecided (resolveHits pageDates hits) :=
  (enrichMany_keeps hits).bind fun _ => resolveZip_keeps pageDates hits _

theorem sorted_keeps (pageDates : Bool) (hits : List RawSearchHit) :
    Keeps undecided (sortByPublicationDate <$> resolveHits pageDates hits) := by
  rw [map_eq_pure_bind]
  exact (resolveHits_keeps pageDates hits).bind fun _ => keeps_pure _ _

variable [Unicode] (task : AgentTask)

theorem selfCritique_keeps (loop : LoopState) : Keeps undecided (selfCritique task loop) := by
  refine (critique_keeps task.goal loop.hits).bind fun critique => ?_
  refine (loopRecord_keeps task _ _).bind fun later => ?_
  refine (overBudget_keeps task.budget).bind fun exhausted => ?_
  cases critique.gapQuery with
  | none => exact keeps_pure _ _
  | some gap =>
      refine keeps_ite (fun _ => ?_) fun _ => keeps_pure _ _
      refine (search_keeps gap).bind fun found => ?_
      refine (keeps_orRaise _ _).bind fun keptKeys => ?_
      exact (keeps_orRaise _ _).bind fun new => loopRecord_keeps task _ _

theorem review_keeps (loop : LoopState) : Keeps undecided (review task loop) := by
  refine keeps_ite (fun _ => ?_) fun _ => keeps_pure _ _
  refine (overBudget_keeps task.budget).bind fun exhausted => ?_
  exact keeps_ite (fun _ => keeps_pure _ _) fun _ => selfCritique_keeps task loop

omit [Unicode] in
theorem chooseAction_keeps (loop : LoopState) : Keeps undecided (chooseAction task loop) := by
  refine (overBudget_keeps task.budget).bind fun exhausted => ?_
  refine keeps_ite (fun _ => keeps_pure _ _) fun _ => ?_
  exact (decide_keeps _ _ _).bind fun action => keeps_pure _ _

theorem searchStep_keeps (seq : Nat) (query reason : String) (loop : LoopState) :
    Keeps undecided (searchStep task seq query reason loop) := by
  refine (search_keeps query).bind fun found => ?_
  refine (keeps_orRaise _ _).bind fun new => ?_
  exact (keeps_orRaise _ _).bind fun keys => loopRecord_keeps task _ _

theorem node_keeps (node : Node) (resume : Option String) (state : GraphState) :
    Keeps undecided ((buildGraph task).node node resume state) := by
  cases node with
  | decide =>
      refine keeps_ite (fun _ => keeps_pure _ _) fun _ => ?_
      refine (overBudget_keeps task.budget).bind fun exhausted => ?_
      refine keeps_ite (fun _ => keeps_pure _ _) fun _ => ?_
      refine (keeps_orRaise _ _).bind fun steps => ?_
      exact (decide_keeps _ _ _).bind fun action => keeps_pure _ _
  | search =>
      refine (keeps_orRaise _ _).bind fun query => ?_
      refine (keeps_orRaise _ _).bind fun reason => ?_
      refine (search_keeps query).bind fun found => ?_
      refine (keeps_orRaise _ _).bind fun new => ?_
      refine (record_keeps task _ _).bind fun later => ?_
      exact (keeps_orRaise _ _).bind fun keys => keeps_pure _ _
  | ask =>
      refine (keeps_orRaise _ _).bind fun question => ?_
      cases resume <;> exact keeps_pure _ _
  | finalize =>
      refine (keeps_orRaise _ _).bind fun reason => ?_
      exact (record_keeps task _ _).bind fun later => keeps_pure _ _
  | critique =>
      refine (overBudget_keeps task.budget).bind fun exhausted => ?_
      refine keeps_ite (fun _ => keeps_pure _ _) fun _ => ?_
      refine (critique_keeps _ _).bind fun verdict => ?_
      refine (record_keeps task _ _).bind fun later => ?_
      refine (overBudget_keeps task.budget).bind fun exhausted => ?_
      cases verdict.gapQuery with
      | none => exact keeps_pure _ _
      | some gap =>
          refine keeps_ite (fun _ => ?_) fun _ => keeps_pure _ _
          refine (search_keeps gap).bind fun found => ?_
          refine (keeps_orRaise _ _).bind fun keptKeys => ?_
          refine (keeps_orRaise _ _).bind fun new => ?_
          exact (record_keeps task _ _).bind fun later => keeps_pure _ _

-- A node that raises ends the graph.
theorem invoke_keeps (limit : Nat) (executed : List Node) (node : Node) (resume : Option String)
    (state : GraphState) :
    ((buildGraph task).invoke limit executed node resume state).Keeps undecided
      fun e invocation => invocation.ending = .raised e := by
  induction limit generalizing executed node resume state with
  | zero => trivial
  | succ limit ih =>
      unfold StateGraph.invoke
      have hnode : Program.Keeps undecided (fun e result => result = .error e)
        ((buildGraph task).node node resume state).run := node_keeps task node resume state
      refine hnode.bind (fun result => ?_) fun e result hresult => ?_
      · cases result with
        | error e => trivial
        | ok result =>
            cases result with
            | interrupt question => trivial
            | update state' =>
                dsimp only
                cases (buildGraph task).next node state' with
                | error e => trivial
                | ok next =>
                    cases next with
                    | none => trivial
                    | some node' => exact ih _ _ _ _
      · rw [hresult]
        exact ⟨_, rfl, rfl⟩

theorem startGraph_keeps (limit : Nat) (checkpoint : Option Checkpoint)
    (resumeAnswer : Option String) :
    (startGraph task limit checkpoint resumeAnswer).Keeps undecided
      fun e invocation => invocation.ending = .raised e := by
  unfold startGraph
  cases resumeAnswer with
  | none => exact invoke_keeps task limit _ _ _ _
  | some answer =>
      cases checkpoint with
      | none => exact invoke_keeps task limit _ _ _ _
      | some checkpoint =>
          obtain ⟨state, due⟩ := checkpoint
          cases due with
          | none => trivial
          | some due => exact invoke_keeps task limit _ _ _ _

theorem deliver_keeps (hits : List RawSearchHit) (seq : Nat) :
    Keeps uncaught (deliver task hits seq) := by
  have hdelivered : ∀ results, Keeps uncaught (do
      raising (ask (.deliver task.jobId results))
      return results : AgentRun (List ResearchResult)) := fun results =>
    (deliverCall_keeps task.jobId results).bind fun _ => keeps_pure _ _
  refine ((sorted_keeps _ _).mono undecided_uncaught).bind fun results => ?_
  cases task.seenUrls with
  | none => exact hdelivered results
  | some seenUrls =>
      refine (keeps_orRaise _ _).bind fun flagged => ?_
      refine ((keeps_lift (report_keeps _ _)).mono undecided_uncaught).bind fun _ => ?_
      exact hdelivered flagged

theorem decisionLoop_keeps (seqs : List Nat) (loop : LoopState) :
    Keeps undelivered (decisionLoop task seqs loop) := by
  induction seqs generalizing loop with
  | nil =>
      refine ((loopRecord_keeps task _ _).mono undecided_undelivered).bind fun later => ?_
      exact keeps_pure _ _
  | cons seq seqs ih =>
      rw [decisionLoop_cons]
      refine ((chooseAction_keeps task loop).mono undecided_undelivered).bind fun action => ?_
      cases action with
      | ask question reason =>
          exact (requestClarification_keeps task.jobId question).bind fun _ => keeps_pure _ _
      | search query reason =>
          refine ((searchStep_keeps task _ _ _ _).mono undecided_undelivered).bind fun later => ?_
          exact ih later
      | finish reason =>
          refine ((loopRecord_keeps task _ _).mono undecided_undelivered).bind fun later => ?_
          exact keeps_pure _ _

theorem conclude_keeps (loop : LoopState) : Keeps uncaught (conclude task loop) := by
  refine ((review_keeps task loop).mono undecided_uncaught).bind fun reviewed => ?_
  rw [map_eq_pure_bind]
  exact (deliver_keeps task _ _).bind fun _ => keeps_pure _ _

theorem agentResearch_keeps : Keeps uncaught (agentResearch task) := by
  refine ((markStarted_keeps task.jobId).mono undecided_uncaught).bind fun _ => ?_
  refine ((decisionLoop_keeps task _ _).mono undelivered_uncaught).bind fun loop => ?_
  cases loop with
  | none => exact keeps_pure _ _
  | some loop => exact conclude_keeps task loop

theorem settle_keeps (limit : Nat) (invocation : GraphInvocation) :
    Keeps uncaught (settle task limit invocation) := by
  unfold settle
  cases invocation.ending with
  | raised e => exact keeps_throw _ _
  | outOfSteps => exact keeps_throw _ _
  | interrupted question =>
      refine keeps_ite (fun _ => ?_) fun _ => keeps_throw _ _
      have hasked := requestClarification_keeps task.jobId question
      exact (hasked.mono undelivered_uncaught).bind fun _ => keeps_pure _ _
  | finished =>
      dsimp only
      rw [map_eq_pure_bind]
      exact (deliver_keeps task _ _).bind fun _ => keeps_pure _ _

theorem research_keeps (jobId keyword : String) (seenUrls : Option (List String))
    (pageDates : Bool) : Keeps uncaught (research jobId keyword seenUrls pageDates) := by
  have hdelivered : ∀ results, Keeps uncaught (do
      raising (ask (.deliver jobId results))
      return results : AgentRun (List ResearchResult)) := fun results =>
    (deliverCall_keeps jobId results).bind fun _ => keeps_pure _ _
  refine ((markStarted_keeps jobId).mono undecided_uncaught).bind fun _ => ?_
  refine ((search_keeps keyword).mono undecided_uncaught).bind fun found => ?_
  refine (keeps_orRaise _ _).bind fun hits => ?_
  refine ((sorted_keeps _ _).mono undecided_uncaught).bind fun results => ?_
  cases seenUrls with
  | none => exact (keeps_pure _ _).bind hdelivered
  | some seenUrls => exact (keeps_orRaise _ _).bind hdelivered

end Parts

-- What comes before a failure: at most one try, and it did not succeed.
inductive Unsuccessful (jobId : String) (e : PyException) : List Outcome → Prop
  | untried : Unsuccessful jobId e []
  | undelivered (results : List ResearchResult) :
      Unsuccessful jobId e [.delivered jobId results (.error e)]
  | unasked (question : String) : Unsuccessful jobId e [.asked jobId question (.error e)]

-- How an attempt ends: one successful delivery and its results, one successful
-- question and None, or one report of a failure and its exception.
inductive Concludes (jobId : String) :
    List Outcome → Except PyException (Option (List ResearchResult)) → Prop
  | delivered (results : List ResearchResult) :
      Concludes jobId [.delivered jobId results (.ok ())] (.ok (some results))
  | asked (question : String) : Concludes jobId [.asked jobId question (.ok ())] (.ok none)
  | failed {e : PyException} {tried : List Outcome} (answer : Except PyException Unit)
      (h : Unsuccessful jobId e tried) :
      Concludes jobId (tried ++ [.failed jobId e.message answer]) (.error e)

-- A part of an attempt, before a failure is reported.
def Settles {α : Type} (jobId : String) (done : α → List Outcome → Prop) (tried : List Outcome) :
    Except PyException α → Prop
  | .ok value => done value tried
  | .error e => Unsuccessful jobId e tried

def Delivered (jobId : String) (results : List ResearchResult) (tried : List Outcome) : Prop :=
  tried = [.delivered jobId results (.ok ())]

def DeliveredOrAsked (jobId : String) (results : Option (List ResearchResult))
    (tried : List Outcome) : Prop :=
  match results with
  | some results => Delivered jobId results tried
  | none => ∃ question, tried = [.asked jobId question (.ok ())]

section Attempts

variable {α β : Type} {jobId : String} {past : List (Event AgentPorts)}

theorem outcome_none {event : Event AgentPorts} (h : ¬ isOutcome event.call) :
    outcome event = none := by
  obtain ⟨call, answer⟩ := event
  cases call with
  | deliver | requestClarification | reportFailure => exact absurd trivial h
  | _ => rfl

theorem outcomes_append (past events : List (Event AgentPorts)) :
    outcomes (past ++ events) = outcomes past ++ outcomes events := List.filterMap_append

theorem undecided_ends {failed : PyException → α → Prop} {p : Program AgentPorts α}
    (h : p.Keeps undecided failed) (past : List (Event AgentPorts)) :
    p.Ends (fun events _ => outcomes events = outcomes past) past := by
  refine (h.ends past).mono fun events value hvalue => ?_
  obtain ⟨new, rfl, hnew, -⟩ := hvalue
  have hnone : outcomes new = [] :=
    List.filterMap_eq_nil_iff.mpr fun event hevent => outcome_none (hnew event hevent)
  rw [outcomes_append, hnone, List.append_nil]

theorem undecided_ends_bind {x : AgentRun β} {f : β → AgentRun α} {done : α → List Outcome → Prop}
    (hx : Keeps undecided x)
    (hf : ∀ value events, outcomes events = outcomes past → (f value).run.Ends
      (fun events result => ∃ tried, outcomes events = outcomes past ++ tried ∧
        Settles jobId done tried result) events) :
    (x >>= f).run.Ends (fun events result => ∃ tried, outcomes events = outcomes past ++ tried ∧
      Settles jobId done tried result) past := by
  rw [ExceptT.run_bind, Program.ends_bind]
  refine (undecided_ends hx past).mono fun events result hevents => ?_
  cases result with
  | error e => exact ⟨[], by rw [hevents, List.append_nil], .untried⟩
  | ok value => exact hf value events hevents

theorem deliverCall_settles (results : List ResearchResult) :
    (do
      raising (ask (.deliver jobId results))
      return results : AgentRun (List ResearchResult)).run.Ends
      (fun events result => ∃ tried, outcomes events = outcomes past ++ tried ∧
        Settles jobId (Delivered jobId) tried result) past := by
  rw [Fallible.run_raising_bind]
  intro answer
  have hanswer : outcomes (past ++ [⟨.deliver jobId results, answer⟩]) =
      outcomes past ++ [.delivered jobId results answer] := outcomes_append _ _
  cases answer with
  | ok _ => exact ⟨_, hanswer, rfl⟩
  | error e => exact ⟨_, hanswer, .undelivered results⟩

theorem requestClarification_settles {question : String} {rest : Unit → AgentRun α}
    {done : α → List Outcome → Prop} {value : α} (hrest : ∀ u, rest u = pure value)
    (hdone : done value [.asked jobId question (.ok ())]) :
    (raising (ask (.requestClarification jobId question)) >>= rest).run.Ends
      (fun events result => ∃ tried, outcomes events = outcomes past ++ tried ∧
        Settles jobId done tried result) past := by
  rw [Fallible.run_raising_bind]
  intro answer
  have hanswer : outcomes (past ++ [⟨.requestClarification jobId question, answer⟩]) =
      outcomes past ++ [.asked jobId question answer] := outcomes_append _ _
  cases answer with
  | ok _ =>
      change (rest ()).run.Ends _ _
      rw [hrest ()]
      exact ⟨_, hanswer, hdone⟩
  | error e => exact ⟨_, hanswer, .unasked question⟩

theorem map_some_settles {x : AgentRun (List ResearchResult)}
    (h : x.run.Ends (fun events result => ∃ tried, outcomes events = outcomes past ++ tried ∧
      Settles jobId (Delivered jobId) tried result) past) :
    (some <$> x).run.Ends (fun events result => ∃ tried,
      outcomes events = outcomes past ++ tried ∧
        Settles jobId (DeliveredOrAsked jobId) tried result) past := by
  rw [map_eq_pure_bind, ExceptT.run_bind, Program.ends_bind]
  refine h.mono fun events result hresult => ?_
  cases result <;> exact hresult

variable [Unicode] (task : AgentTask)

theorem deliver_settles (hits : List RawSearchHit) (seq : Nat) :
    (deliver task hits seq).run.Ends (fun events result => ∃ tried,
      outcomes events = outcomes past ++ tried ∧
        Settles task.jobId (Delivered task.jobId) tried result) past := by
  refine undecided_ends_bind (sorted_keeps _ _) fun results events hevents => ?_
  rw [← hevents]
  cases task.seenUrls with
  | none => exact deliverCall_settles results
  | some seenUrls =>
      refine undecided_ends_bind (keeps_orRaise _ _) fun flagged later hlater => ?_
      rw [← hlater]
      refine undecided_ends_bind (keeps_lift (report_keeps _ _)) fun _ last hlast => ?_
      rw [← hlast]
      exact deliverCall_settles flagged

theorem conclude_settles (loop : LoopState) :
    (conclude task loop).run.Ends (fun events result => ∃ tried,
      outcomes events = outcomes past ++ tried ∧
        Settles task.jobId (DeliveredOrAsked task.jobId) tried result) past := by
  refine undecided_ends_bind (review_keeps task loop) fun reviewed events hevents => ?_
  rw [← hevents]
  exact map_some_settles (deliver_settles task _ _)

-- A loop that pauses asked its question; one that ends decided nothing.
def LoopSettles (jobId : String) (loop : Option LoopState) (tried : List Outcome) : Prop :=
  match loop with
  | some _ => tried = []
  | none => ∃ question, tried = [.asked jobId question (.ok ())]

theorem decisionLoop_settles (seqs : List Nat) (loop : LoopState) :
    (decisionLoop task seqs loop).run.Ends (fun events result => ∃ tried,
      outcomes events = outcomes past ++ tried ∧
        Settles task.jobId (LoopSettles task.jobId) tried result) past := by
  induction seqs generalizing loop past with
  | nil =>
      refine undecided_ends_bind (loopRecord_keeps task _ _) fun later events hevents => ?_
      exact ⟨[], by rw [hevents, List.append_nil], rfl⟩
  | cons seq seqs ih =>
      rw [decisionLoop_cons]
      refine undecided_ends_bind (chooseAction_keeps task loop) fun action events hevents => ?_
      rw [← hevents]
      cases action with
      | ask question reason => exact requestClarification_settles (fun _ => rfl) ⟨question, rfl⟩
      | search query reason =>
          refine undecided_ends_bind (searchStep_keeps task _ _ _ _) fun later last hlast => ?_
          rw [← hlast]
          exact ih later
      | finish reason =>
          refine undecided_ends_bind (loopRecord_keeps task _ _) fun later last hlast => ?_
          exact ⟨[], by rw [hlast, List.append_nil], rfl⟩

theorem agentResearch_settles :
    (agentResearch task).run.Ends (fun events result => ∃ tried,
      outcomes events = outcomes past ++ tried ∧
        Settles task.jobId (DeliveredOrAsked task.jobId) tried result) past := by
  refine undecided_ends_bind (markStarted_keeps task.jobId) fun _ events hevents => ?_
  rw [← hevents, ExceptT.run_bind, Program.ends_bind]
  refine (decisionLoop_settles task _ _).mono fun later result hresult => ?_
  obtain ⟨tried, hlater, hsettles⟩ := hresult
  cases result with
  | error e => exact ⟨tried, hlater, hsettles⟩
  | ok loop =>
      cases loop with
      | none => exact ⟨tried, hlater, hsettles⟩
      | some loop =>
          have hnone : tried = [] := hsettles
          rw [hnone, List.append_nil] at hlater
          rw [← hlater]
          exact conclude_settles task loop

theorem settle_settles (limit : Nat) (invocation : GraphInvocation) :
    (settle task limit invocation).run.Ends (fun events result => ∃ tried,
      outcomes events = outcomes past ++ tried ∧
        Settles task.jobId (DeliveredOrAsked task.jobId) tried result) past := by
  have hthrown : ∀ e, (throw e : AgentRun (Option (List ResearchResult))).run.Ends
      (fun events result => ∃ tried, outcomes events = outcomes past ++ tried ∧
        Settles task.jobId (DeliveredOrAsked task.jobId) tried result) past :=
    fun e => ⟨[], (List.append_nil _).symm, .untried⟩
  unfold settle
  cases invocation.ending with
  | raised e => exact hthrown e
  | outOfSteps => exact hthrown _
  | interrupted question =>
      dsimp only
      by_cases hclarifier : task.clarifier = true
      · rw [if_pos hclarifier]
        exact requestClarification_settles (fun _ => rfl) ⟨question, rfl⟩
      · rw [if_neg hclarifier]
        exact hthrown _
  | finished => exact map_some_settles (deliver_settles task _ _)

theorem research_settles (jobId keyword : String) (seenUrls : Option (List String))
    (pageDates : Bool) :
    (research jobId keyword seenUrls pageDates).run.Ends (fun events result => ∃ tried,
      outcomes events = outcomes past ++ tried ∧ Settles jobId (Delivered jobId) tried result)
      past := by
  refine undecided_ends_bind (markStarted_keeps jobId) fun _ events hevents => ?_
  rw [← hevents]
  refine undecided_ends_bind (search_keeps keyword) fun found later hlater => ?_
  rw [← hlater]
  refine undecided_ends_bind (keeps_orRaise _ _) fun hits last hlast => ?_
  rw [← hlast]
  refine undecided_ends_bind (sorted_keeps _ _) fun results events hevents => ?_
  rw [← hevents]
  cases seenUrls with
  | none =>
      refine undecided_ends_bind (keeps_pure _ _) fun results later hlater => ?_
      rw [← hlater]
      exact deliverCall_settles results
  | some seenUrls =>
      refine undecided_ends_bind (keeps_orRaise _ _) fun results later hlater => ?_
      rw [← hlater]
      exact deliverCall_settles results

end Attempts

-- The exception that a port raises is the one that the attempt raises.
def Propagates {α : Type} (events : List (Event AgentPorts)) (result : Except PyException α) : Prop :=
  ∀ event ∈ events, ∀ e, raised event = some e → result = .error e

theorem Propagates.append {α : Type} {events events' : List (Event AgentPorts)}
    {result : Except PyException α} (h : Propagates events result)
    (h' : Propagates events' result) : Propagates (events ++ events') result :=
  List.forall_mem_append.mpr ⟨h, h'⟩

-- What an attempt does after the events before it.
structure Attempts {α : Type} (jobId : String) (done : α → Option (List ResearchResult))
    (past events : List (Event AgentPorts)) (result : Except PyException α) : Prop where
  concludes : ∃ tried, outcomes events = outcomes past ++ tried ∧
    Concludes jobId tried (result.map done)
  propagates : ∃ new, events = past ++ new ∧ Propagates new result

section Reporting

variable {α : Type} {jobId : String} {past : List (Event AgentPorts)}

theorem reportResult_attempts {result : Except PyException α} {done : α → Option (List ResearchResult)}
    {before : List (Event AgentPorts)} {tried : List Outcome} {new : List (Event AgentPorts)}
    (hevents : before = past ++ new) (houtcomes : outcomes before = outcomes past ++ tried)
    (hsettles : Settles jobId (fun value tried => Concludes jobId tried (.ok (done value))) tried
      result) (hpropagates : Propagates new result) :
    (reportResult jobId result).Ends (fun events result => Attempts jobId done past events result)
      before := by
  cases result with
  | ok value => exact ⟨⟨tried, houtcomes, hsettles⟩, new, hevents, hpropagates⟩
  | error e =>
      intro answer
      refine ⟨⟨tried ++ [.failed jobId e.message answer], ?_, .failed answer hsettles⟩,
        new ++ [⟨.reportFailure jobId e.message, answer⟩], ?_, hpropagates.append ?_⟩
      · rw [outcomes_append, houtcomes, List.append_assoc]
        rfl
      · rw [hevents, List.append_assoc]
      · intro event hevent e' hraised
        cases List.mem_singleton.mp hevent
        cases hraised

theorem reportingFailure_attempts {x : AgentRun α} {value : α → List Outcome → Prop}
    {done : α → Option (List ResearchResult)} (hkeeps : Keeps uncaught x)
    (hsettles : ∀ past, x.run.Ends (fun events result => ∃ tried,
      outcomes events = outcomes past ++ tried ∧ Settles jobId value tried result) past)
    (hdone : ∀ v tried, value v tried → Concludes jobId tried (.ok (done v))) :
    (reportingFailure jobId x).Ends (fun events result => Attempts jobId done past events result)
      past := by
  unfold reportingFailure
  rw [Program.ends_bind]
  have hkept : x.run.Keeps uncaught fun e result => result = .error e := hkeeps
  refine ((hkept.ends past).and (hsettles past)).mono fun before result hresult => ?_
  obtain ⟨⟨new, hevents, -, hpropagates⟩, tried, houtcomes, hsettled⟩ := hresult
  refine reportResult_attempts hevents houtcomes ?_ hpropagates
  cases result with
  | ok v => exact hdone v tried hsettled
  | error e => exact hsettled

theorem reportingFailure_keeps {x : AgentRun α} (h : Keeps uncaught x) :
    (reportingFailure jobId x).Keeps unreported fun _ _ => False := by
  have hx : x.run.Keeps uncaught fun e result => result = .error e := h
  have hquiet : x.run.Keeps unreported fun _ _ => False :=
    (hx.mono uncaught_unreported).unraised fun _ => rfl
  refine hquiet.bind (fun result => ?_) fun _ _ hfailed => hfailed.elim
  cases result with
  | ok value => trivial
  | error e =>
      refine ⟨not_false, fun _ _ _ => rfl, fun answer e' hraised => ?_, fun _ => trivial⟩
      cases hraised

theorem deliveredOrAsked_concludes {results : Option (List ResearchResult)} {tried : List Outcome}
    (h : DeliveredOrAsked jobId results tried) : Concludes jobId tried (.ok results) := by
  cases results with
  | some results =>
      cases h
      exact .delivered results
  | none =>
      obtain ⟨question, rfl⟩ := h
      exact .asked question

variable [Unicode] (task : AgentTask) (limit : Nat) (checkpoint : Option Checkpoint)
  (resumeAnswer : Option String)

theorem settle_raises (invocation : GraphInvocation) :
    (reportingFailure task.jobId (settle task limit invocation)).Ends
      (fun _ result => ∀ e, invocation.ending = .raised e → result = .error e) past := by
  cases hending : invocation.ending with
  | raised e =>
      unfold reportingFailure settle
      rw [hending]
      intro answer e' heq
      cases heq
      rfl
  | finished | interrupted | outOfSteps =>
      refine (Program.ends_extends _ past).mono fun events result _ e heq => ?_
      cases heq

theorem runAgentGraph_attempts :
    (runAgentGraph task limit checkpoint resumeAnswer).Ends
      (fun events run => Attempts task.jobId id past events run.result) past := by
  unfold runAgentGraph
  intro answer
  cases answer with
  | error e =>
      have houtcomes : outcomes (past ++ [⟨.markStarted task.jobId, .error e⟩]) =
          outcomes past ++ [] := outcomes_append _ _
      have hsettles : Settles task.jobId (fun value tried => Concludes task.jobId tried (.ok (id value)))
          [] (.error e) := Unsuccessful.untried
      refine reportResult_attempts rfl houtcomes hsettles fun event hevent e' hraised => ?_
      cases List.mem_singleton.mp hevent
      exact congrArg Except.error (Option.some.inj hraised)
  | ok _ =>
      have hstarted : outcomes (past ++ [⟨.markStarted task.jobId, .ok ()⟩]) = outcomes past :=
        (outcomes_append _ _).trans (List.append_nil _)
      have hkeeps := startGraph_keeps task limit checkpoint resumeAnswer
      change (startGraph task limit checkpoint resumeAnswer >>= _).Ends _ _
      rw [Program.ends_bind]
      refine ((hkeeps.ends _).and (undecided_ends hkeeps _)).mono fun before invocation h => ?_
      obtain ⟨⟨new, hevents, -, hraised⟩, houtcomes⟩ := h
      rw [hstarted] at houtcomes
      rw [Program.ends_bind]
      have hattempts := @reportingFailure_attempts _ task.jobId before _ _ id
        (settle_keeps task limit invocation) (fun _ => settle_settles task limit invocation)
        fun value tried => deliveredOrAsked_concludes
      refine (hattempts.and (settle_raises task limit invocation)).mono fun events result h => ?_
      obtain ⟨⟨⟨tried, htried, hconcludes⟩, rest, hrest, hpropagates⟩, hending⟩ := h
      refine ⟨⟨tried, htried.trans (congrArg (· ++ tried) houtcomes), hconcludes⟩,
        ⟨.markStarted task.jobId, .ok ()⟩ :: new ++ rest, ?_, ?_⟩
      · rw [hrest, hevents, List.append_assoc, List.append_assoc]
        rfl
      · have hnew : Propagates new result := fun event hevent e hraise =>
          hending e (hraised event hevent e hraise)
        refine Propagates.append ?_ hpropagates
        refine List.forall_mem_cons.mpr ⟨fun e hraise => ?_, hnew⟩
        cases hraise

theorem runAgentGraph_keeps :
    (runAgentGraph task limit checkpoint resumeAnswer).Keeps unreported fun _ _ => False := by
  have hstarted := (markStarted_keeps task.jobId).mono undecided_uncaught
  refine (reportingFailure_keeps hstarted).bind (fun result => ?_) fun _ _ hfailed => hfailed.elim
  cases result with
  | error e => trivial
  | ok _ =>
      have hgraph := ((startGraph_keeps task limit checkpoint resumeAnswer).mono
        undecided_uncaught).mono uncaught_unreported
      have hquiet : (startGraph task limit checkpoint resumeAnswer).Keeps unreported
        fun _ _ => False := hgraph.unraised fun _ => rfl
      refine hquiet.bind (fun invocation => ?_) fun _ _ hfailed => hfailed.elim
      have hsettled := settle_keeps task limit invocation
      refine (reportingFailure_keeps hsettled).bind (fun _ => trivial) ?_
      exact fun _ _ hfailed => hfailed.elim

end Reporting

-- What a mode does against its ports: it ends in one way, it raises what its
-- ports raise, and the reporters make no difference to it.
structure OneOutcome {α : Type} (jobId : String)
    (results : α → Except PyException (Option (List ResearchResult))) (p : Program AgentPorts α)
    (oracle : Oracle AgentPorts) : Prop where
  concludes : Concludes jobId (outcomes (p.execute oracle).2) (results (p.execute oracle).1)
  propagates : Propagates (p.execute oracle).2 (results (p.execute oracle).1)
  unaffected : ∀ oracle', oracle.Alike isReporter oracle' →
    (p.execute oracle).1 = (p.execute oracle').1 ∧
      List.Forall₂ (Event.Alike isReporter) (p.execute oracle).2 (p.execute oracle').2

theorem oneOutcome {α β : Type} {jobId : String} {p : Program AgentPorts α}
    {result : α → Except PyException β} {done : β → Option (List ResearchResult)}
    (hattempts : p.Ends (fun events value => Attempts jobId done [] events (result value)) [])
    (hkeeps : p.Keeps unreported fun _ _ => False) (oracle : Oracle AgentPorts) :
    OneOutcome jobId (fun value => (result value).map done) p oracle := by
  obtain ⟨⟨tried, houtcomes, hconcludes⟩, new, hevents, hpropagates⟩ := hattempts.execute oracle
  rw [List.nil_append] at hevents
  refine ⟨?_, fun event hevent e hraise => ?_, fun oracle' halike => ?_⟩
  · rw [houtcomes]
    exact hconcludes
  · rw [hevents] at hevent
    rw [hpropagates event hevent e hraise]
    rfl
  · exact hkeeps.run_alike halike .nil

-- Every attempt has exactly one outcome, whatever its ports answer or raise.
theorem one_outcome [Unicode] (jobId keyword : String) (seenUrls : Option (List String))
    (pageDates : Bool) (task : AgentTask) (limit : Nat) (checkpoint : Option Checkpoint)
    (resumeAnswer : Option String) (oracle : Oracle AgentPorts) :
    OneOutcome jobId (Except.map some) (runResearch jobId keyword seenUrls pageDates) oracle ∧
      OneOutcome task.jobId id (runAgentResearch task) oracle ∧
      OneOutcome task.jobId GraphRun.result (runAgentGraph task limit checkpoint resumeAnswer)
        oracle := by
  have hmap : (fun result => Except.map id result) =
      (id : Except PyException (Option (List ResearchResult)) → _) :=
    funext fun result => by cases result <;> rfl
  refine ⟨?_, ?_, ?_⟩
  · have hattempts : (runResearch jobId keyword seenUrls pageDates).Ends
        (fun events result => Attempts jobId some [] events result) [] :=
      reportingFailure_attempts (research_keeps jobId keyword seenUrls pageDates)
        (fun _ => research_settles jobId keyword seenUrls pageDates)
        fun results tried hdelivered => hdelivered ▸ .delivered results
    exact oneOutcome hattempts
      (reportingFailure_keeps (research_keeps jobId keyword seenUrls pageDates)) oracle
  · have hattempts : (runAgentResearch task).Ends
        (fun events result => Attempts task.jobId id [] events result) [] :=
      reportingFailure_attempts (agentResearch_keeps task) (fun _ => agentResearch_settles task)
        fun results tried => deliveredOrAsked_concludes
    have hone := oneOutcome hattempts (reportingFailure_keeps (agentResearch_keeps task)) oracle
    rw [hmap] at hone
    exact hone
  · have hone := oneOutcome (runAgentGraph_attempts task limit checkpoint resumeAnswer)
      (runAgentGraph_keeps task limit checkpoint resumeAnswer) oracle
    have hresult : (fun run : GraphRun => run.result.map id) = GraphRun.result :=
      funext fun run => congrFun hmap run.result
    rw [hresult] at hone
    exact hone

-- A journal that is lost.
def Sample.unjournaled : Oracle AgentPorts
  | _, .reportStep _ _ => .error ⟨"ConnectError", "connection refused"⟩
  | past, request => Sample.oracle past request

theorem one_outcome_unjournaled :
    letI := Sample.unicode
    ((runAgentResearch Sample.task).execute Sample.oracle).1 =
        ((runAgentResearch Sample.task).execute Sample.unjournaled).1 ∧
      Concludes Sample.task.jobId
        (outcomes ((runAgentResearch Sample.task).execute Sample.unjournaled).2)
        ((runAgentResearch Sample.task).execute Sample.unjournaled).1 := by
  let := Sample.unicode
  have halike : Sample.oracle.Alike isReporter Sample.unjournaled := by
    intro past past' hpast request hreporter
    cases request with
    | reportStep => exact absurd trivial hreporter
    | _ => rfl
  have hone := fun oracle => (one_outcome "job" "lean 4" none false Sample.task 25 none none oracle).2.1
  exact ⟨((hone Sample.oracle).unaffected _ halike).1, (hone Sample.unjournaled).concludes⟩

end AgentBoilerplate.Agent
