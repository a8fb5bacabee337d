import AgentBoilerplate.Effects.Protocol
import AgentBoilerplate.Job.Answering
import AgentBoilerplate.System.Dispatch

namespace AgentBoilerplate.System

open Effects Collections

attribute [local irreducible] trim

-- What an operation has found, and what it has handed over.
structure Sending where
  found : Option (Uuid × Job.ResearchJob)
  sent : List (Job.ResearchJob × List String)

def Sending.fresh : Sending := ⟨none, []⟩

def sending : Protocol Job.JobPorts Sending where
  permits _ _ := True
  next sending event :=
    match event with
    | ⟨.find id, .ok (some job)⟩ => { sending with found := some (id, job) }
    | ⟨.dispatch job seenUrls, .ok ()⟩ => { sending with sent := sending.sent ++ [(job, seenUrls)] }
    | _ => sending

-- What an operation that succeeded has handed over.
def Sent : Job.JobOp → Sending → Job.JobOutcome → Prop
  | .launch _ keyword mode, sending, .launch (.ok job) =>
      sending.sent = [(job, [])] ∧ job.keyword = trim keyword ∧ job.mode = mode ∧
        job.answer = none ∧ job.recurringSearchId = none
  | .answer _ jobId text, sending, .answer (.ok job) => ∃ found seenUrls,
      sending.found = some (jobId, found) ∧ sending.sent = [(job, seenUrls)] ∧
        job.id = found.id ∧ job.answer = some (trim text)
  | .runDue, sending, .tick (.ok launched) =>
      sending.sent.length = launched ∧ ∀ handed ∈ sending.sent, handed.1.recurringSearchId.isSome
  | _, _, _ => True

section Operations

variable {sending₀ : Sending} {job : Job.ResearchJob} {seenUrls : List String}

theorem silent_sent {α : Type} (p : Program Job.JobPorts α) :
    p.Obeys sending (fun _ _ => True) sending₀ := by
  induction p generalizing sending₀ with
  | done value => trivial
  | call request next ih => exact ⟨trivial, fun answer => ih answer⟩

-- The clock and the generator hand nothing over.
theorem failNow_sent (job : Job.ResearchJob) (error : String) :
    (job.failNow error).Obeys sending (fun later _ => later = sending₀) sending₀ := by
  unfold Job.ResearchJob.failNow
  split
  · rfl
  · exact ⟨trivial, fun _ => rfl⟩

theorem new_fresh {id userId : Uuid} {clock : Int} {keyword : String}
    (h : Job.ResearchJob.new id clock userId keyword = .ok job) :
    job.keyword = trim keyword ∧ job.answer = none ∧ job.recurringSearchId = none := by
  unfold Job.ResearchJob.new at h
  dsimp only at h
  split at h
  · cases h
  · split at h
    · cases h
    · cases h
      exact ⟨rfl, rfl, rfl⟩

theorem newNow_sent (userId : Uuid) (keyword : String) :
    (Job.ResearchJob.newNow userId keyword).Obeys sending
      (fun later created => later = sending₀ ∧ ∀ job, created = .ok job →
        job.keyword = trim keyword ∧ job.answer = none ∧ job.recurringSearchId = none)
      sending₀ := by
  unfold Job.ResearchJob.newNow
  split_ifs
  · exact ⟨rfl, fun _ h => nomatch h⟩
  · exact ⟨rfl, fun _ h => nomatch h⟩
  · exact ⟨trivial, fun id => ⟨trivial, fun clock => ⟨rfl, fun job h => new_fresh h⟩⟩⟩

theorem dispatchOrFail_sent {ε : Type} (infrastructure : PortError → ε) (dispatchFailed : ε)
    (job : Job.ResearchJob) (seenUrls : List String) :
    (Job.dispatchOrFail infrastructure dispatchFailed job seenUrls).run.Obeys sending
      (fun later result => ∀ dispatched, result = .ok dispatched → dispatched = job ∧
        later = { sending₀ with sent := sending₀.sent ++ [(job, seenUrls)] }) sending₀ := by
  unfold Job.dispatchOrFail
  simp only [Fallible.run_lift_bind, Job.ask, Program.call_bind, Program.done_bind,
    Program.obeys_call]
  refine ⟨trivial, ?_⟩
  rintro (e | _)
  · dsimp only
    rw [Fallible.run_lift_bind]
    refine (silent_sent _).bind fun later failed _ => ?_
    rw [Fallible.run_orFail_bind]
    refine ⟨trivial, ?_⟩
    rintro (e | _) <;>
    · intro dispatched h
      cases h
  · rintro dispatched ⟨⟩
    exact ⟨rfl, rfl⟩

theorem launchSearch_sent (dailyQuota : Nat) (userId : Uuid) (keyword : String)
    (mode : Job.JobMode) (hfresh : sending₀.sent = []) :
    (Job.launchSearch dailyQuota userId keyword mode).run.Obeys sending
      (fun later result => Sent (.launch userId keyword mode) later (.launch result)) sending₀ := by
  unfold Job.launchSearch
  simp only [Fallible.run_lift_bind, Fallible.run_orFail_bind, Job.ask, Program.call_bind,
    Program.done_bind, Program.obeys_call]
  refine ⟨trivial, fun now => ⟨trivial, ?_⟩⟩
  rintro (e | used)
  · trivial
  dsimp only
  split
  · trivial
  rw [Fallible.run_orFail_bind]
  refine (newNow_sent userId keyword).bind ?_
  rintro _ (e | job) ⟨rfl, hcreated⟩
  · trivial
  obtain ⟨hkeyword, hanswer, hlink⟩ := hcreated job rfl
  dsimp only
  rw [Fallible.run_orFail_bind]
  refine ⟨trivial, ?_⟩
  rintro (e | _)
  · trivial
  refine (dispatchOrFail_sent _ _ (job.withMode mode) []).mono ?_
  rintro later (e | dispatched) hsent
  · trivial
  obtain ⟨rfl, rfl⟩ := hsent dispatched rfl
  exact ⟨congrArg (· ++ [(job.withMode mode, [])]) hfresh, hkeyword, rfl, hanswer, hlink⟩

theorem answerClarification_sent (userId jobId : Uuid) (text : String)
    (hfresh : sending₀.sent = []) :
    (Job.answerClarification userId jobId text).run.Obeys sending
      (fun later result => Sent (.answer userId jobId text) later (.answer result)) sending₀ := by
  unfold Job.answerClarification
  simp only [Fallible.run_orFail_bind, Job.ask, Program.call_bind, Program.done_bind,
    Program.obeys_call]
  refine ⟨trivial, ?_⟩
  rintro (e | found)
  · trivial
  dsimp only
  cases found with
  | none => trivial
  | some row =>
      by_cases howner : row.userId = userId
      · simp only [Option.filter_some, howner, decide_true, if_true]
        rcases hprovided : row.provideAnswer text with ⟨e | _, answered⟩
        · trivial
        obtain ⟨-, hanswered⟩ := Job.ResearchJob.provideAnswer_ok hprovided
        have hid : answered.id = row.id := by rw [hanswered]
        have htext : answered.answer = some (trim text) := by rw [hanswered]
        dsimp only
        simp only [Fallible.run_orFail_bind, Program.call_bind, Program.done_bind,
          Program.obeys_call]
        refine ⟨trivial, ?_⟩
        rintro (e | _)
        · trivial
        refine ⟨trivial, ?_⟩
        rintro (e | _)
        · trivial
        have hdispatch : ∀ seenUrls (later : Sending), later.found = some (jobId, row) →
            later.sent = [] → (Job.dispatchOrFail Job.AnswerError.infrastructure .dispatchFailed
              answered seenUrls).run.Obeys sending
                (fun later result => Sent (.answer userId jobId text) later (.answer result))
                later := by
          intro seenUrls later hfound hsent
          refine (dispatchOrFail_sent _ _ _ seenUrls).mono ?_
          rintro last (e | dispatched) hlast
          · trivial
          · obtain ⟨rfl, rfl⟩ := hlast dispatched rfl
            have hsent' := congrArg (· ++ [(dispatched, seenUrls)]) hsent
            exact ⟨row, seenUrls, hfound, hsent', hid, htext⟩
        cases hlink : answered.recurringSearchId with
        | none => exact hdispatch [] { sending₀ with found := some (jobId, row) } rfl hfresh
        | some searchId =>
            dsimp only
            rw [Fallible.run_orFail_bind]
            refine ⟨trivial, ?_⟩
            rintro (e | seenUrls)
            · trivial
            · exact hdispatch seenUrls { sending₀ with found := some (jobId, row) } rfl hfresh
      · simp only [Option.filter_some, howner, decide_false, Bool.false_eq_true, if_false]
        trivial

-- What a run of the due searches has handed over beyond `sent`.
def Handed (sent : List (Job.ResearchJob × List String)) (later : Sending)
    (result : Except PortError Nat) : Prop :=
  ∃ more, later.sent = sent ++ more ∧ (∀ handed ∈ more, handed.1.recurringSearchId.isSome) ∧
    ∀ launched, result = .ok launched → more.length = launched

theorem Handed.none {sent : List (Job.ResearchJob × List String)} {later : Sending}
    (h : later.sent = sent) {result : Except PortError Nat}
    (hresult : ∀ launched, result = .ok launched → launched = 0) : Handed sent later result :=
  ⟨[], by rw [h, List.append_nil], fun _ hmem => absurd hmem List.not_mem_nil,
    fun launched hlaunched => (hresult launched hlaunched).symm⟩

theorem Handed.error {sent : List (Job.ResearchJob × List String)} {later : Sending}
    (h : later.sent = sent) (e : PortError) : Handed sent later (.error e) :=
  .none h fun _ hresult => nomatch hresult

theorem runOne_sent (dailyQuota : Nat) (now : Int) (search : Job.RecurringSearch) :
    (Job.RunDueSearches.runOne dailyQuota now search).run.Obeys sending
      (Handed sending₀.sent) sending₀ := by
  unfold Job.RunDueSearches.runOne
  simp only [Fallible.run_orFail_bind, Job.ask, Program.call_bind, Program.done_bind,
    Program.obeys_call]
  refine ⟨trivial, ?_⟩
  rintro (e | used)
  · exact .error rfl e
  dsimp only
  split
  · rw [Fallible.run_orFail_bind]
    refine ⟨trivial, ?_⟩
    rintro (e | _)
    · exact .error rfl e
    · exact .none rfl fun _ h => by cases h; rfl
  simp only [Fallible.run_orFail_bind, Program.call_bind, Program.done_bind, Program.obeys_call]
  refine ⟨trivial, ?_⟩
  rintro (e | seenUrls)
  · exact .error rfl e
  dsimp only
  refine (newNow_sent search.userId search.keyword).bind ?_
  rintro later (e | job) ⟨rfl, -⟩
  · exact .error rfl _
  dsimp only
  refine ⟨trivial, ?_⟩
  rintro (e | _)
  · exact .error rfl e
  simp only [Fallible.run_lift_bind, Program.call_bind, Program.done_bind, Program.obeys_call]
  refine ⟨trivial, ?_⟩
  rintro (e | _)
  · -- the job is stored as failed, and the search is marked
    dsimp only
    rw [Fallible.run_lift_bind]
    refine (failNow_sent _ _).bind ?_
    rintro _ failed rfl
    simp only [Fallible.run_orFail_bind, Program.call_bind, Program.done_bind, Program.obeys_call]
    refine ⟨trivial, ?_⟩
    rintro (e | _)
    · exact .error rfl e
    refine ⟨trivial, ?_⟩
    rintro (e | _)
    · exact .error rfl e
    · exact .none rfl fun _ h => by cases h; rfl
  · simp only [Fallible.run_orFail_bind, Program.call_bind, Program.done_bind, Program.obeys_call]
    have hlinked : ∀ handed ∈ [((job.withMode search.mode).withRecurring search.id, seenUrls)],
        handed.1.recurringSearchId.isSome := by
      intro handed hmem
      rw [List.mem_singleton.mp hmem]
      rfl
    refine ⟨trivial, ?_⟩
    rintro (e | _)
    · exact ⟨_, rfl, hlinked, fun _ h => by cases h⟩
    · exact ⟨_, rfl, hlinked, fun _ h => by cases h; rfl⟩

theorem runAll_sent (dailyQuota : Nat) (now : Int) (due : List Job.RecurringSearch)
    (launched : Nat) (sent : List (Job.ResearchJob × List String))
    (hsent : ∃ more, sending₀.sent = sent ++ more ∧
      (∀ handed ∈ more, handed.1.recurringSearchId.isSome) ∧ more.length = launched) :
    (Job.RunDueSearches.runAll dailyQuota now due launched).run.Obeys sending
      (Handed sent) sending₀ := by
  obtain ⟨first, hfirst, hlinked, hlength⟩ := hsent
  induction due generalizing launched sending₀ first with
  | nil => exact ⟨first, hfirst, hlinked, fun _ h => by cases h; exact hlength⟩
  | cons search due ih =>
      rw [Job.RunDueSearches.runAll]
      refine Fallible.obeys_bind (runOne_sent dailyQuota now search) ?_ ?_
      · rintro later count ⟨more, hmore, hmoreLinked, hcount⟩
        refine ih (launched + count) (first ++ more) ?_ ?_ ?_
        · rw [hmore, hfirst, List.append_assoc]
        · intro handed hmem
          exact (List.mem_append.mp hmem).elim (hlinked handed) (hmoreLinked handed)
        · rw [List.length_append, hlength, hcount count rfl]
      · rintro later e ⟨more, hmore, hmoreLinked, -⟩
        refine ⟨first ++ more, ?_, ?_, fun _ h => nomatch h⟩
        · rw [hmore, hfirst, List.append_assoc]
        · intro handed hmem
          exact (List.mem_append.mp hmem).elim (hlinked handed) (hmoreLinked handed)

theorem runDue_sent (dailyQuota : Nat) (hfresh : sending₀.sent = []) :
    (Job.RunDueSearches.execute dailyQuota).run.Obeys sending
      (fun later result => Sent .runDue later (.tick result)) sending₀ := by
  unfold Job.RunDueSearches.execute
  simp only [Fallible.run_lift_bind, Fallible.run_orFail_bind, Job.ask, Program.call_bind,
    Program.done_bind, Program.obeys_call]
  refine ⟨trivial, fun now => ⟨trivial, ?_⟩⟩
  rintro (e | due)
  · trivial
  have hnone : ∀ handed ∈ ([] : List (Job.ResearchJob × List String)),
      handed.1.recurringSearchId.isSome := fun _ h => absurd h List.not_mem_nil
  refine (runAll_sent dailyQuota now due 0 [] ⟨[], hfresh, hnone, rfl⟩).mono ?_
  rintro later (e | launched) ⟨more, hmore, hlinked, hcount⟩
  · trivial
  · rw [List.nil_append] at hmore
    rw [← hmore] at hlinked hcount
    exact ⟨hcount launched rfl, hlinked⟩

end Operations

theorem program_sent (config : Job.JobConfig) (op : Job.JobOp) :
    (op.program config).Obeys sending (Sent op) .fresh := by
  cases op with
  | launch userId keyword mode =>
      exact (launchSearch_sent config.dailyQuota userId keyword mode rfl).bind fun _ _ h => h
  | answer userId jobId text =>
      exact (answerClarification_sent userId jobId text rfl).bind fun _ _ h => h
  | runDue => exact (runDue_sent config.dailyQuota rfl).bind fun _ _ h => h
  | _ => exact (silent_sent _).mono fun _ _ _ => trivial

-- What an operation has found is filed under what it looked for, and what it has handed
-- over is in the queue.
structure Queued (queue : List ResearchTask) (sending : Sending) : Prop where
  filed : ∀ id job, sending.found = some (id, job) → job.id = id
  queued : (tasksOf sending.sent).Sublist queue

theorem Queued.grow {queue : List ResearchTask} {sending : Sending} (h : Queued queue sending)
    (more : List ResearchTask) : Queued (queue ++ more) sending :=
  ⟨h.filed, h.queued.trans (List.sublist_append_left queue more)⟩

section Queue

variable [Pydantic] (wiring : Wiring)

-- A call leaves the queue as it is, or at its end what it hands over.
theorem handle_queue (request : Job.JobCall) (wired : Wired) :
    ∃ more, (wiring.handle request wired).2.queue = wired.queue ++ more := by
  cases request with
  | dispatch job seenUrls => exact ⟨_, rfl⟩
  | _ => exact ⟨[], (List.append_nil _).symm⟩

theorem Queued.handle {wired : Wired} {phase : Sending} (h : Queued wired.queue phase)
    (request : Job.JobCall) :
    Queued (wiring.handle request wired).2.queue
      (sending.next phase ⟨request, (wiring.handle request wired).1⟩) := by
  cases request with
  | find id =>
      change Queued wired.queue (sending.next phase ⟨.find id, (wiring.env.handle _ wired.world).1⟩)
      rcases hanswer : (wiring.env.handle (.find id) wired.world).1 with e | _ | job
      · exact h
      · exact h
      · refine ⟨?_, h.queued⟩
        rintro _ _ ⟨⟩
        exact (Job.JobEnv.handle_find hanswer).2
  | dispatch job seenUrls =>
      rw [handle_dispatch wiring]
      obtain hsent | ⟨e, task, hsent, -⟩ := dispatch_cases wiring wired.world job seenUrls
      · rw [hsent]
        refine ⟨h.filed, ?_⟩
        change (tasksOf (phase.sent ++ [(job, seenUrls)])).Sublist _
        rw [tasksOf_append]
        exact h.queued.append (List.Sublist.refl _)
      · rw [hsent]
        exact h.grow task.toList
  | _ => exact h

end Queue

-- What a success says of the queue: a launch or a clarification has put its task there,
-- and as many tasks of recurring searches as are reported launched are in it.
def Acknowledged (queue : List ResearchTask) : Job.JobOp → Job.JobOutcome → Prop
  | .launch _ keyword mode, .launch (.ok job) =>
      { jobId := job.id.text, keyword := trim keyword, requestId := job.id.text
        mode := modeName mode, clarification := none, recurring := false, seenUrls := [] } ∈ queue
  | .answer _ jobId text, .answer (.ok _) =>
      ∃ task ∈ queue, task.jobId = jobId.text ∧ task.requestId = jobId.text ∧
        task.clarification = some (trim text)
  | .runDue, .tick (.ok launched) =>
      ∃ tasks : List ResearchTask, tasks.Sublist queue ∧ tasks.length = launched ∧
        ∀ task ∈ tasks, task.recurring = true
  | _, _ => True

theorem Queued.acknowledged {queue : List ResearchTask} {phase : Sending} (h : Queued queue phase)
    {op : Job.JobOp} {outcome : Job.JobOutcome} (hsent : Sent op phase outcome) :
    Acknowledged queue op outcome := by
  have hmem : ∀ job seenUrls, phase.sent = [(job, seenUrls)] →
      ResearchTask.ofJob job seenUrls ∈ queue := by
    intro job seenUrls hphase
    have hqueued := h.queued
    rw [hphase] at hqueued
    exact hqueued.subset (List.mem_singleton.mpr rfl)
  cases op <;> cases outcome <;> try trivial
  case launch.launch userId keyword mode result =>
    obtain _ | job := result
    · trivial
    obtain ⟨hphase, hkeyword, hmode, hanswer, hlink⟩ := hsent
    have htask := hmem job [] hphase
    unfold ResearchTask.ofJob at htask
    rw [hkeyword, hmode, hanswer, hlink] at htask
    exact htask
  case answer.answer userId jobId text result =>
    obtain _ | job := result
    · trivial
    obtain ⟨found, seenUrls, hfound, hphase, hid, hanswer⟩ := hsent
    have hjobId : job.id = jobId := hid.trans (h.filed jobId found hfound)
    refine ⟨_, hmem job seenUrls hphase, ?_, ?_, hanswer⟩
    · exact congrArg Uuid.text hjobId
    · exact congrArg Uuid.text hjobId
  case runDue.tick result =>
    obtain _ | launched := result
    · trivial
    obtain ⟨hcount, hlinked⟩ := hsent
    refine ⟨tasksOf phase.sent, h.queued, ?_, ?_⟩
    · rw [tasksOf, List.length_map, hcount]
    · intro task htask
      obtain ⟨handed, hhanded, rfl⟩ := List.mem_map.mp htask
      exact hlinked handed hhanded

-- What a user or the tick is told has been handed over is in the agent's queue, whatever
-- was lost on the way and whatever ran besides.
theorem acknowledged_enqueued [Pydantic] {ι : Type} [DecidableEq ι] (wiring : Wiring)
    (config : Job.JobConfig) (world : Job.JobWorld) (ops : ι → Job.JobOp) (schedule : List ι) :
    let c := (wiredRuns config world ops).run wiring.handle schedule
    ∀ i, (c.threads i).rest.Stops (Acknowledged c.store.queue (ops i)) := by
  intro c i
  have hstep : ∀ (s : Wired) (pasts : ι → List (Event Job.JobPorts)) (j : ι) request,
      (∀ i, Queued s.queue (Config.phases sending (fun _ => Sending.fresh) pasts i)) →
        ∀ i, Queued (wiring.handle request s).2.queue
          (Config.phases sending (fun _ => Sending.fresh)
            (Function.update pasts j (pasts j ++ [⟨request, (wiring.handle request s).1⟩])) i) := by
    intro s pasts j request h i
    rw [Config.phases_update]
    by_cases hi : i = j
    · subst hi
      rw [Function.update_self]
      exact (h i).handle wiring request
    · rw [Function.update_of_ne hi]
      obtain ⟨more, hmore⟩ := handle_queue wiring request s
      rw [hmore]
      exact (h i).grow more
  obtain ⟨hobeys, hqueued⟩ := Config.Obeys.run
    (Config.obeys_start (fun i => program_sent config (ops i)) ⟨world, []⟩)
    (fun wired pasts => ∀ i,
      Queued wired.queue (Config.phases sending (fun _ => Sending.fresh) pasts i))
    (fun s pasts j request h _ _ => hstep s pasts j request h)
    (Config.respects_true wiring.handle (wiredRuns config world ops) schedule)
    (fun _ => ⟨fun _ _ h => (nomatch h), List.nil_sublist _⟩)
  have hstops := (hobeys i).stops
  change (c.threads i).rest.Stops _ at hstops
  cases hrest : (c.threads i).rest with
  | call request next => trivial
  | done outcome =>
      rw [hrest] at hstops
      exact (hqueued i).acknowledged hstops

-- A visitor launches a search, and the answer of the agent's API is lost on its way.
namespace Sample

@[reducible] def pydantic : Pydantic where
  laxBool _ := none

def wiring (exchange : Exchange) : Wiring where
  env := Job.Sample.env .postgres
  dispatcher := HttpJobDispatcher.new "http://agent:8000/" "internal"
  api := ⟨"internal", 1000, by decide⟩
  exchange _ := exchange
  queues _ := true

def launching (_ : Unit) : Job.JobOp := .launch Job.Sample.visitor " lean 4 " .agent

-- The job, created at the second reading of the clock.
def launched : Job.ResearchJob :=
  { Job.Sample.job with
    id := Job.Sample.uuid 0
    userId := Job.Sample.visitor
    keyword := "lean 4"
    mode := .agent
    createdAt := truncSubsecs6 (Job.Sample.clock 1) }

def launchedJob : Program Job.JobPorts Job.JobOutcome → Option Job.ResearchJob
  | .done (.launch (.ok job)) => some job
  | _ => none

theorem launchedJob_eq_some {p : Program Job.JobPorts Job.JobOutcome} {job : Job.ResearchJob}
    (h : launchedJob p = some job) : p = .done (.launch (.ok job)) := by
  unfold launchedJob at h
  split at h
  · rw [Option.some.inj h]
  · cases h

def task : ResearchTask where
  jobId := (Job.Sample.uuid 0).text
  keyword := "lean 4"
  requestId := (Job.Sample.uuid 0).text
  mode := "agent"
  clarification := none
  recurring := false
  seenUrls := []

end Sample

-- A lost answer leaves the task in the queue, though the dispatch failed.
theorem tasks_carried_launch :
    letI := Sample.pydantic
    let wiring := Sample.wiring (.unanswered "timed out")
    let schedule := List.replicate 8 ()
    let runs := wiredRuns Job.Sample.config Job.Sample.world Sample.launching
    let c := runs.run wiring.handle schedule
    c.store.queue = [Sample.task] ∧ accepted (runs.history wiring.handle schedule) = [] ∧
      c.store.queue.Sublist (tasksOf (dispatches (runs.history wiring.handle schedule))) := by
  let := Sample.pydantic
  intro wiring schedule runs c
  have hcarried := tasks_carried wiring Job.Sample.config Job.Sample.world Sample.launching schedule
  exact ⟨by decide +kernel, by decide +kernel, hcarried.2.2⟩

theorem acknowledged_enqueued_launch :
    letI := Sample.pydantic
    let c := (wiredRuns Job.Sample.config Job.Sample.world Sample.launching).run
      (Sample.wiring .answered).handle (List.replicate 8 ())
    (c.threads ()).rest = .done (.launch (.ok Sample.launched)) ∧ Sample.task ∈ c.store.queue := by
  let := Sample.pydantic
  intro c
  have hacknowledged := acknowledged_enqueued (Sample.wiring .answered) Job.Sample.config
    Job.Sample.world Sample.launching (List.replicate 8 ()) ()
  have hdone : (c.threads ()).rest = .done (.launch (.ok Sample.launched)) :=
    Sample.launchedJob_eq_some (by decide +kernel)
  change (c.threads ()).rest.Stops _ at hacknowledged
  rw [hdone] at hacknowledged
  have htask : { Sample.task with keyword := trim " lean 4 " } ∈ c.store.queue := hacknowledged
  have htrim : trim " lean 4 " = "lean 4" := by decide +kernel
  rw [htrim] at htask
  exact ⟨hdone, htask⟩

end AgentBoilerplate.System
