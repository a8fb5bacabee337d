import AgentBoilerplate.Collections.FirstWriter
import AgentBoilerplate.Job.Retries

namespace AgentBoilerplate.Job

open Effects Collections

variable {config : JobConfig} {env : JobEnv} {world : JobWorld} {jobId : Uuid}

theorem appendStep_of (steps : PerJob AgentStep) (jobId : Uuid) (step : AgentStep) (id : Uuid) :
    (appendStep steps jobId step).of id =
      if id = jobId then FirstWriter.record AgentStep.seq (steps.of id) step else steps.of id := by
  unfold appendStep FirstWriter.record
  by_cases hid : id = jobId
  · rw [if_pos hid, hid]
    dsimp only
    split
    · rfl
    · rw [PerJob.of, Table.get_insert, if_pos rfl]
      rfl
  · rw [if_neg hid]
    dsimp only
    split
    · rfl
    · rw [PerJob.of, Table.get_insert, if_neg hid]
      rfl

theorem remove_of (steps : PerJob AgentStep) (jobId id : Uuid) :
    PerJob.of (steps.remove jobId) id = if id = jobId then [] else steps.of id := by
  rw [PerJob.of, Table.get_remove]
  by_cases hid : id = jobId
  · rw [if_pos hid, if_pos hid]
    rfl
  · rw [if_neg hid, if_neg hid]
    rfl

-- The calls that change a journal.
def journals : JobCall → Bool
  | .appendStep _ _ | .clearSteps _ => true
  | _ => false

theorem handle_steps {request : JobCall} (h : journals request = false) (world : JobWorld) :
    (env.handle request world).2.steps = world.steps := by
  cases request with
  | appendStep _ _ | clearSteps _ => cases h
  | utcNow | newUuid => rfl
  | _ =>
      simp only [JobEnv.handle, JobEnv.attempt]
      split <;> rfl

-- A part of an operation that changes no journal.
def KeepsJournals {α : Type} (p : Program JobPorts α) : Prop :=
  ∀ past, p.Calls (fun _ request => journals request = false) past

theorem KeepsJournals.run {α : Type} {p : Program JobPorts α} (h : KeepsJournals p)
    (world : JobWorld) : (p.run env.handle world).2.steps = world.steps := by
  have hpast : ∀ past, p.Calls (fun _ request => journals request = false) past →
      (p.run env.handle world).2.steps = world.steps := by
    clear h
    induction p generalizing world with
    | done value => exact fun _ _ => rfl
    | call request next ih =>
        intro past hcalls
        rw [Program.run_call, ih _ _ _ (hcalls.2 _), handle_steps hcalls.1]
  exact hpast [] (h [])

section Operations

variable {α β ε : Type}

theorem keeps_done (value : α) : KeepsJournals (.done value) := fun _ => trivial

theorem keeps_bind {p : Program JobPorts α} {f : α → Program JobPorts β} (hp : KeepsJournals p)
    (hf : ∀ value, KeepsJournals (f value)) : KeepsJournals (p >>= f) :=
  fun past => (hp past).bind fun later value _ => hf value later

theorem keeps_andThen {x : UseCase ε α} {f : α → UseCase ε β} (hx : KeepsJournals x.run)
    (hf : ∀ value, KeepsJournals (f value).run) : KeepsJournals (x >>= f).run := by
  rw [ExceptT.run_bind]
  refine keeps_bind hx fun result => ?_
  cases result with
  | error e => exact keeps_done _
  | ok value => exact hf value

theorem keeps_ask {request : JobCall} (h : journals request = false) :
    KeepsJournals (ask request) := fun _ => ⟨h, fun _ => trivial⟩

theorem keeps_lift {p : Program JobPorts α} (hp : KeepsJournals p) :
    KeepsJournals (liftM p : UseCase ε α).run := by
  have hrun : (liftM p : UseCase ε α).run = p >>= fun value => .done (.ok value) := rfl
  rw [hrun]
  exact keeps_bind hp fun _ => keeps_done _

theorem keeps_orFail {wrap : PortError → ε} {p : Program JobPorts (Except PortError α)}
    (hp : KeepsJournals p) : KeepsJournals (orFail wrap p).run := by
  refine keeps_bind hp fun answer => ?_
  cases answer <;> exact keeps_done _

theorem keeps_quiet {p : Program JobPorts α}
    (h : ∀ past, p.Calls (fun _ request => quiet request = true) past) : KeepsJournals p := by
  refine fun past => (h past).mono fun _ request hquiet => ?_
  cases request with
  | appendStep _ _ | clearSteps _ => cases hquiet
  | _ => rfl

theorem keeps_findJob (jobId : Uuid) : KeepsJournals (IngestResults.findJob jobId).run := by
  refine keeps_andThen (keeps_orFail (keeps_ask rfl)) fun found => ?_
  cases found <;> exact keeps_done _

theorem keeps_failNow (job : ResearchJob) (error : String) :
    KeepsJournals (job.failNow error) := by
  unfold ResearchJob.failNow
  split
  · exact keeps_done _
  · exact keeps_bind (keeps_ask rfl) fun _ => keeps_done _

theorem keeps_dispatchOrFail (infrastructure : PortError → ε) (dispatchFailed : ε)
    (job : ResearchJob) (seenUrls : List String) :
    KeepsJournals (dispatchOrFail infrastructure dispatchFailed job seenUrls).run := by
  refine keeps_andThen (keeps_lift (keeps_ask rfl)) fun answer => ?_
  cases answer with
  | ok _ => exact keeps_done _
  | error e =>
      refine keeps_andThen (keeps_lift (keeps_failNow _ _)) fun job => ?_
      exact keeps_andThen (keeps_orFail (keeps_ask rfl)) fun _ => keeps_done _

theorem keeps_reap (timeoutSecs : Nat) (stale : List ResearchJob) (reaped : Nat) :
    KeepsJournals (FailStaleJobs.reap timeoutSecs stale reaped).run := by
  induction stale generalizing reaped with
  | nil => exact keeps_done _
  | cons job stale ih =>
      refine keeps_andThen (keeps_lift (keeps_failNow _ _)) fun job => ?_
      exact keeps_andThen (keeps_orFail (keeps_ask rfl)) fun _ => ih _

-- The operations on a job that neither record a step nor clear the journal.
theorem op_keepsJournals {op : JobOp} (hlaunches : op.launches = false)
    (hrecords : ∀ id step, op ≠ .recordStep id step)
    (hanswers : ∀ userId id text, op ≠ .answer userId id text) :
    KeepsJournals (op.program config) := by
  cases op with
  | launch _ _ _ | runDue => cases hlaunches
  | recordStep id step => exact absurd rfl (hrecords id step)
  | answer userId id text => exact absurd rfl (hanswers userId id text)
  | start jobId =>
      refine keeps_bind (keeps_andThen (keeps_findJob _) fun job => ?_) fun _ => keeps_done _
      exact keeps_orFail (keeps_ask rfl)
  | complete jobId results =>
      refine keeps_bind (keeps_andThen (keeps_findJob _) fun job => ?_) fun _ => keeps_done _
      refine keeps_andThen (keeps_orFail (keeps_ask rfl)) fun _ => ?_
      refine keeps_andThen (keeps_lift (keeps_bind (keeps_ask rfl) fun _ => keeps_done _)) fun job => ?_
      refine keeps_andThen (keeps_orFail (keeps_ask rfl)) fun _ => ?_
      exact keeps_lift (keeps_quiet (maybeSendDigest_quiet _ _))
  | requestInput jobId question =>
      refine keeps_bind (keeps_andThen (keeps_findJob _) fun job => ?_) fun _ => keeps_done _
      split
      · exact keeps_done _
      · exact keeps_orFail (keeps_ask rfl)
  | recordUsage jobId usage =>
      refine keeps_bind (keeps_andThen (keeps_findJob _) fun job => ?_) fun _ => keeps_done _
      exact keeps_orFail (keeps_ask rfl)
  | fail jobId error =>
      refine keeps_bind (keeps_andThen (keeps_findJob _) fun job => ?_) fun _ => keeps_done _
      refine keeps_andThen (keeps_lift (keeps_failNow _ _)) fun job => ?_
      exact keeps_orFail (keeps_ask rfl)
  | failStale =>
      refine keeps_bind (keeps_andThen (keeps_lift (keeps_ask rfl)) fun now => ?_) fun _ =>
        keeps_done _
      split
      · exact keeps_done _
      · exact keeps_andThen (keeps_orFail (keeps_ask rfl)) fun stale => keeps_reap _ _ _

end Operations

-- A step was recorded exactly when the operation says so.
theorem recordStep_serve (id : Uuid) (step : AgentStep) :
    (env.serve config world (.recordStep id step)).1 = .ingest (.ok ()) ∧
        (env.serve config world (.recordStep id step)).2.steps = appendStep world.steps id step ∨
      (env.serve config world (.recordStep id step)).1 ≠ .ingest (.ok ()) ∧
        (env.serve config world (.recordStep id step)).2.steps = world.steps := by
  have hrecord : (IngestResults.recordStep id step).run.Yields env.handle
      (fun result later => result = .ok () ∧ later.steps = appendStep world.steps id step ∨
        result ≠ .ok () ∧ later.steps = world.steps) world := by
    refine yields_findJob (fun e => Or.inr ⟨by simp, rfl⟩) fun row hrow => ?_
    simp only [Fallible.run_orFail, ask, Program.call_bind, Program.done_bind]
    exact yields_appendStep (fun e => Or.inr ⟨by simp, rfl⟩) (Or.inl ⟨rfl, rfl⟩)
  have hserve : ((JobOp.recordStep id step).program config).Yields env.handle
      (fun outcome later =>
        outcome = .ingest (.ok ()) ∧ later.steps = appendStep world.steps id step ∨
          outcome ≠ .ingest (.ok ()) ∧ later.steps = world.steps) world := by
    refine (Program.yields_bind _ _ _ _).mpr (hrecord.mono fun result later hresult => ?_)
    refine hresult.imp (fun h => ⟨congrArg _ h.1, h.2⟩) fun h => ⟨fun houtcome => h.1 ?_, h.2⟩
    injection houtcome
  exact hserve

-- An answer leaves a journal as it is, or clears it.
theorem answer_serve (userId id : Uuid) (text : String) :
    (env.serve config world (.answer userId id text)).2.steps = world.steps ∨
      (env.serve config world (.answer userId id text)).2.steps = world.steps.remove id := by
  have hkept : ∀ {p : Program JobPorts (Except AnswerError ResearchJob)} {later : JobWorld},
      KeepsJournals p → p.Yields env.handle (fun _ last => last.steps = later.steps) later :=
    fun hp => hp.run _
  have hanswer : (answerClarification userId id text).run.Yields env.handle
      (fun _ later => later.steps = world.steps ∨ later.steps = world.steps.remove id) world := by
    simp only [answerClarification, Fallible.run_orFail_bind, ask, Program.call_bind,
      Program.done_bind]
    refine yields_find (fun e => Or.inl rfl) ?_
    dsimp only
    cases (world.jobs.get id).filter fun job => job.userId = userId with
    | none => exact Or.inl rfl
    | some row =>
        dsimp only
        cases row.provideAnswer text with
        | mk result answered =>
        cases result with
        | error e => exact Or.inl rfl
        | ok _ =>
            simp only [Fallible.run_orFail_bind, Program.call_bind, Program.done_bind]
            refine yields_clearSteps (fun e => Or.inl rfl) (Program.Yields.mono (hkept ?_)
              fun _ later hlater => Or.inr hlater)
            refine fun past => ⟨rfl, fun written => ?_⟩
            cases written with
            | error e => trivial
            | ok _ =>
                dsimp only
                cases answered.recurringSearchId with
                | none => exact keeps_dispatchOrFail _ _ _ _ _
                | some rsId =>
                    simp only [Fallible.run_orFail_bind, Program.call_bind, Program.done_bind]
                    refine ⟨rfl, fun urls => ?_⟩
                    cases urls with
                    | error e => trivial
                    | ok seenUrls => exact keeps_dispatchOrFail _ _ _ _ _
  have hserve : ((JobOp.answer userId id text).program config).Yields env.handle
      (fun _ later => later.steps = world.steps ∨ later.steps = world.steps.remove id) world :=
    (Program.yields_bind _ _ _ _).mpr hanswer
  exact hserve

-- A completion that was not recorded leaves every job as it was.
theorem complete_serve (id : Uuid) (results : List SearchResult) :
    (env.serve config world (.complete id results)).1 = .ingest (.ok ()) ∨
      (env.serve config world (.complete id results)).2.jobs = world.jobs := by
  have hcomplete : (IngestResults.complete id results).run.Yields env.handle
      (fun result later => result = .ok () ∨ later.jobs = world.jobs) world := by
    refine yields_findJob (fun e => Or.inr rfl) fun row hrow => ?_
    simp only [Fallible.run_orFail_bind, Fallible.run_lift_bind, ResearchJob.completeNow, ask,
      Program.call_bind, Program.done_bind, Program.pure_eq]
    refine yields_quiet rfl fun answer stored hstored _ => ?_
    cases answer with
    | error e => exact Or.inr hstored
    | ok _ =>
        refine yields_utcNow fun read hread _ => yields_update (fun e => ?_) ?_
        · exact Or.inr (hread.trans hstored)
        · refine (Program.yields_bind _ _ _ _).mpr (Program.Yields.mono (quiet_yields
            (maybeSendDigest_quiet _ _ [])) fun _ later _ => Or.inl rfl)
  have hserve : ((JobOp.complete id results).program config).Yields env.handle
      (fun outcome later => outcome = .ingest (.ok ()) ∨ later.jobs = world.jobs) world := by
    refine (Program.yields_bind _ _ _ _).mpr (hcomplete.mono fun result later hresult => ?_)
    exact hresult.imp_left (congrArg _)
  exact hserve

theorem Touches.completed {now : Int} {op : JobOp} {row later : ResearchJob}
    (h : Touches config now op row later) (hwas : row.status ≠ .completed)
    (hcompleted : later.status = .completed) : ∃ results, op = .complete row.id results := by
  have hcall : ∀ (call : Transition) {row : ResearchJob}, row.status ≠ .completed →
      (∀ clock, call ≠ .complete clock) → (row.apply call).2.status ≠ .completed := by
    intro call row hwas hcall hdone
    rcases (ResearchJob.apply_completed row call).mp hdone with hold | ⟨clock, rfl⟩
    · exact hwas hold
    · exact hcall clock rfl
  cases op with
  | complete jobId results =>
      obtain ⟨rfl, -⟩ := h
      exact ⟨results, rfl⟩
  | start jobId =>
      obtain ⟨-, rfl⟩ := h
      exact absurd hcompleted (hcall .start hwas (by simp))
  | requestInput jobId question =>
      obtain ⟨-, hasked⟩ := h
      have hne := hcall (.requestInput question) hwas (by simp)
      rw [ResearchJob.apply, hasked] at hne
      exact absurd hcompleted hne
  | recordUsage jobId usage =>
      obtain ⟨-, rfl⟩ := h
      exact absurd hcompleted hwas
  | fail jobId error =>
      obtain ⟨-, clock, rfl⟩ := h
      exact absurd hcompleted (hcall (.fail clock error) hwas (by simp))
  | answer userId jobId answer =>
      obtain ⟨-, answered, hanswered, hlater⟩ := h
      have hne := hcall (.provideAnswer answer) hwas (by simp)
      rw [ResearchJob.apply, hanswered] at hne
      rcases hlater with rfl | ⟨clock, error, rfl⟩
      · exact absurd hcompleted hne
      · exact absurd hcompleted (hcall (.fail clock error) hne (by simp))
  | failStale =>
      obtain ⟨-, -, clock, error, rfl⟩ := h
      exact absurd hcompleted (hcall (.fail clock error) hwas (by simp))
  | recordStep _ _ | launch _ _ _ | runDue => exact h.elim

-- A job is completed only by a completion that was recorded.
theorem serve_completed {op : JobOp} (hop : op.launches = false) {row : ResearchJob}
    (hrow : (env.serve config world op).2.jobs.get jobId = some row)
    (hcompleted : row.status = .completed) :
    (∃ old, world.jobs.get jobId = some old ∧ old.status = .completed) ∨
      (∃ results, op = .complete jobId results) ∧
        (env.serve config world op).1 = .ingest (.ok ()) := by
  have hmoved := serve_moved config env world hop
  cases hold : world.jobs.get jobId with
  | none =>
      rw [hmoved.missing jobId hold] at hrow
      cases hrow
  | some old =>
      by_cases hwas : old.status = .completed
      · exact Or.inl ⟨old, rfl, hwas⟩
      · obtain ⟨next, hnext, htouched⟩ := hmoved.stored jobId old hold
        have heq : next = row := Option.some.inj (hnext.symm.trans hrow)
        subst heq
        refine Or.inr ?_
        cases htouched with
        | inl hsame =>
            rw [hsame] at hcompleted
            exact absurd hcompleted hwas
        | inr htouches =>
            obtain ⟨results, rfl⟩ := htouches.completed hwas hcompleted
            refine ⟨⟨results, by rw [get_id hold]⟩, ?_⟩
            cases complete_serve old.id results with
            | inl hok => exact hok
            | inr hjobs =>
                rw [hjobs, hold] at hrow
                rw [← Option.some.inj hrow] at hcompleted
                exact absurd hcompleted hwas

end AgentBoilerplate.Job
