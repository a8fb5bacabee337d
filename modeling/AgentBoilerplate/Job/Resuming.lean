import AgentBoilerplate.Job.Answering

namespace AgentBoilerplate.Job

open Effects Collections

-- The write that stores an answer finds the job still waiting for it.
def StillAwaiting (world : JobWorld) : JobCall → Prop
  | .update job => job.status = .pending →
      ∃ row ∈ world.jobs.rows, row.id = job.id ∧ row.status = .awaitingInput
  | _ => True

instance (world : JobWorld) : (request : JobCall) → Decidable (StillAwaiting world request)
  | .update job => inferInstanceAs (Decidable (job.status = .pending →
      ∃ row ∈ world.jobs.rows, row.id = job.id ∧ row.status = .awaitingInput))
  | .insert _ | .find _ | .countCreatedSince _ _ | .listUnfinishedOlderThan _ | .storeResults _ _
  | .appendStep _ _ | .clearSteps _ | .addUsage _ _ | .recentUrlsForRecurring _ _
  | .findRecurring _ | .listDue _ | .markRan _ _ | .listChannels _ | .sendDigest _ _
  | .notify _ _ | .dispatch _ _ | .utcNow | .newUuid => isTrue trivial

-- The operation has written the job, and the job it has written is answered.
def Wrote (past : List (Event JobPorts)) (job : ResearchJob) : Prop :=
  (⟨.update job, .ok ()⟩ : Event JobPorts) ∈ past

def Stored (past : List (Event JobPorts)) (job : ResearchJob) : Prop :=
  Wrote past job ∧ job.status = .pending

-- An answering operation stores one answer to the job it has found, dispatches
-- that job once, and perhaps fails it.
def AnswersJob (jobId : Uuid) (past : List (Event JobPorts)) : JobCall → Prop
  | .update job =>
      (∃ found, (⟨.find jobId, .ok (some found)⟩ : Event JobPorts) ∈ past ∧ job.id = found.id) ∧
        (job.status = .pending ∧ (∀ other, ¬ Wrote past other) ∨
          job.status = .failed ∧ ∃ answered, Stored past answered ∧ job.answer = answered.answer)
  | .dispatch job _ => Stored past job ∧
      ∀ other urls answer, (⟨.dispatch other urls, answer⟩ : Event JobPorts) ∉ past
  | .insert _ | .addUsage _ _ => False
  | _ => True

section Shape

variable {past : List (Event JobPorts)} {jobId : Uuid} {job : ResearchJob}

theorem dispatchOrFail_answers {seenUrls : List String}
    (hfound : ∃ found, (⟨.find jobId, .ok (some found)⟩ : Event JobPorts) ∈ past ∧
      job.id = found.id)
    (hstored : Stored past job)
    (hfirst : ∀ other urls answer, (⟨.dispatch other urls, answer⟩ : Event JobPorts) ∉ past) :
    (dispatchOrFail AnswerError.infrastructure .dispatchFailed job seenUrls).run.Calls
      (AnswersJob jobId) past := by
  simp only [dispatchOrFail, Fallible.run_lift_bind, ask, Program.call_bind, Program.done_bind]
  refine ⟨⟨hstored, hfirst⟩, fun dispatched => ?_⟩
  cases dispatched with
  | ok _ => trivial
  | error e =>
      have hnot : ¬ job.status = .completed := by
        rw [hstored.2]
        decide
      simp only [Fallible.run_lift_bind, ResearchJob.failNow, if_neg hnot, ask, Program.call_bind,
        Program.done_bind, Program.pure_eq, Fallible.run_orFail_bind]
      refine ⟨trivial, fun clock => ⟨?_, fun answer => ?_⟩⟩
      · obtain ⟨found, hmem, hid⟩ := hfound
        have hwrote := hstored.1
        rw [ResearchJob.fail, if_neg hnot]
        refine ⟨⟨found, by simp [hmem], hid⟩, Or.inr ⟨rfl, job, ⟨?_, hstored.2⟩, rfl⟩⟩
        unfold Wrote at hwrote ⊢
        simp [hwrote]
      · cases answer <;> trivial

theorem answer_answers (userId jobId : Uuid) (answer : String) :
    (answerClarification userId jobId answer).run.Calls (AnswersJob jobId) [] := by
  simp only [answerClarification, Fallible.run_orFail_bind, ask, Program.call_bind,
    Program.done_bind]
  refine ⟨trivial, fun answer' => ?_⟩
  cases answer' with
  | error e => trivial
  | ok found =>
      dsimp only
      cases hfound : found.filter fun job => job.userId = userId with
      | none => trivial
      | some row =>
          obtain rfl : found = some row := (Option.filter_eq_some_iff.mp hfound).1
          dsimp only
          cases hresult : row.provideAnswer answer with
          | mk result answered =>
          cases result with
          | error e => trivial
          | ok _ =>
              obtain ⟨-, hanswered⟩ := ResearchJob.provideAnswer_ok hresult
              have hid : answered.id = row.id := by rw [hanswered]
              have hpending : answered.status = .pending := by rw [hanswered]
              simp only [Fallible.run_orFail_bind, Program.call_bind, Program.done_bind]
              refine ⟨trivial, fun cleared => ?_⟩
              cases cleared with
              | error e => trivial
              | ok _ =>
              refine ⟨⟨⟨row, by simp, hid⟩, Or.inl ⟨hpending, fun other => ?_⟩⟩, fun wrote => ?_⟩
              · simp [Wrote]
              cases wrote with
              | error e => trivial
              | ok _ =>
              dsimp only
              cases answered.recurringSearchId with
              | none =>
                  exact dispatchOrFail_answers ⟨row, by simp, hid⟩ ⟨by simp [Wrote], hpending⟩
                    (by simp)
              | some rsId =>
                  simp only [Fallible.run_orFail_bind, Program.call_bind, Program.done_bind]
                  refine ⟨trivial, fun urls => ?_⟩
                  cases urls with
                  | error e => trivial
                  | ok seenUrls =>
                      exact dispatchOrFail_answers ⟨row, by simp, hid⟩
                        ⟨by simp [Wrote], hpending⟩ (by simp)

end Shape

section Runs

variable {env : JobEnv} {config : JobConfig} {ι : Type} {jobId : Uuid} {world : JobWorld}

theorem handle_update_cases (env : JobEnv) (world : JobWorld) (job : ResearchJob) :
    (∃ e, env.handle (.update job) world = (.error e, world.called)) ∨
      env.handle (.update job) world =
        (.ok (), { world.called with jobs := world.jobs.update env.adapter job }) := by
  simp only [JobEnv.handle, JobEnv.attempt]
  cases env.fault world.calls with
  | none => exact Or.inr rfl
  | some e => exact Or.inl ⟨e, rfl⟩

theorem handle_dispatch_cases (env : JobEnv) (world : JobWorld) (job : ResearchJob)
    (seenUrls : List String) :
    (∃ e, env.handle (.dispatch job seenUrls) world = (.error e, world.called)) ∨
      env.handle (.dispatch job seenUrls) world =
        (.ok (), { world.called with dispatched := world.dispatched ++ [(job, seenUrls)] }) := by
  simp only [JobEnv.handle, JobEnv.attempt]
  cases env.fault world.calls with
  | none => exact Or.inr rfl
  | some e => exact Or.inl ⟨e, rfl⟩

theorem handle_dispatched {request : JobCall} (h : ∀ job urls, request ≠ .dispatch job urls) :
    (env.handle request world).2.dispatched = world.dispatched := by
  cases request with
  | dispatch job urls => exact absurd rfl (h job urls)
  | utcNow | newUuid => rfl
  | _ =>
      simp only [JobEnv.handle, JobEnv.attempt]
      split <;> rfl

-- A lookup answers with the job it was asked for.
def FindsJob (event : Event JobPorts) : Prop :=
  ∀ id job, event = ⟨.find id, .ok (some job)⟩ → job.id = id

theorem finds_job (env : JobEnv) (world : JobWorld) (request : JobCall) :
    FindsJob ⟨request, (env.handle request world).1⟩ := by
  intro id job h
  injection h with hrequest hanswer
  subst hrequest
  exact (JobEnv.handle_find (eq_of_heq hanswer)).2

-- No operation has stored its answer yet.
structure Unanswered (jobId : Uuid) (world : JobWorld) (c : JobRuns ι) : Prop where
  stored : ∃ row ∈ c.store.jobs, row.id = jobId
  undispatched : c.store.dispatched = world.dispatched
  unwritten : ∀ i job, ¬ Wrote (c.threads i).past job

-- One operation has stored its answer, and nothing but that answer is dispatched.
structure Answered (jobId : Uuid) (world : JobWorld) (c : JobRuns ι) (i : ι)
    (job : ResearchJob) : Prop where
  wrote : Stored (c.threads i).past job
  stored : ∃ row ∈ c.store.jobs, row.id = jobId ∧ row.status ≠ .awaitingInput ∧
    row.answer = job.answer
  only : ∀ other, Stored (c.threads i).past other → other = job
  alone : ∀ j, j ≠ i → ∀ other, ¬ Wrote (c.threads j).past other
  dispatched : c.store.dispatched = world.dispatched ∨
    ∃ urls answer, (⟨.dispatch job urls, answer⟩ : Event JobPorts) ∈ (c.threads i).past ∧
      c.store.dispatched = world.dispatched ++ [(job, urls)]

structure Resuming (jobId : Uuid) (world : JobWorld) (c : JobRuns ι) : Prop where
  phase : Unanswered jobId world c ∨ ∃ i job, Answered jobId world c i job
  answered : c.Answered FindsJob
  threaded : c.Threaded fun _ past p => p.Asks (AnswersJob jobId past)

variable [DecidableEq ι]

theorem wrote_advance {c : JobRuns ι} {i : ι} {request : JobCall}
    {next : request.Answer → Program JobPorts JobOutcome} (j : ι) (job : ResearchJob) :
    Wrote ((c.advance env.handle i request next).threads j).past job ↔
      Wrote (c.threads j).past job ∨
        j = i ∧ request = .update job ∧ (env.handle (.update job) c.store).1 = .ok () := by
  unfold Wrote
  rw [Config.mem_advance_past]
  refine or_congr_right (and_congr_right fun _ => ?_)
  constructor
  · intro h
    injection h with hrequest hanswer
    subst hrequest
    exact ⟨rfl, (eq_of_heq hanswer).symm⟩
  · rintro ⟨rfl, hanswer⟩
    rw [hanswer]

-- A call that writes no job and dispatches none changes no phase.
theorem Resuming.keep {c : JobRuns ι} {i : ι} {request : JobCall}
    {next : request.Answer → Program JobPorts JobOutcome}
    (h : Unanswered jobId world c ∨ ∃ i job, Answered jobId world c i job)
    (hjobs : (env.handle request c.store).2.jobs = c.store.jobs)
    (hdispatched : (env.handle request c.store).2.dispatched = c.store.dispatched)
    (hwrote : ∀ job, request = .update job → (env.handle (.update job) c.store).1 ≠ .ok ()) :
    Unanswered jobId world (c.advance env.handle i request next) ∨
      ∃ j job, Answered jobId world (c.advance env.handle i request next) j job := by
  have hsame : ∀ j job, Wrote ((c.advance env.handle i request next).threads j).past job ↔
      Wrote (c.threads j).past job := by
    intro j job
    rw [wrote_advance]
    refine or_iff_left ?_
    rintro ⟨-, hrequest, hok⟩
    exact hwrote job hrequest hok
  rcases h with h | ⟨j, job, h⟩
  · refine Or.inl ⟨?_, ?_, fun j job => ?_⟩
    · rw [Config.advance_store, hjobs]
      exact h.stored
    · rw [Config.advance_store, hdispatched]
      exact h.undispatched
    · rw [hsame]
      exact h.unwritten j job
  · refine Or.inr ⟨j, job, ⟨⟨(hsame j job).mpr h.wrote.1, h.wrote.2⟩, ?_, ?_, ?_, ?_⟩⟩
    · rw [Config.advance_store, hjobs]
      exact h.stored
    · rintro other ⟨hother, hpending⟩
      exact h.only other ⟨(hsame j other).mp hother, hpending⟩
    · intro k hk other
      rw [hsame]
      exact h.alone k hk other
    · rw [Config.advance_store, hdispatched]
      rcases h.dispatched with hnone | ⟨urls, answer, hmem, hone⟩
      · exact Or.inl hnone
      · exact Or.inr ⟨urls, answer, (Config.mem_advance_past _ _ _ _ _ _ _).mpr (Or.inl hmem), hone⟩

-- A write gives the row of its job the job's answer and status.
theorem written_row {jobs : Jobs} (adapter : Adapter) {job : ResearchJob}
    (hid : job.id = jobId) (hstored : ∃ row ∈ jobs, row.id = jobId) :
    ∃ row ∈ jobs.update adapter job, row.id = jobId ∧ row.status = job.status ∧
      row.answer = job.answer := by
  obtain ⟨row, hmem, hrow⟩ := hstored
  obtain ⟨next, hnext, hnextid, hlife⟩ := Jobs.update_mem adapter job hmem
  rw [if_pos (hrow.trans hid.symm)] at hlife
  simp only [ResearchJob.lifecycle, Prod.mk.injEq] at hlife
  exact ⟨next, hnext, hnextid.trans hrow, hlife.1, hlife.2.2.2.1⟩

theorem Resuming.write {c : JobRuns ι} {i : ι} {new : ResearchJob}
    {next : Except PortError Unit → Program JobPorts JobOutcome} (h : Resuming jobId world c)
    (hrest : (c.threads i).rest = .call (.update new) next)
    (hguard : StillAwaiting c.store (.update new)) :
    Unanswered jobId world (c.advance env.handle i (.update new) next) ∨
      ∃ j job, Answered jobId world (c.advance env.handle i (.update new) next) j job := by
  obtain ⟨⟨found, hfound, hid⟩, hcase⟩ :
      AnswersJob jobId (c.threads i).past (.update new) := h.threaded.here hrest
  have hnew : new.id = jobId := hid.trans (h.answered i _ hfound jobId found rfl)
  rcases handle_update_cases env c.store new with ⟨e, hresult⟩ | hresult
  · refine Resuming.keep h.phase (by rw [hresult]; rfl) (by rw [hresult]; rfl) ?_
    intro job hjob
    cases hjob
    rw [hresult]
    simp
  have hok : (env.handle (.update new) c.store).1 = .ok () := by rw [hresult]
  have hstore : (c.advance env.handle i (.update new) next).store =
      { c.store.called with jobs := c.store.jobs.update env.adapter new } := by
    rw [Config.advance_store, hresult]
  rcases hcase with ⟨hpending, hfirst⟩ | ⟨hfailed, answered, hstored, hanswer⟩
  · rcases h.phase with hphase | ⟨j, job, hphase⟩
    · refine Or.inr ⟨i, new, ⟨⟨(wrote_advance i new).mpr (Or.inr ⟨rfl, rfl, hok⟩), hpending⟩,
        ?_, ?_, ?_, ?_⟩⟩
      · obtain ⟨row, hrow, hrowid, hstatus, hrowanswer⟩ :=
          written_row env.adapter hnew hphase.stored
        rw [hstore]
        refine ⟨row, hrow, hrowid, ?_, hrowanswer⟩
        rw [hstatus, hpending]
        decide
      · rintro other ⟨hother, -⟩
        rcases (wrote_advance i other).mp hother with hold | ⟨-, heq, -⟩
        · exact absurd hold (hphase.unwritten i other)
        · injection heq with heq
          exact heq.symm
      · intro j hj other hother
        rcases (wrote_advance j other).mp hother with hold | ⟨hji, -⟩
        · exact hphase.unwritten j other hold
        · exact hj hji
      · rw [hstore]
        exact Or.inl hphase.undispatched
    · -- the job has its answer, and the guard says that it still waits for one
      obtain ⟨row, hrow, hrowid, hstatus, -⟩ := hphase.stored
      obtain ⟨waiting, hwaiting, hwaitingid, hawaiting⟩ := hguard hpending
      have heq := c.store.jobs.eq_of_key hrow hwaiting
        (hrowid.trans (hnew.symm.trans hwaitingid.symm))
      rw [heq] at hstatus
      exact absurd hawaiting hstatus
  · rcases h.phase with hphase | ⟨j, job, hphase⟩
    · exact absurd hstored.1 (hphase.unwritten i answered)
    · have hij : i = j := by
        by_contra hne
        exact hphase.alone i hne answered hstored.1
      subst hij
      have hsame : answered = job := hphase.only answered hstored
      have hwrites : ∀ other, Wrote ((c.advance env.handle i (.update new) next).threads i).past
          other → other = new ∨ Wrote (c.threads i).past other := by
        intro other hother
        rcases (wrote_advance i other).mp hother with hold | ⟨-, heq, -⟩
        · exact Or.inr hold
        · injection heq with heq
          exact Or.inl heq.symm
      refine Or.inr ⟨i, job, ⟨⟨(wrote_advance i job).mpr (Or.inl hphase.wrote.1),
        hphase.wrote.2⟩, ?_, ?_, ?_, ?_⟩⟩
      · obtain ⟨old, hold, holdid, -⟩ := hphase.stored
        obtain ⟨row, hrow, hrowid, hstatus, hrowanswer⟩ :=
          written_row env.adapter hnew ⟨old, hold, holdid⟩
        rw [hstore]
        refine ⟨row, hrow, hrowid, ?_, ?_⟩
        · rw [hstatus, hfailed]
          decide
        · rw [hrowanswer, hanswer, hsame]
      · rintro other ⟨hother, hpending⟩
        rcases hwrites other hother with heq | hold
        · rw [heq, hfailed] at hpending
          cases hpending
        · exact hphase.only other ⟨hold, hpending⟩
      · intro j hj other hother
        rcases (wrote_advance j other).mp hother with hold | ⟨hji, -⟩
        · exact hphase.alone j hj other hold
        · exact hj hji
      · rw [hstore]
        rcases hphase.dispatched with hnone | ⟨urls, answer, hmem, hone⟩
        · exact Or.inl hnone
        · exact Or.inr ⟨urls, answer,
            (Config.mem_advance_past _ _ _ _ _ _ _).mpr (Or.inl hmem), hone⟩

theorem Resuming.dispatch {c : JobRuns ι} {i : ι} {new : ResearchJob} {seenUrls : List String}
    {next : Except PortError Unit → Program JobPorts JobOutcome} (h : Resuming jobId world c)
    (hrest : (c.threads i).rest = .call (.dispatch new seenUrls) next) :
    Unanswered jobId world (c.advance env.handle i (.dispatch new seenUrls) next) ∨
      ∃ j job, Answered jobId world (c.advance env.handle i (.dispatch new seenUrls) next) j job := by
  obtain ⟨hstored, hfirst⟩ : AnswersJob jobId (c.threads i).past (.dispatch new seenUrls) :=
    h.threaded.here hrest
  rcases handle_dispatch_cases env c.store new seenUrls with ⟨e, hresult⟩ | hresult
  · refine Resuming.keep h.phase (by rw [hresult]; rfl) (by rw [hresult]; rfl) ?_
    intro job hjob
    cases hjob
  have hstore : (c.advance env.handle i (.dispatch new seenUrls) next).store =
      { c.store.called with dispatched := c.store.dispatched ++ [(new, seenUrls)] } := by
    rw [Config.advance_store, hresult]
  have hsame : ∀ j job, Wrote ((c.advance env.handle i (.dispatch new seenUrls) next).threads
      j).past job ↔ Wrote (c.threads j).past job := by
    intro j job
    rw [wrote_advance]
    refine or_iff_left ?_
    rintro ⟨-, hrequest, -⟩
    cases hrequest
  rcases h.phase with hphase | ⟨j, job, hphase⟩
  · exact absurd hstored.1 (hphase.unwritten i new)
  · have hij : i = j := by
      by_contra hne
      exact hphase.alone i hne new hstored.1
    subst hij
    have hjob : new = job := hphase.only new hstored
    refine Or.inr ⟨i, job, ⟨⟨(hsame i job).mpr hphase.wrote.1, hphase.wrote.2⟩, ?_, ?_, ?_, ?_⟩⟩
    · rw [hstore]
      exact hphase.stored
    · rintro other ⟨hother, hpending⟩
      exact hphase.only other ⟨(hsame i other).mp hother, hpending⟩
    · intro j hj other
      rw [hsame]
      exact hphase.alone j hj other
    · rcases hphase.dispatched with hnone | ⟨urls, answer, hmem, -⟩
      · refine Or.inr ⟨seenUrls, (env.handle (.dispatch new seenUrls) c.store).1, ?_, ?_⟩
        · rw [Config.mem_advance_past, ← hjob]
          exact Or.inr ⟨rfl, rfl⟩
        · rw [hstore, ← hjob]
          show c.store.dispatched ++ [(new, seenUrls)] = _
          rw [hnone]
      · exact absurd hmem (hfirst job urls answer)

theorem Resuming.advance {c : JobRuns ι} {i : ι} {request : JobCall}
    {next : request.Answer → Program JobPorts JobOutcome} (h : Resuming jobId world c)
    (hrest : (c.threads i).rest = .call request next) (hguard : StillAwaiting c.store request) :
    Resuming jobId world (c.advance env.handle i request next) := by
  refine ⟨?_, h.answered.advance (finds_job env c.store request), h.threaded.advance hrest⟩
  have hshape : AnswersJob jobId (c.threads i).past request := h.threaded.here hrest
  cases request with
  | update new => exact h.write hrest hguard
  | dispatch new seenUrls => exact h.dispatch hrest
  | insert job | addUsage jobId usage => exact hshape.elim
  | _ =>
      refine Resuming.keep h.phase (JobEnv.handle_untouched rfl) (handle_dispatched ?_) ?_
      · intro job urls heq
        cases heq
      · intro job heq
        cases heq

-- Any number of answers to one paused job at once: where every write of an
-- answer finds the job still waiting, at most one task is dispatched, and the
-- stored answer is its answer.
theorem one_dispatch_per_pause {job : ResearchJob} (hjob : world.jobs.get jobId = some job)
    {userId : ι → Uuid} {text : ι → String} {schedule : List ι}
    (hguard : (jobRuns config world fun i => .answer (userId i) jobId (text i)).Respects env.handle
      (fun _ world _ => StillAwaiting world) schedule) :
    let later := (jobRuns config world fun i => .answer (userId i) jobId (text i)).run env.handle
      schedule
    ∃ resumed, later.store.dispatched = world.dispatched ++ resumed ∧ resumed.length ≤ 1 ∧
      ∀ task ∈ resumed, ∃ row, later.store.jobs.get jobId = some row ∧
        row.answer = task.1.answer := by
  intro later
  have hstart : Resuming jobId world
      (jobRuns config world fun i => .answer (userId i) jobId (text i)) := by
    obtain ⟨hmem, hid⟩ := (Table.get_eq_some _ _ _).mp hjob
    refine ⟨Or.inl ⟨⟨job, hmem, hid⟩, rfl, fun i other hwrote => ?_⟩,
      Config.answered_start _ _ _, Config.threaded_start (fun i => ?_) world⟩
    · cases hwrote
    · exact (Program.calls_bind_pure _ _ _).mpr (answer_answers (userId i) jobId (text i))
  have hlater : Resuming jobId world later :=
    Config.run_induction (Resuming jobId world)
      (fun _ _ _ _ h hrest hguard => h.advance hrest hguard) hstart hguard
  rcases hlater.phase with hphase | ⟨i, answered, hphase⟩
  · exact ⟨[], by simpa using hphase.undispatched, by simp, by simp⟩
  · rcases hphase.dispatched with hnone | ⟨urls, -, -, hone⟩
    · exact ⟨[], by simpa using hnone, by simp, by simp⟩
    · refine ⟨[(answered, urls)], hone, by simp, fun task htask => ?_⟩
      obtain ⟨row, hrow, hid, -, hanswer⟩ := hphase.stored
      rw [List.mem_singleton.mp htask]
      exact ⟨row, (Table.get_eq_some _ _ _).mpr ⟨hrow, hid⟩, hanswer⟩

end Runs

-- The owner answers in two tabs.
namespace Sample

def text : Fin 2 → String
  | 0 => "later"
  | 1 => "4.0"

def tabs : JobRuns (Fin 2) :=
  jobRuns config pausedWorld fun i => .answer paused.userId paused.id (text i)

end Sample

-- Both tabs find the job before either stores its answer.
theorem dispatched_twice :
    let later := Sample.tabs.run (Sample.env .postgres).handle
      ([0, 1] ++ List.replicate 4 0 ++ List.replicate 4 1)
    (later.store.dispatched.drop Sample.pausedWorld.dispatched.length).map
        (fun task => task.1.answer) = [some "later", some "4.0"] ∧
      (later.store.jobs.get Sample.paused.id).map ResearchJob.answer = some (some "4.0") := by
  decide +kernel

-- The second tab finds the job answered.
theorem dispatched_once :
    let later := Sample.tabs.run (Sample.env .postgres).handle
      (List.replicate 5 0 ++ List.replicate 5 1)
    (later.store.dispatched.drop Sample.pausedWorld.dispatched.length).map
        (fun task => task.1.answer) = [some "later"] ∧
      ∃ resumed, later.store.dispatched = Sample.pausedWorld.dispatched ++ resumed ∧
        resumed.length ≤ 1 ∧ ∀ task ∈ resumed, ∃ row,
          later.store.jobs.get Sample.paused.id = some row ∧ row.answer = task.1.answer := by
  have hjob : Sample.pausedWorld.jobs.get Sample.paused.id = some Sample.paused := rfl
  exact ⟨by decide +kernel, one_dispatch_per_pause hjob (by decide +kernel)⟩

end AgentBoilerplate.Job
