import AgentBoilerplate.Job.Absorbing
import AgentBoilerplate.Job.Footprint
import AgentBoilerplate.Job.Queries
import Mathlib.Data.List.Chain

namespace AgentBoilerplate.Job

open Effects Collections

-- A completion stores its results before it writes the job it found.
def StoresFirst (op : JobOp) (past : List (Event JobPorts)) : JobCall → Prop
  | .update job => ∀ jobId results, op = .complete jobId results →
      (⟨.storeResults jobId results, .ok ()⟩ : Event JobPorts) ∈ past ∧
        ∃ copy, (⟨.find jobId, .ok (some copy)⟩ : Event JobPorts) ∈ past ∧ job.id = copy.id
  | _ => True

theorem complete_storesFirst (jobId : Uuid) (results : List SearchResult)
    (past : List (Event JobPorts)) :
    (IngestResults.complete jobId results).run.Calls (StoresFirst (.complete jobId results))
      past := by
  rw [IngestResults.complete, run_findJob_bind]
  refine ⟨trivial, ?_⟩
  rintro (e | _ | job)
  · trivial
  · trivial
  simp only [Fallible.run_orFail_bind, Fallible.run_lift_bind, ResearchJob.completeNow, ask,
    Program.call_bind, Program.done_bind, Program.pure_eq]
  refine ⟨trivial, ?_⟩
  rintro (e | _)
  · trivial
  refine ⟨trivial, fun clock => ⟨fun jobId' results' heq => ?_, ?_⟩⟩
  · cases heq
    exact ⟨by simp, job, by simp, rfl⟩
  rintro (e | _)
  · trivial
  refine (Program.calls_bind_pure _ _ _).mpr ((maybeSendDigest_quiet _ results _).mono ?_)
  intro past request hquiet
  cases request with
  | update _ => cases hquiet
  | _ => trivial

theorem op_storesFirst (config : JobConfig) (op : JobOp) (past : List (Event JobPorts)) :
    (op.program config).Calls (StoresFirst op) past := by
  by_cases hop : ∃ jobId results, op = .complete jobId results
  · obtain ⟨jobId, results, rfl⟩ := hop
    exact (Program.calls_bind_pure _ _ _).mpr (complete_storesFirst jobId results past)
  · refine ((op_within config op).calls past).mono fun past request _ => ?_
    cases request with
    | update _ => exact fun jobId results heq => absurd ⟨jobId, results, heq⟩ hop
    | _ => trivial

-- A launching operation writes no completed job.
def NotCompleted : JobCall → Prop
  | .insert job | .update job => job.status ≠ .completed
  | _ => True

section Launching

variable {ε : Type} {job : ResearchJob}

theorem failNow_notCompleted {β : Type} (h : job.status ≠ .completed) {error : String}
    {f : ResearchJob → Program JobPorts β}
    (hf : ∀ failed : ResearchJob, failed.status ≠ .completed → (f failed).Within NotCompleted) :
    (job.failNow error >>= f).Within NotCompleted := by
  unfold ResearchJob.failNow
  rw [if_neg h]
  refine ⟨trivial, fun clock => hf _ ?_⟩
  rw [ResearchJob.fail, if_neg h]
  exact JobStatus.noConfusion

theorem dispatchOrFail_notCompleted (h : job.status ≠ .completed)
    (infrastructure : PortError → ε) (dispatchFailed : ε) (seenUrls : List String) :
    Fallible.Within NotCompleted (dispatchOrFail infrastructure dispatchFailed job seenUrls) := by
  refine Fallible.Within.bind (Fallible.within_lift (Program.within_call trivial)) fun dispatched => ?_
  cases dispatched with
  | ok _ => exact Fallible.within_pure job
  | error e =>
      unfold Fallible.Within
      rw [Fallible.run_lift_bind]
      refine failNow_notCompleted h fun failed hfailed => ?_
      exact Fallible.Within.bind (Fallible.within_orFail (Program.within_call hfailed))
        fun _ => Fallible.within_throw _

theorem newNow_notCompleted {β : Type} {userId : Uuid} {keyword : String}
    {f : Except JobError ResearchJob → Program JobPorts β}
    (herror : ∀ e, (f (.error e)).Within NotCompleted)
    (hf : ∀ job : ResearchJob, job.status ≠ .completed → (f (.ok job)).Within NotCompleted) :
    (ResearchJob.newNow userId keyword >>= f).Within NotCompleted := by
  rw [newNow_bind]
  have hnew : ∀ id clock, (f (ResearchJob.new id clock userId keyword)).Within NotCompleted := by
    intro id clock
    cases hresult : ResearchJob.new id clock userId keyword with
    | error e => exact herror e
    | ok job =>
        refine hf job ?_
        rw [(Created.new hresult).consistent.2]
        exact JobStatus.noConfusion
  generalize (trim keyword).length = length
  generalize (trim keyword).isEmpty = empty
  split_ifs
  · exact herror _
  · exact herror _
  · exact ⟨trivial, fun id => ⟨trivial, hnew id⟩⟩

theorem launchSearch_notCompleted (dailyQuota : Nat) (userId : Uuid) (keyword : String)
    (mode : JobMode) :
    Fallible.Within NotCompleted (launchSearch dailyQuota userId keyword mode) := by
  refine Fallible.Within.bind (Fallible.within_lift (Program.within_call trivial)) fun now =>
    Fallible.Within.bind (Fallible.within_orFail (Program.within_call trivial)) fun used => ?_
  split
  · exact Fallible.within_throw _
  unfold Fallible.Within
  rw [Fallible.run_orFail_bind]
  refine newNow_notCompleted (fun e => trivial) fun job hjob => ?_
  exact Fallible.Within.bind (Fallible.within_orFail (Program.within_call hjob)) fun _ =>
    @dispatchOrFail_notCompleted _ (job.withMode mode) hjob _ _ _

theorem runOne_notCompleted (dailyQuota : Nat) (now : Int) (search : RecurringSearch) :
    Fallible.Within NotCompleted (RunDueSearches.runOne dailyQuota now search) := by
  refine Fallible.Within.bind (Fallible.within_orFail (Program.within_call trivial)) fun used => ?_
  split
  · exact Fallible.Within.bind (Fallible.within_orFail (Program.within_call trivial))
      fun _ => Fallible.within_pure 0
  refine Fallible.Within.bind (Fallible.within_orFail (Program.within_call trivial)) fun seenUrls => ?_
  unfold Fallible.Within
  rw [Fallible.run_orFail_bind]
  refine newNow_notCompleted (fun e => trivial) fun job hjob => ?_
  refine Fallible.Within.bind (Fallible.within_orFail (Program.within_call hjob)) fun _ =>
    Fallible.Within.bind (Fallible.within_lift (Program.within_call trivial)) fun dispatched => ?_
  cases dispatched with
  | ok _ =>
      exact Fallible.Within.bind (Fallible.within_orFail (Program.within_call trivial))
        fun _ => Fallible.within_pure 1
  | error e =>
      unfold Fallible.Within
      rw [Fallible.run_lift_bind]
      refine @failNow_notCompleted ((job.withMode search.mode).withRecurring search.id) _ hjob _ _
        fun failed hfailed => ?_
      exact Fallible.Within.bind (Fallible.within_orFail (Program.within_call hfailed)) fun _ =>
        Fallible.Within.bind (Fallible.within_orFail (Program.within_call trivial))
          fun _ => Fallible.within_pure 0

theorem runAll_notCompleted (dailyQuota : Nat) (now : Int) (due : List RecurringSearch)
    (launched : Nat) :
    Fallible.Within NotCompleted (RunDueSearches.runAll dailyQuota now due launched) := by
  induction due generalizing launched with
  | nil => exact Fallible.within_pure launched
  | cons search due ih =>
      exact Fallible.Within.bind (runOne_notCompleted dailyQuota now search) fun more => ih _

theorem launches_notCompleted (config : JobConfig) {op : JobOp} (hop : op.launches = true) :
    (op.program config).Within NotCompleted := by
  cases op with
  | launch userId keyword mode =>
      exact Program.Within.bind (launchSearch_notCompleted _ userId keyword mode) fun _ => trivial
  | runDue =>
      refine Program.Within.bind ?_ fun _ => trivial
      exact Fallible.Within.bind (Fallible.within_lift (Program.within_call trivial)) fun now =>
        Fallible.Within.bind (Fallible.within_orFail (Program.within_call trivial)) fun due =>
          runAll_notCompleted _ now due 0
  | _ => cases hop

end Launching

-- What an operation on jobs does next.
def JobStep (op : JobOp) (past : List (Event JobPorts)) (request : JobCall) : Prop :=
  op.Makes request ∧
    if op.launches then NotCompleted request
    else WritesCopy op.completes past request ∧ StoresFirst op past request

theorem op_steps (config : JobConfig) (op : JobOp) (past : List (Event JobPorts)) :
    (op.program config).Calls (JobStep op) past := by
  refine ((op_within config op).calls past).and ?_
  cases hop : op.launches with
  | false =>
      refine ((op_calls config hop).and (op_storesFirst config op past)).mono ?_
      exact fun past request h => h
  | true =>
      refine ((launches_notCompleted config hop).calls past).mono ?_
      exact fun past request h => h

-- The details that a reader has sent to its client.
def updates (past : List (Event SearchPorts)) : List JobDetailView :=
  (rights past).filterMap fun
    | ⟨.update detail, _⟩ => some detail
    | _ => none

-- A reader has read the job, and after it the results, of the snapshot.
def Saw (past : List (Event SearchPorts)) (snapshot : Snapshot) : Prop :=
  ∃ jobId results, List.Sublist [⟨.inl (.find jobId), .ok (some snapshot.job)⟩,
      (⟨.inr (.resultsFor jobId), .ok results⟩ : Event SearchPorts)] past ∧
    snapshot.results = sortByPublicationDate results

def JobDetailView.isFinished (detail : JobDetailView) : Bool :=
  detail.job.status = .completed ∨ detail.job.status = .failed

-- A reader writes nothing to the store, and what it sends is a snapshot that it
-- read, none before it is of a finished job, and the last one has another text.
def Reads (text : JobDetailView → String) (past : List (Event SearchPorts)) :
    SearchPorts.Call → Prop
  | .inl (.find _) => True
  | .inl _ => False
  | .inr (.update detail) => (∃ snapshot, Saw past snapshot ∧ detail = jobDetailJson snapshot) ∧
      (∀ before ∈ updates past, before.isFinished = false) ∧
      (updates past).getLast?.map text ≠ some (text detail)
  | .inr _ => True

section Readers

variable {text : JobDetailView → String} {past later : List (Event SearchPorts)}

theorem updates_append (past : List (Event SearchPorts)) (event : Event SearchPorts) :
    updates (past ++ [event]) = updates past ++ updates [event] := by
  simp only [updates, rights, List.filterMap_append]

theorem updates_silent {event : Event SearchPorts} (h : updates [event] = []) :
    updates (past ++ [event]) = updates past := by
  rw [updates_append, h, List.append_nil]

theorem Saw.extend {snapshot : Snapshot} (h : Saw past snapshot) (hlater : past <+: later) :
    Saw later snapshot := by
  obtain ⟨jobId, results, hsub, heq⟩ := h
  exact ⟨jobId, results, hsub.trans hlater.sublist, heq⟩

theorem get_reads (userId jobId : Uuid) (past : List (Event SearchPorts)) :
    (SearchQueries.get userId jobId).run.Calls (Reads text) past := by
  simp only [SearchQueries.get, Fallible.run_orFail_bind, askJobs, Program.call_bind,
    Program.done_bind]
  refine ⟨trivial, ?_⟩
  rintro (e | _ | job)
  · trivial
  · trivial
  dsimp only
  split
  · trivial
  simp only [Fallible.run_orFail_bind, query, Program.call_bind, Program.done_bind]
  refine ⟨trivial, ?_⟩
  rintro (e | results)
  · trivial
  refine ⟨trivial, ?_⟩
  rintro (e | steps) <;> trivial

theorem get_ends (userId jobId : Uuid) (past : List (Event SearchPorts)) :
    (SearchQueries.get userId jobId).run.Ends (fun later result => updates later = updates past ∧
      ∀ snapshot, result = .ok (some snapshot) → Saw later snapshot) past := by
  simp only [SearchQueries.get, Fallible.run_orFail_bind, askJobs, Program.call_bind,
    Program.done_bind]
  rintro (e | _ | job)
  · exact ⟨updates_silent rfl, by simp⟩
  · exact ⟨updates_silent rfl, by simp⟩
  have hfound := @updates_silent past ⟨.inl (.find jobId), .ok (some job)⟩ rfl
  dsimp only
  split
  · exact ⟨hfound, by simp⟩
  simp only [Fallible.run_orFail_bind, query, Program.call_bind, Program.done_bind]
  rintro (e | results)
  · exact ⟨(updates_silent rfl).trans hfound, by simp⟩
  rintro (e | steps)
  · exact ⟨(updates_silent rfl).trans ((updates_silent rfl).trans hfound), by simp⟩
  refine ⟨(updates_silent rfl).trans ((updates_silent rfl).trans hfound), fun snapshot hsnapshot => ?_⟩
  cases hsnapshot
  refine ⟨jobId, results, ?_, rfl⟩
  rw [List.append_assoc, List.append_assoc]
  exact (List.sublist_append_left _ [_]).trans (List.sublist_append_right past _)

-- The loop of a stream: the last payload is the text of the last detail sent,
-- and the job of none of them was finished.
theorem pollUpdates_reads (stream : StreamConfig) (userId jobId : Uuid) (started : Int) (polls : Nat)
    {lastPayload : Option String} (hlast : lastPayload = (updates past).getLast?.map stream.text)
    (hopen : ∀ detail ∈ updates past, detail.isFinished = false) :
    (pollUpdates stream userId jobId started polls lastPayload).Calls (Reads stream.text) past := by
  induction polls generalizing past lastPayload with
  | zero => trivial
  | succ polls ih =>
      simp only [pollUpdates, query, Program.call_bind, Program.done_bind]
      refine ⟨trivial, fun now => Program.calls_ite (fun _ => trivial) fun _ => ?_⟩
      rw [Program.calls_bind]
      refine ⟨get_reads userId jobId _, (get_ends userId jobId _).mono ?_⟩
      rintro later result ⟨hlater, hsaw⟩
      rw [updates_silent rfl] at hlater
      rw [← hlater] at hlast hopen
      rcases result with e | _ | snapshot
      · trivial
      · trivial
      dsimp only
      split
      · rename_i hnew
        rw [hlast] at hnew
        refine ⟨⟨⟨snapshot, hsaw snapshot rfl, rfl⟩, hopen, hnew⟩, fun _ => ?_⟩
        split
        · trivial
        rename_i hunfinished
        have hsent : updates (later ++ [⟨.inr (.update (jobDetailJson snapshot)), ()⟩]) =
            updates later ++ [jobDetailJson snapshot] := updates_append _ _
        refine ih ?_ fun detail hdetail => ?_
        · rw [hsent, List.getLast?_append]
          rfl
        · rw [hsent, List.mem_append, List.mem_singleton] at hdetail
          rcases hdetail with hold | rfl
          · exact hopen detail hold
          · exact Bool.eq_false_of_not_eq_true hunfinished
      · refine ⟨trivial, fun _ => ih ?_ ?_⟩
        · rw [updates_silent rfl]
          exact hlast
        · rw [updates_silent rfl]
          exact hopen

theorem jobUpdatesWith_reads (stream : StreamConfig) (userId jobId : Uuid) (polls : Nat) :
    (jobUpdatesWith stream userId jobId polls).Calls (Reads stream.text) [] := by
  refine ⟨trivial, fun started => pollUpdates_reads stream userId jobId started polls rfl ?_⟩
  intro detail hdetail
  cases hdetail

end Readers

-- What an operation or a reader may do next, and what a reader has seen that
-- has its answer.
def Follows (text : JobDetailView → String) (op : SearchOp) (past : List (Event SearchPorts))
    (p : Program SearchPorts SearchOutcome) : Prop :=
  match op with
  | .job op => p.Asks (OnLeft (JobStep op) past)
  | _ => p.Asks (Reads text past) ∧
      ∀ value, p = .done value → ∀ snapshot, value = .get (.ok (some snapshot)) → Saw past snapshot

theorem searchOp_follows (config : JobConfig) (stream : StreamConfig) (op : SearchOp) :
    (op.program config stream).Along (Follows stream.text op) [] := by
  cases op with
  | job op =>
      exact (Program.calls_bind_pure _ _ _).mpr (Program.inl_calls (op_steps config op []))
  | list userId =>
      have hcalls : (SearchOp.list userId |>.program config stream).Calls (Reads stream.text) [] := by
        refine (Program.calls_bind_pure _ _ _).mpr ⟨trivial, ?_⟩
        rintro (e | jobs) <;> trivial
      refine Program.Along.and hcalls (Program.Ends.along ?_)
      rw [SearchOp.program, Program.ends_bind]
      rintro (e | jobs) snapshot hsnapshot <;> cases hsnapshot
  | get userId jobId =>
      have hcalls : (SearchOp.get userId jobId |>.program config stream).Calls (Reads stream.text) [] :=
        (Program.calls_bind_pure _ _ _).mpr (get_reads userId jobId [])
      refine Program.Along.and hcalls (Program.Ends.along ?_)
      rw [SearchOp.program, Program.ends_bind]
      refine (get_ends userId jobId []).mono fun later result hresult snapshot hsnapshot => ?_
      cases hsnapshot
      exact hresult.2 snapshot rfl
  | updates userId jobId polls =>
      have hcalls : (SearchOp.updates userId jobId polls |>.program config stream).Calls
          (Reads stream.text) [] :=
        (Program.calls_bind_pure _ _ _).mpr (jobUpdatesWith_reads stream userId jobId polls)
      refine Program.Along.and hcalls (Program.Ends.along ?_)
      rw [SearchOp.program, Program.ends_bind]
      refine (Program.ends_extends _ _).mono fun later _ _ snapshot hsnapshot => ?_
      cases hsnapshot

def ResultsStored (world : JobWorld) (jobId : Uuid) : Prop := ∃ entry ∈ world.results, entry.1 = jobId

-- The results of every completed job have been stored, be they none.
def Settled (world : JobWorld) : Prop :=
  ∀ row ∈ world.jobs, row.status = .completed → ResultsStored world row.id

namespace JobEnv

variable {env : JobEnv} {world : JobWorld} {request : JobCall}

theorem handle_results (h : ∀ jobId results, request ≠ .storeResults jobId results) :
    (env.handle request world).2.results = world.results := by
  cases request with
  | storeResults jobId results => exact absurd rfl (h jobId results)
  | utcNow | newUuid => rfl
  | _ =>
      simp only [handle, attempt]
      split <;> rfl

theorem mem_handle_results {entry : Uuid × List SearchResult}
    (h : entry ∈ (env.handle request world).2.results) :
    entry ∈ world.results ∨ (⟨request, (env.handle request world).1⟩ : Event JobPorts) =
      ⟨.storeResults entry.1 entry.2, .ok ()⟩ := by
  by_cases hstore : ∃ jobId results, request = .storeResults jobId results
  · obtain ⟨jobId, results, rfl⟩ := hstore
    simp only [handle, attempt] at h ⊢
    split at h
    · exact Or.inl h
    · rename_i hfault
      rcases (Table.mem_insert _ _ _).mp h with rfl | ⟨hold, -⟩
      · exact Or.inr rfl
      · exact Or.inl hold
  · rw [handle_results fun jobId results heq => hstore ⟨jobId, results, heq⟩] at h
    exact Or.inl h

theorem resultsStored_handle {jobId : Uuid} (h : ResultsStored world jobId) (request : JobCall) :
    ResultsStored (env.handle request world).2 jobId := by
  by_cases hstore : ∃ id results, request = .storeResults id results
  · obtain ⟨id, results, rfl⟩ := hstore
    obtain ⟨entry, hentry, rfl⟩ := h
    simp only [handle, attempt]
    split
    · exact ⟨entry, hentry, rfl⟩
    · by_cases hid : entry.1 = id
      · exact ⟨_, (Table.mem_insert _ _ _).mpr (Or.inl rfl), hid.symm⟩
      · exact ⟨entry, (Table.mem_insert _ _ _).mpr (Or.inr ⟨hentry, hid⟩), rfl⟩
  · unfold ResultsStored
    rwa [handle_results fun id results heq => hstore ⟨id, results, heq⟩]

theorem resultsStored_storeResults {jobId : Uuid} {results : List SearchResult}
    (h : (env.handle (.storeResults jobId results) world).1 = .ok ()) :
    ResultsStored (env.handle (.storeResults jobId results) world).2 jobId := by
  simp only [handle, attempt] at h ⊢
  split at h
  · cases h
  · exact ⟨_, (Table.mem_insert _ _ _).mpr (Or.inl rfl), rfl⟩

theorem mem_handle_insert {job row : ResearchJob}
    (h : row ∈ (env.handle (.insert job) world).2.jobs) :
    row ∈ world.jobs ∨ row.lifecycle = job.lifecycle := by
  simp only [handle, attempt] at h
  split at h
  · exact Or.inl h
  dsimp only [Jobs.insert] at h
  split at h
  · rcases (Table.mem_insert _ _ _).mp h with rfl | ⟨hold, -⟩
    · exact Or.inr rfl
    · exact Or.inl hold
  · split at h
    · exact Or.inl h
    · rcases (Table.mem_insert _ _ _).mp h with rfl | ⟨hold, -⟩
      · exact Or.inr rfl
      · exact Or.inl hold

theorem settled_handle (h : Settled world)
    (hinsert : ∀ job, request = .insert job → job.status ≠ .completed)
    (hupdate : ∀ job, request = .update job → job.status = .completed → ResultsStored world job.id) :
    Settled (env.handle request world).2 := by
  intro row hrow hcompleted
  apply resultsStored_handle
  by_cases hnew : ∃ job, request = .insert job
  · obtain ⟨job, rfl⟩ := hnew
    rcases mem_handle_insert hrow with hold | hlife
    · exact h row hold hcompleted
    · exact absurd ((congrArg Prod.fst hlife).symm.trans hcompleted) (hinsert job rfl)
  rcases mem_handle_jobs (fun job heq => hnew ⟨job, heq⟩) hrow with
    ⟨old, hold, hid, hlife⟩ | ⟨job, hjob, hid, hlife⟩
  · rw [hid]
    exact h old hold ((congrArg Prod.fst hlife).symm.trans hcompleted)
  · rw [hid]
    exact hupdate job hjob ((congrArg Prod.fst hlife).symm.trans hcompleted)

end JobEnv

-- What an answer says of the store holds as long as nothing is deleted.
def Sound (world : JobWorld) : Event SearchPorts → Prop
  | ⟨.inl (.find jobId), .ok (some copy)⟩ => copy.id = jobId ∧
      (copy.status = .completed → ResultsStored world copy.id)
  | ⟨.inl (.listUnfinishedOlderThan _), .ok stale⟩ =>
      ∀ copy ∈ stale, copy.status = .completed → ResultsStored world copy.id
  | ⟨.inl (.storeResults jobId _), .ok ()⟩ => ResultsStored world jobId
  | _ => True

section Answers

variable {env : QueryEnv} {world : JobWorld}

theorem query_store (request : QueryCall) :
    (env.query request world).2.jobs = world.jobs ∧
      (env.query request world).2.results = world.results := by
  cases request with
  | instant | sleep _ | update _ => exact ⟨rfl, rfl⟩
  | _ =>
      simp only [QueryEnv.query, JobEnv.attempt]
      split <;> exact ⟨rfl, rfl⟩

theorem resultsStored_kept {jobId : Uuid} (h : ResultsStored world jobId)
    (request : SearchPorts.Call) : ResultsStored (env.handle request world).2 jobId := by
  cases request with
  | inl request => exact JobEnv.resultsStored_handle h request
  | inr request =>
      obtain ⟨entry, hentry, hid⟩ := h
      refine ⟨entry, ?_, hid⟩
      change entry ∈ (env.query request world).2.results
      rwa [(query_store request).2]

theorem Sound.mono {later : JobWorld} {event : Event SearchPorts} (h : Sound world event)
    (hkept : ∀ jobId, ResultsStored world jobId → ResultsStored later jobId) :
    Sound later event := by
  rcases event with ⟨request | request, answer⟩
  · cases request with
    | find jobId =>
        rcases answer with e | _ | copy
        · trivial
        · trivial
        · exact ⟨h.1, fun hcompleted => hkept _ (h.2 hcompleted)⟩
    | listUnfinishedOlderThan cutoff =>
        cases answer with
        | error e => trivial
        | ok stale => exact fun copy hcopy hcompleted => hkept _ (h copy hcopy hcompleted)
    | storeResults jobId results =>
        cases answer with
        | error e => trivial
        | ok _ => exact hkept _ h
    | _ => trivial
  · trivial

theorem sound_handle (h : Settled world) (request : SearchPorts.Call) :
    Sound (env.handle request world).2 ⟨request, (env.handle request world).1⟩ := by
  rcases request with request | request
  · cases request with
    | find jobId =>
        generalize hanswer : (env.handle (.inl (.find jobId)) world).1 = answer
        rcases answer with e | _ | copy
        · trivial
        · trivial
        · obtain ⟨hmem, hid⟩ := JobEnv.handle_find hanswer
          exact ⟨hid, fun hcompleted => resultsStored_kept (h copy hmem hcompleted) _⟩
    | listUnfinishedOlderThan cutoff =>
        generalize hanswer : (env.handle (.inl (.listUnfinishedOlderThan cutoff)) world).1 = answer
        cases answer with
        | error e => trivial
        | ok stale =>
            intro copy hcopy hcompleted
            have hmem := JobEnv.handle_listUnfinishedOlderThan hanswer hcopy
            exact resultsStored_kept (h copy hmem hcompleted) _
    | storeResults jobId results =>
        generalize hanswer : (env.handle (.inl (.storeResults jobId results)) world).1 = answer
        cases answer with
        | error e => trivial
        | ok _ => exact JobEnv.resultsStored_storeResults hanswer
    | _ => trivial
  · trivial

theorem copies_sound {past : List (Event SearchPorts)} (h : ∀ event ∈ past, Sound world event)
    {copy : ResearchJob} (hcopy : copy ∈ copies (lefts past)) (hcompleted : copy.status = .completed) :
    ResultsStored world copy.id := by
  obtain ⟨⟨request, answer⟩, hevent, hmem⟩ := List.mem_flatMap.mp hcopy
  have hsound := h _ (mem_lefts.mp hevent)
  cases request with
  | find jobId =>
      rcases answer with e | _ | job
      · cases hmem
      · cases hmem
      · obtain rfl := List.mem_singleton.mp hmem
        exact hsound.2 hcompleted
  | listUnfinishedOlderThan cutoff =>
      cases answer with
      | error e => cases hmem
      | ok stale => exact hsound copy hmem hcompleted
  | _ => cases hmem

theorem handle_resultsFor {jobId : Uuid} {results : List SearchResult}
    (h : (env.handle (.inr (.resultsFor jobId)) world).1 = .ok results)
    (hstored : ResultsStored world jobId) :
    ∃ batch, (jobId, batch) ∈ world.results ∧ results.Perm batch := by
  obtain ⟨entry, hentry, rfl⟩ := hstored
  have hof : world.results.of entry.1 = entry.2 := by
    rw [PerJob.of, (Table.get_eq_some world.results entry.1 entry).mpr ⟨hentry, rfl⟩]
    rfl
  refine ⟨entry.2, hentry, ?_⟩
  simp only [QueryEnv.handle, Handler.sum, QueryEnv.query, JobEnv.attempt] at h
  split at h
  · cases h
  · rw [← Except.ok.inj h]
    unfold resultsFor
    cases env.jobs.adapter with
    | inMemory => exact List.Perm.of_eq hof
    | postgres => exact (List.perm_insertionSort _ _).trans (List.Perm.of_eq hof)

end Answers

-- What a client has been sent: no two texts in a row are the same, only the
-- last is of a finished job, and each is of a snapshot that was read.
structure Sent (text : JobDetailView → String) (past : List (Event SearchPorts)) : Prop where
  changes : (updates past).IsChain fun before after => text before ≠ text after
  unfinished : ∀ detail ∈ (updates past).dropLast, detail.isFinished = false
  seen : ∀ detail ∈ updates past, ∃ snapshot, Saw past snapshot ∧ detail = jobDetailJson snapshot

namespace Sent

variable {text : JobDetailView → String} {past : List (Event SearchPorts)}

theorem nothing : Sent text [] where
  changes := List.IsChain.nil
  unfinished detail hdetail := by cases hdetail
  seen detail hdetail := by cases hdetail

theorem silent (h : Sent text past) {event : Event SearchPorts} (hevent : updates [event] = []) :
    Sent text (past ++ [event]) := by
  constructor
  · rw [updates_silent hevent]
    exact h.changes
  · rw [updates_silent hevent]
    exact h.unfinished
  · rw [updates_silent hevent]
    intro detail hdetail
    obtain ⟨snapshot, hsaw, heq⟩ := h.seen detail hdetail
    exact ⟨snapshot, hsaw.extend (List.prefix_append past _), heq⟩

theorem update (h : Sent text past) {detail : JobDetailView}
    (hreads : Reads text past (.inr (.update detail))) (answer : Unit) :
    Sent text (past ++ [⟨.inr (.update detail), answer⟩]) := by
  obtain ⟨⟨snapshot, hsaw, heq⟩, hopen, hnew⟩ := hreads
  have hsent : updates (past ++ [⟨.inr (.update detail), answer⟩]) = updates past ++ [detail] :=
    updates_append _ _
  constructor
  · rw [hsent, List.isChain_append]
    refine ⟨h.changes, List.isChain_singleton _, fun before hbefore after hafter htext => ?_⟩
    obtain rfl : detail = after := Option.some.inj hafter
    rw [Option.mem_def.mp hbefore, Option.map_some, htext] at hnew
    exact hnew rfl
  · rw [hsent, List.dropLast_concat]
    exact hopen
  · rw [hsent]
    intro other hother
    rcases List.mem_append.mp hother with hold | hlast
    · obtain ⟨snapshot, hsaw, heq⟩ := h.seen other hold
      exact ⟨snapshot, hsaw.extend (List.prefix_append past _), heq⟩
    · rw [List.mem_singleton.mp hlast]
      exact ⟨snapshot, hsaw.extend (List.prefix_append past _), heq⟩

end Sent

section Runs

variable {ι : Type} {ops : ι → SearchOp} {start : JobWorld}

-- A completion has stored these results for the job, in the run or before it.
def StoredBy (ops : ι → SearchOp) (start : JobWorld) (c : SearchRuns ι) (jobId : Uuid)
    (batch : List SearchResult) : Prop :=
  (jobId, batch) ∈ start.results ∨ ∃ i, ops i = .job (.complete jobId batch) ∧
    (⟨.inl (.storeResults jobId batch), .ok ()⟩ : Event SearchPorts) ∈ (c.threads i).past

-- A reader that was given a completed job was then given results that a
-- completion has stored.
def ReadsStored (ops : ι → SearchOp) (start : JobWorld) (c : SearchRuns ι) (i : ι) : Prop :=
  ∀ jobId copy results, List.Sublist [⟨.inl (.find jobId), .ok (some copy)⟩,
      (⟨.inr (.resultsFor jobId), .ok results⟩ : Event SearchPorts)] (c.threads i).past →
    copy.status = .completed → ∃ batch, StoredBy ops start c jobId batch ∧ results.Perm batch

-- What holds between any two calls.
structure Coherent (text : JobDetailView → String) (ops : ι → SearchOp) (start : JobWorld)
    (c : SearchRuns ι) : Prop where
  settled : Settled c.store
  batches : ∀ entry ∈ c.store.results, StoredBy ops start c entry.1 entry.2
  answered : c.Answered (Sound c.store)
  reads : ∀ i, ReadsStored ops start c i
  sent : ∀ i, Sent text (c.threads i).past
  threaded : c.Threaded fun i => Follows text (ops i)

theorem pair_sublist_concat {α : Type} {a b c : α} {l : List α} (h : [a, b].Sublist (l ++ [c])) :
    [a, b].Sublist l ∨ a ∈ l ∧ b = c := by
  obtain ⟨first, second, heq, hfirst, hsecond⟩ := List.sublist_append_iff.mp h
  rcases List.sublist_cons_iff.mp hsecond with hnil | ⟨rest, rfl, hrest⟩
  · obtain rfl := List.sublist_nil.mp hnil
    rw [List.append_nil] at heq
    exact Or.inl (heq ▸ hfirst)
  · obtain rfl := List.sublist_nil.mp hrest
    obtain ⟨rfl, hbc⟩ := List.append_inj' (show [a] ++ [b] = first ++ [c] from heq) rfl
    exact Or.inr ⟨List.singleton_sublist.mp hfirst, List.singleton_inj.mp hbc⟩

variable [DecidableEq ι] {text : JobDetailView → String} {env : QueryEnv} {c : SearchRuns ι} {i : ι}
  {request : SearchPorts.Call} {next : SearchPorts.Answer request → Program SearchPorts SearchOutcome}

theorem StoredBy.advance {jobId : Uuid} {batch : List SearchResult}
    (h : StoredBy ops start c jobId batch) :
    StoredBy ops start (c.advance env.handle i request next) jobId batch := by
  rcases h with hstart | ⟨j, hop, hevent⟩
  · exact Or.inl hstart
  · exact Or.inr ⟨j, hop, (Config.mem_advance_past env.handle c i j request next _).mpr (Or.inl hevent)⟩

namespace Coherent

-- What an operation writes keeps the store settled.
omit [DecidableEq ι] in
theorem settled_advance (h : Coherent text ops start c) (hrest : (c.threads i).rest = .call request next) :
    Settled (env.handle request c.store).2 := by
  have hfollows := h.threaded.here hrest
  rcases request with request | request
  · cases hop : ops i with
    | job op =>
        rw [hop] at hfollows
        obtain ⟨-, hstep⟩ := hfollows
        split at hstep
        · refine JobEnv.settled_handle h.settled ?_ ?_
          · rintro job rfl
            exact hstep
          · rintro job rfl hcompleted
            exact absurd hcompleted hstep
        obtain ⟨hwrites, hstores⟩ := hstep
        refine JobEnv.settled_handle h.settled ?_ ?_
        · rintro job rfl
          exact False.elim hwrites
        rintro job rfl hcompleted
        simp only [WritesCopy] at hwrites
        split at hwrites
        · rename_i hcompletes
          obtain ⟨jobId, results, rfl⟩ : ∃ jobId results, op = .complete jobId results := by
            cases op with
            | complete jobId results => exact ⟨jobId, results, rfl⟩
            | _ => cases hcompletes
          obtain ⟨hstored, copy, hfound, hid⟩ := hstores jobId results rfl
          have hsound := h.answered i _ (mem_lefts.mp hfound)
          rw [hid, hsound.1]
          exact h.answered i _ (mem_lefts.mp hstored)
        · obtain ⟨copy, hcopy, calls, rfl, hcalls⟩ := hwrites
          have hid : (copy.after calls).id = copy.id :=
            congrArg Prod.fst (ResearchJob.after_identity copy calls)
          rw [hid]
          refine copies_sound (h.answered i) hcopy ?_
          rcases (ResearchJob.after_completed copy calls).mp hcompleted with hold | ⟨clock, hclock⟩
          · exact hold
          · exact absurd hclock (hcalls clock)
    | _ =>
        rw [hop] at hfollows
        have hreads : Reads text (c.threads i).past (.inl request) := hfollows.1
        refine JobEnv.settled_handle h.settled ?_ ?_
        · rintro job rfl
          exact False.elim hreads
        · rintro job rfl
          exact False.elim hreads
  · intro row hrow hcompleted
    have hrows := (@query_store env c.store request).1
    exact resultsStored_kept (h.settled row (hrows ▸ hrow) hcompleted) _

theorem batches_advance (h : Coherent text ops start c)
    (hrest : (c.threads i).rest = .call request next) {entry : Uuid × List SearchResult}
    (hentry : entry ∈ (env.handle request c.store).2.results) :
    StoredBy ops start (c.advance env.handle i request next) entry.1 entry.2 := by
  rcases request with request | request
  · rcases JobEnv.mem_handle_results hentry with hold | hevent
    · exact (h.batches entry hold).advance
    · obtain ⟨rfl, hanswer⟩ := Event.mk.inj hevent
      have hfollows := h.threaded.here hrest
      refine Or.inr ⟨i, ?_, ?_⟩
      · cases hop : ops i with
        | job op =>
            rw [hop] at hfollows
            exact congrArg SearchOp.job hfollows.1
        | _ =>
            rw [hop] at hfollows
            exact False.elim hfollows.1
      · rw [Config.mem_advance_past]
        refine Or.inr ⟨rfl, ?_⟩
        exact congrArg _ (eq_of_heq hanswer).symm
  · have hresults := (@query_store env c.store request).2
    exact (h.batches entry (hresults ▸ hentry)).advance

theorem reads_advance (h : Coherent text ops start c) (j : ι) :
    ReadsStored ops start (c.advance env.handle i request next) j := by
  intro jobId copy results hsub hcompleted
  have hold : List.Sublist [⟨.inl (.find jobId), .ok (some copy)⟩,
      (⟨.inr (.resultsFor jobId), .ok results⟩ : Event SearchPorts)] (c.threads j).past →
      ∃ batch, StoredBy ops start (c.advance env.handle i request next) jobId batch ∧
        results.Perm batch := by
    intro hsub
    obtain ⟨batch, hbatch, hperm⟩ := h.reads j jobId copy results hsub hcompleted
    exact ⟨batch, hbatch.advance, hperm⟩
  by_cases hj : j = i
  · subst hj
    rw [Config.advance_self] at hsub
    rcases pair_sublist_concat hsub with hsub | ⟨hfound, hevent⟩
    · exact hold hsub
    · obtain ⟨rfl, hanswer⟩ := Event.mk.inj hevent
      obtain ⟨hid, hstored⟩ := h.answered j _ hfound
      obtain ⟨batch, hbatch, hperm⟩ := @handle_resultsFor env c.store jobId results
        (eq_of_heq hanswer).symm (hid ▸ hstored hcompleted)
      exact ⟨batch, (h.batches _ hbatch).advance, hperm⟩
  · rw [Config.advance_of_ne env.handle c i j hj] at hsub
    exact hold hsub

theorem sent_advance (h : Coherent text ops start c) (hrest : (c.threads i).rest = .call request next)
    (j : ι) : Sent text ((c.advance env.handle i request next).threads j).past := by
  by_cases hj : j = i
  · subst hj
    rw [Config.advance_self]
    rcases request with request | request
    · exact (h.sent j).silent rfl
    · cases request with
      | update detail =>
          have hfollows := h.threaded.here hrest
          refine (h.sent j).update ?_ _
          cases hop : ops j with
          | job op =>
              rw [hop] at hfollows
              exact False.elim hfollows
          | _ =>
              rw [hop] at hfollows
              exact hfollows.1
      | _ => exact (h.sent j).silent rfl
  · rw [Config.advance_of_ne env.handle c i j hj]
    exact h.sent j

theorem advance (h : Coherent text ops start c) (hrest : (c.threads i).rest = .call request next) :
    Coherent text ops start (c.advance env.handle i request next) where
  settled := h.settled_advance hrest
  batches _ hentry := h.batches_advance hrest hentry
  answered := by
    have hkept : c.Answered (Sound (env.handle request c.store).2) := fun j event hevent =>
      (h.answered j event hevent).mono fun jobId hstored => resultsStored_kept hstored request
    exact hkept.advance (sound_handle h.settled request)
  reads := h.reads_advance
  sent := h.sent_advance hrest
  threaded := h.threaded.advance hrest

end Coherent

omit [DecidableEq ι] in
theorem start_coherent (config : JobConfig) (stream : StreamConfig) {world : JobWorld}
    (h : Settled world) :
    Coherent stream.text ops world (searchRuns config stream world ops) where
  settled := h
  batches _ hentry := Or.inl hentry
  answered := Config.answered_start _ _ _
  reads i jobId copy results hsub := by cases hsub
  sent _ := Sent.nothing
  threaded := Config.threaded_start (fun i => searchOp_follows config stream (ops i)) world

end Runs

-- Whatever operations on jobs run beside the readers, and in whatever order, a
-- completed job is shown with the results that one completion has stored; and a
-- stream sends no text twice in a row, and nothing after a finished job.
theorem snapshots_consistent (env : QueryEnv) (config : JobConfig) (stream : StreamConfig)
    {ι : Type} [DecidableEq ι] (ops : ι → SearchOp) {world : JobWorld} (hworld : Settled world)
    (schedule : List ι) {c : SearchRuns ι}
    (hc : c = (searchRuns config stream world ops).run env.handle schedule) :
    (∀ i userId jobId snapshot, ops i = .get userId jobId →
      (c.threads i).rest = .done (.get (.ok (some snapshot))) → snapshot.job.status = .completed →
        ∃ batch, StoredBy ops world c snapshot.job.id batch ∧ snapshot.results.Perm batch) ∧
    ∀ i, Sent stream.text (c.threads i).past ∧
      ∀ detail ∈ updates (c.threads i).past, detail.job.status = .completed →
        ∃ batch, StoredBy ops world c detail.job.id batch ∧ detail.results.Perm batch := by
  have hcoherent : Coherent stream.text ops world c := by
    rw [hc]
    exact Config.run_induction (Coherent stream.text ops world) (fun _ _ _ _ h hrest _ => h.advance hrest)
      (start_coherent config stream hworld) (Config.respects_true env.handle _ schedule)
  have hsaw : ∀ i snapshot, Saw (c.threads i).past snapshot → snapshot.job.status = .completed →
      ∃ batch, StoredBy ops world c snapshot.job.id batch ∧ snapshot.results.Perm batch := by
    rintro i snapshot ⟨jobId, results, hsub, heq⟩ hcompleted
    obtain ⟨batch, hbatch, hperm⟩ := hcoherent.reads i jobId snapshot.job results hsub hcompleted
    have hid := (hcoherent.answered i _ (hsub.subset List.mem_cons_self)).1
    refine ⟨batch, hid ▸ hbatch, ?_⟩
    rw [heq]
    exact (List.perm_insertionSort _ _).trans hperm
  refine ⟨fun i userId jobId snapshot hop hrest hcompleted => ?_, fun i => ⟨hcoherent.sent i, ?_⟩⟩
  · have hfollows := hcoherent.threaded.here hrest
    rw [hop] at hfollows
    exact hsaw i snapshot (hfollows.2 _ rfl snapshot rfl) hcompleted
  · intro detail hdetail hcompleted
    obtain ⟨snapshot, hsnapshot, rfl⟩ := (hcoherent.sent i).seen detail hdetail
    exact hsaw i snapshot hsnapshot hcompleted

namespace Sample

def found : SearchResult where
  title := "Release notes"
  url := "https://example.com/release"
  snippet := "The release is out."
  publishedAt := some 1767139200000000000
  dateConfidence := .high
  eventType := .release
  summary := none
  isNew := true

def queryEnv : QueryEnv where
  jobs := env .inMemory
  instant n := 1000000 * n

def reading : Bool → SearchOp
  | false => .job (.complete job.id [found])
  | true => .get job.userId job.id

theorem settled : Settled world := by
  intro row hrow hcompleted
  obtain rfl := List.mem_singleton.mp hrow
  cases hcompleted

end Sample

-- The owner reads the job once it is written, then its results, while the
-- completion goes on to the notifications.
theorem snapshots_consistent_after_completion :
    ∃ batch, StoredBy Sample.reading Sample.world
      ((searchRuns Sample.config (streamConfig fun _ => "") Sample.world Sample.reading).run
        Sample.queryEnv.handle [false, false, false, false, true, false, true, false, true])
      Sample.job.id batch ∧ List.Perm [Sample.found] batch := by
  have hconsistent := (snapshots_consistent Sample.queryEnv Sample.config (streamConfig fun _ => "")
    Sample.reading Sample.settled [false, false, false, false, true, false, true, false, true] rfl).1
  exact hconsistent true Sample.job.userId Sample.job.id
    ⟨Sample.job.complete (Sample.clock 0), [Sample.found], []⟩ rfl rfl rfl

end AgentBoilerplate.Job
