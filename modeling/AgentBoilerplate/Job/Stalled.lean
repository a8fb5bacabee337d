import AgentBoilerplate.Job.Launching
import AgentBoilerplate.Job.Sequential

namespace AgentBoilerplate.Job

open Effects Collections

-- An operation and the instant it is served at, which is all it reads of the
-- clock.
abbrev Moment := Int × JobOp

def JobEnv.at_ (env : JobEnv) (instant : Int) : JobEnv := { env with clock := fun _ => instant }

def ResearchJob.isWorking (job : ResearchJob) : Bool :=
  job.status = .pending ∨ job.status = .running

-- What an observer notes of a run: when the last answer to each job was stored,
-- and since when it has been pending or running without a break, counted from
-- its creation or from that answer.
structure Watch where
  world : JobWorld
  answered : Uuid → Option Int
  working : Uuid → Option Int

namespace Watch

def start (world : JobWorld) : Watch := ⟨world, fun _ => none, fun _ => none⟩

variable (config : JobConfig) (env : JobEnv)

-- A paused job that works again has been answered.
def next (watch : Watch) (moment : Moment) : Watch :=
  let later := ((env.at_ moment.1).serve config watch.world moment.2).2
  { world := later
    answered := fun id =>
      match watch.world.jobs.get id, later.jobs.get id with
      | some old, some row =>
          if old.status = .awaitingInput ∧ row.isWorking = true then some moment.1
          else watch.answered id
      | _, _ => watch.answered id
    working := fun id =>
      match watch.world.jobs.get id, later.jobs.get id with
      | none, some row => if row.isWorking then some row.createdAt else none
      | some old, some row =>
          if row.isWorking then
            if old.status = .awaitingInput then some moment.1 else watch.working id
          else none
      | _, none => none }

def along (watch : Watch) (moments : List Moment) : Watch :=
  moments.foldl (next config env) watch

end Watch

-- A tick comes later than the timeout after the last answer to every job that
-- works and that was created earlier than the timeout before it.
def Watch.Unhurried (config : JobConfig) (watch : Watch) (now : Int) : Prop :=
  ∀ id row answered, watch.world.jobs.get id = some row → row.isWorking = true →
    row.createdAt < now - Duration.seconds config.timeoutSecs →
    watch.answered id = some answered → answered < now - Duration.seconds config.timeoutSecs

-- Every tick of a run is unhurried.
def Watch.Paced (config : JobConfig) (env : JobEnv) (watch : Watch) : List Moment → Prop
  | [] => True
  | moment :: rest => (moment.2 = .failStale → watch.Unhurried config moment.1) ∧
      (watch.next config env moment).Paced config env rest

-- What launching operations leave as it is: every job but those whose
-- identifiers they draw.
structure Launched (env : JobEnv) (world later : JobWorld) : Prop where
  uuids : world.uuids ≤ later.uuids
  others : ∀ id, (∀ n, world.uuids ≤ n → n < later.uuids → id ≠ env.uuid n) →
    later.jobs.get id = world.jobs.get id

def Drawn (env : JobEnv) (world later : JobWorld) (id : Uuid) : Prop :=
  ∃ n, world.uuids ≤ n ∧ n < later.uuids ∧ id = env.uuid n

section Launches

variable {env : JobEnv} {world later : JobWorld}

theorem Jobs.get_insert_ne (adapter : Adapter) (jobs : Jobs) {job : ResearchJob} {id : Uuid}
    (h : id ≠ job.id) : (jobs.insert adapter job).2.get id = jobs.get id := by
  unfold Jobs.insert
  cases adapter with
  | inMemory =>
      dsimp only
      rw [Table.get_insert, if_neg h]
  | postgres =>
      dsimp only
      split
      · rfl
      · dsimp only
        rw [Table.get_insert, if_neg h]

theorem Jobs.get_update_ne (adapter : Adapter) (jobs : Jobs) {job : ResearchJob} {id : Uuid}
    (h : id ≠ job.id) : (jobs.update adapter job).get id = jobs.get id := by
  unfold Jobs.update
  cases adapter with
  | inMemory =>
      dsimp only
      rw [Table.get_insert, if_neg h]
  | postgres =>
      dsimp only
      rw [Table.get_modify, if_neg h]

theorem Launched.write (h : Launched env world later) {next : JobWorld} {id : Uuid}
    (hid : Drawn env world later id) (huuids : later.uuids ≤ next.uuids)
    (hnext : ∀ other, other ≠ id → next.jobs.get other = later.jobs.get other) :
    Launched env world next := by
  refine ⟨h.uuids.trans huuids, fun other hother => ?_⟩
  obtain ⟨n, hle, hlt, rfl⟩ := hid
  rw [hnext other (hother n hle (by omega))]
  exact h.others other fun m hle hlt => hother m hle (by omega)

theorem Launched.keep (h : Launched env world later) {next : JobWorld}
    (huuids : later.uuids ≤ next.uuids) (hnext : next.jobs = later.jobs) :
    Launched env world next := by
  refine ⟨h.uuids.trans huuids, fun other hother => ?_⟩
  rw [hnext]
  exact h.others other fun m hle hlt => hother m hle (by omega)

-- A launching program writes under the identifiers it has drawn only.
theorem launches_yields {α : Type} {p : Program JobPorts α} {past : List (Event JobPorts)}
    (h : p.Calls LaunchesJobs past) (hlater : Launched env world later)
    (hpending : ∀ id, pendingId past = some id → Drawn env world later id)
    (hinserted : ∀ job, Inserted past job → Drawn env world later job.id) :
    p.Yields env.handle (fun _ last => Launched env world last) later := by
  induction p generalizing past later with
  | done value => exact hlater
  | call request next ih =>
      obtain ⟨hallowed, hrest⟩ := h
      have huuids := JobEnv.handle_uuids_le env request later
      have hgrow : ∀ id, Drawn env world later id →
          Drawn env world (env.handle request later).2 id := by
        rintro id ⟨n, hle, hlt, heq⟩
        exact ⟨n, hle, by omega, heq⟩
      refine ih _ (hrest _) ?_ ?_ ?_
      · cases request with
        | insert job =>
            refine hlater.write (hpending _ hallowed.1) huuids fun other hother => ?_
            simp only [JobEnv.handle, JobEnv.attempt]
            split
            · rfl
            · exact Jobs.get_insert_ne _ _ hother
        | update job =>
            refine hlater.write (hinserted job hallowed) huuids fun other hother => ?_
            simp only [JobEnv.handle, JobEnv.attempt]
            split
            · rfl
            · exact Jobs.get_update_ne _ _ hother
        | addUsage jobId usage => exact hallowed.elim
        | _ => exact hlater.keep huuids (JobEnv.handle_untouched rfl)
      · intro id hid
        by_cases hdraw : request = .newUuid
        · subst hdraw
          rw [pendingId_append] at hid
          have hle := hlater.uuids
          exact ⟨later.uuids, hle, Nat.lt_succ_self _, (Option.some.inj hid).symm⟩
        · by_cases hinsert : ∃ job, request = .insert job
          · obtain ⟨job, rfl⟩ := hinsert
            rw [pendingId_append] at hid
            cases hid
          · rw [pendingId_other past hdraw fun job heq => hinsert ⟨job, heq⟩] at hid
            exact hgrow id (hpending id hid)
      · intro job hjob
        rcases (inserted_append past _).mp hjob with hold | ⟨stored, hevent, hid, -, -⟩
        · exact hgrow _ (hinserted job hold)
        · injection hevent with hrequest _
          subst hrequest
          rw [← hid]
          exact hgrow _ (hpending _ hallowed.1)

theorem serve_launched (config : JobConfig) (env : JobEnv) (world : JobWorld) {op : JobOp}
    (hop : op.launches = true) : Launched env world (env.serve config world op).2 := by
  have hcalls : (op.program config).Calls LaunchesJobs [] := launches_calls config hop
  refine launches_yields hcalls ⟨le_rfl, fun _ _ => rfl⟩ ?_ ?_
  · intro id hid
    cases hid
  · rintro job ⟨stored, hstored, -⟩
    cases hstored

theorem run_uuids_le {α : Type} (env : JobEnv) (p : Program JobPorts α) (world : JobWorld) :
    world.uuids ≤ (p.run env.handle world).2.uuids := by
  induction p generalizing world with
  | done value => exact le_rfl
  | call request next ih => exact (JobEnv.handle_uuids_le env request world).trans (ih _ _)

end Launches

-- What a run that began with no job keeps: a job that works counts from its
-- last answer, or else from its creation.
structure Watch.Sound (env : JobEnv) (watch : Watch) : Prop where
  drawn : ∀ row ∈ watch.world.jobs, ∃ n, n < watch.world.uuids ∧ row.id = env.uuid n
  missing : ∀ id, watch.world.jobs.get id = none → watch.answered id = none
  working : ∀ id row, watch.world.jobs.get id = some row → row.isWorking = true →
    ∃ since, watch.working id = some since ∧
      (watch.answered id = some since ∨ watch.answered id = none ∧ since = row.createdAt)

section Watching

variable {config : JobConfig} {env : JobEnv} {watch : Watch}

theorem ResearchJob.isWorking_iff (job : ResearchJob) :
    job.isWorking = true ↔ job.status = .pending ∨ job.status = .running := by
  simp [ResearchJob.isWorking]

theorem Watch.sound_start {world : JobWorld} (hempty : world.jobs = Table.empty) :
    (Watch.start world).Sound env where
  drawn row hrow := by
    rw [Watch.start, hempty] at hrow
    exact absurd hrow (Table.notMem_empty row)
  missing id _ := rfl
  working id row hrow := by
    rw [Watch.start, hempty] at hrow
    cases hrow

-- A job that works after an operation worked before it, or has been answered.
theorem Touches.working {now : Int} {op : JobOp} {row later : ResearchJob}
    (h : Touches config now op row later) (hworking : later.isWorking = true) :
    later.createdAt = row.createdAt ∧ (row.isWorking = true ∨ row.status = .awaitingInput) := by
  have hstatus := (ResearchJob.isWorking_iff later).mp hworking
  cases op with
  | start jobId =>
      obtain ⟨-, rfl⟩ := h
      unfold ResearchJob.start at hworking ⊢
      by_cases hpending : row.status = .pending
      · rw [if_pos hpending]
        exact ⟨rfl, Or.inl ((ResearchJob.isWorking_iff row).mpr (Or.inl hpending))⟩
      · rw [if_neg hpending] at hworking ⊢
        exact ⟨rfl, Or.inl hworking⟩
  | complete jobId results =>
      obtain ⟨-, clock, rfl⟩ := h
      simp [ResearchJob.complete] at hstatus
  | requestInput jobId question =>
      obtain ⟨-, hasked⟩ := h
      unfold ResearchJob.requestInput at hasked
      dsimp only at hasked
      split at hasked
      · cases hasked
      · split at hasked
        · cases hasked
          simp at hstatus
        · cases hasked
          exact ⟨rfl, Or.inl hworking⟩
  | recordUsage jobId usage =>
      obtain ⟨-, rfl⟩ := h
      exact ⟨rfl, Or.inl hworking⟩
  | fail jobId error =>
      obtain ⟨-, clock, rfl⟩ := h
      unfold ResearchJob.fail at hstatus
      split at hstatus
      · rename_i hcompleted
        simp [hcompleted] at hstatus
      · simp at hstatus
  | answer userId jobId answer =>
      obtain ⟨-, answered, hanswered, hlater⟩ := h
      have hawaiting : row.status = .awaitingInput ∧ answered.createdAt = row.createdAt ∧
          answered.status = .pending := by
        unfold ResearchJob.provideAnswer at hanswered
        dsimp only at hanswered
        split at hanswered
        · cases hanswered
        · split at hanswered
          · cases hanswered
          · split at hanswered
            · cases hanswered
            · rename_i hstatus
              cases hanswered
              exact ⟨not_not.mp hstatus, rfl, rfl⟩
      cases hlater with
      | inl heq =>
          rw [heq]
          exact ⟨hawaiting.2.1, Or.inr hawaiting.1⟩
      | inr hfail =>
          obtain ⟨clock, error, rfl⟩ := hfail
          simp [ResearchJob.fail, hawaiting.2.2] at hstatus
  | failStale =>
      obtain ⟨hopen, -, clock, error, rfl⟩ := h
      unfold ResearchJob.fail at hstatus
      split at hstatus
      · rename_i hcompleted
        simp [hcompleted] at hstatus
      · simp at hstatus
  | recordStep _ _ | launch _ _ _ | runDue => exact h.elim

-- What one operation does under one identifier: nothing is stored there, or a
-- new job is, or a job that was there goes on.
theorem Watch.Sound.change (huuid : Function.Injective env.uuid) (h : watch.Sound env)
    (moment : Moment) (id : Uuid) :
    let later := (watch.next config env moment).world
    (watch.world.jobs.get id = none ∧ later.jobs.get id = none) ∨
      (∃ row, watch.world.jobs.get id = none ∧ later.jobs.get id = some row ∧
        Drawn env watch.world later id) ∨
      ∃ old row, watch.world.jobs.get id = some old ∧ later.jobs.get id = some row ∧
        (row.isWorking = true → row.createdAt = old.createdAt ∧
          (old.isWorking = true ∨ old.status = .awaitingInput)) := by
  obtain ⟨instant, op⟩ := moment
  intro later
  cases hop : op.launches with
  | true =>
      have hlaunched : Launched (env.at_ instant) watch.world later :=
        serve_launched config (env.at_ instant) watch.world hop
      cases hold : watch.world.jobs.get id with
      | some old =>
          -- the identifier of a stored job is not drawn again
          obtain ⟨hmem, hid⟩ := (Table.get_eq_some _ _ _).mp hold
          obtain ⟨m, hm, hdrawn⟩ := h.drawn old hmem
          have hkept := hlaunched.others id fun n hle _ heq => by
            have hmn : m = n := huuid (hdrawn.symm.trans (hid.trans heq))
            omega
          refine Or.inr (Or.inr ⟨old, old, rfl, hkept.trans hold, fun hworking => ?_⟩)
          exact ⟨rfl, Or.inl hworking⟩
      | none =>
          cases hnew : later.jobs.get id with
          | none => exact Or.inl ⟨rfl, rfl⟩
          | some row =>
              refine Or.inr (Or.inl ⟨row, rfl, rfl, ?_⟩)
              by_contra hnot
              have hkept := hlaunched.others id fun n hle hlt heq => hnot ⟨n, hle, hlt, heq⟩
              rw [hnew, hold] at hkept
              cases hkept
  | false =>
      have hmoved := serve_moved config (env.at_ instant) watch.world hop
      cases hold : watch.world.jobs.get id with
      | none => exact Or.inl ⟨rfl, hmoved.missing id hold⟩
      | some old =>
          obtain ⟨row, hrow, hkept⟩ := hmoved.stored id old hold
          refine Or.inr (Or.inr ⟨old, row, rfl, hrow, fun hworking => ?_⟩)
          cases hkept with
          | inl heq =>
              rw [heq] at hworking ⊢
              exact ⟨rfl, Or.inl hworking⟩
          | inr htouches => exact htouches.working hworking

theorem Watch.sound_next (huuid : Function.Injective env.uuid) (h : watch.Sound env)
    (moment : Moment) : (watch.next config env moment).Sound env := by
  have huuids : watch.world.uuids ≤ (watch.next config env moment).world.uuids :=
    run_uuids_le (env.at_ moment.1) _ _
  constructor
  · intro row hrow
    have hget := (Table.get_eq_some _ _ _).mpr ⟨hrow, rfl⟩
    rcases h.change huuid moment row.id with ⟨-, hnone⟩ | ⟨new, -, -, n, -, hlt, heq⟩ |
        ⟨old, new, hold, -, -⟩
    · rw [hget] at hnone
      cases hnone
    · exact ⟨n, hlt, heq⟩
    · obtain ⟨hmem, hid⟩ := (Table.get_eq_some _ _ _).mp hold
      obtain ⟨n, hlt, heq⟩ := h.drawn old hmem
      exact ⟨n, by omega, hid.symm.trans heq⟩
  · intro id hnone
    rcases h.change huuid moment id with ⟨hold, -⟩ | ⟨new, -, hnew, -⟩ | ⟨old, new, -, hnew, -⟩
    · simp only [Watch.next, hold]
      exact h.missing id hold
    · rw [hnew] at hnone
      cases hnone
    · rw [hnew] at hnone
      cases hnone
  · intro id row hrow hworking
    rcases h.change huuid moment id with ⟨-, hnone⟩ | ⟨new, hold, hnew, -⟩ |
        ⟨old, new, hold, hnew, hgoes⟩
    · rw [hnone] at hrow
      cases hrow
    · have heq : new = row := Option.some.inj (hnew.symm.trans hrow)
      rw [heq] at hnew
      have hlater : ((env.at_ moment.1).serve config watch.world moment.2).2.jobs.get id =
          some row := hnew
      simp only [Watch.next, hold, hlater, if_pos hworking]
      exact ⟨row.createdAt, rfl, Or.inr ⟨h.missing id hold, rfl⟩⟩
    · have heq : new = row := Option.some.inj (hnew.symm.trans hrow)
      rw [heq] at hnew hgoes
      have hlater : ((env.at_ moment.1).serve config watch.world moment.2).2.jobs.get id =
          some row := hnew
      obtain ⟨hcreated, hbefore⟩ := hgoes hworking
      simp only [Watch.next, hold, hlater, hworking, if_true, and_true]
      by_cases hawaiting : old.status = .awaitingInput
      · simp only [hawaiting, if_true]
        exact ⟨moment.1, rfl, Or.inl rfl⟩
      · obtain ⟨since, hsince, hcounts⟩ := h.working id old hold
          (hbefore.resolve_right hawaiting)
        simp only [hawaiting, if_false, hcreated]
        exact ⟨since, hsince, hcounts⟩

theorem Watch.sound_along (huuid : Function.Injective env.uuid) (h : watch.Sound env)
    (moments : List Moment) : (watch.along config env moments).Sound env := by
  induction moments generalizing watch with
  | nil => exact h
  | cons moment rest ih => exact ih (Watch.sound_next huuid h moment)

-- A tick that fails a job has found it working, and created long enough ago.
theorem failStale_fails {now : Int} {id : Uuid} {row later : ResearchJob}
    (hrow : watch.world.jobs.get id = some row) (hstatus : row.status ≠ .failed)
    (hlater : (watch.next config env (now, .failStale)).world.jobs.get id = some later)
    (hfailed : later.status = .failed) :
    row.isWorking = true ∧ row.createdAt < now - Duration.seconds config.timeoutSecs := by
  have hop : JobOp.failStale.launches = false := rfl
  obtain ⟨next, hnext, hkept⟩ :=
    (serve_moved config (env.at_ now) watch.world hop).stored id row hrow
  have heq : next = later := Option.some.inj (hnext.symm.trans hlater)
  cases hkept with
  | inl hsame =>
      rw [← heq, hsame] at hfailed
      exact absurd hfailed hstatus
  | inr htouches =>
      obtain ⟨hopen, hold, -⟩ := htouches
      exact ⟨(ResearchJob.isWorking_iff row).mpr hopen, hold⟩

theorem Watch.paced_append (before after : List Moment) :
    watch.Paced config env (before ++ after) ↔
      watch.Paced config env before ∧ (watch.along config env before).Paced config env after := by
  induction before generalizing watch with
  | nil => simp [Watch.Paced, Watch.along]
  | cons moment rest ih =>
      rw [List.cons_append, Watch.Paced, Watch.Paced, ih, and_assoc]
      rfl

-- A run that begins with no job: where every tick is unhurried, a tick fails
-- only jobs that have been working for longer than the timeout.
theorem reaper_kills_stalled (huuid : Function.Injective env.uuid) {world : JobWorld}
    (hempty : world.jobs = Table.empty) {before after : List Moment} {now : Int}
    (hpaced : (Watch.start world).Paced config env (before ++ (now, .failStale) :: after))
    {id : Uuid} {row later : ResearchJob}
    (hrow : ((Watch.start world).along config env before).world.jobs.get id = some row)
    (hstatus : row.status ≠ .failed)
    (hlater : ((Watch.start world).along config env (before ++ [(now, .failStale)])).world.jobs.get
      id = some later)
    (hfailed : later.status = .failed) :
    ∃ since, ((Watch.start world).along config env before).working id = some since ∧
      Duration.seconds config.timeoutSecs < now - since := by
  rw [Watch.along, List.foldl_append] at hlater
  obtain ⟨hworking, hold⟩ := failStale_fails hrow hstatus hlater hfailed
  obtain ⟨since, hsince, hcounts⟩ :=
    (Watch.sound_along huuid (Watch.sound_start hempty) before).working id row hrow hworking
  refine ⟨since, hsince, ?_⟩
  cases hcounts with
  | inl hanswered =>
      have hunhurried := ((Watch.paced_append before _).mp hpaced).2.1 rfl
      have hlate := hunhurried id row since hrow hworking hold hanswered
      omega
  | inr hcreated =>
      have heq := hcreated.2
      omega

end Watching

-- A job that is launched, pauses, and is answered after two hours. The first
-- identifier that is drawn is its own.
namespace Sample

def noJobs : JobWorld := { world with jobs := Table.empty }

def resumed : List Moment :=
  [(1767225600000000000, .launch visitor "lean 4" .agent),
    (1767225601000000000, .start (uuid 0)),
    (1767225602000000000, .requestInput (uuid 0) "4.0 or later?"),
    (1767232800000000000, .answer visitor (uuid 0) "later")]

def watched : Watch := (Watch.start noJobs).along config (env .postgres) resumed

theorem watched_answered : watched.answered (uuid 0) = some 1767232800000000000 := by
  decide +kernel

theorem watched_ids : watched.world.jobs.rows.map ResearchJob.id = [uuid 0] := by
  decide +kernel

-- A tick a quarter of an hour after the answer, or later, is unhurried.
theorem watched_unhurried {now : Int}
    (h : 1767232800000000000 < now - Duration.seconds config.timeoutSecs) :
    watched.Unhurried config now := by
  intro id row answered hrow _ _ hanswered
  obtain ⟨hmem, hid⟩ := (Table.get_eq_some _ _ _).mp hrow
  have hids : row.id ∈ watched.world.jobs.rows.map ResearchJob.id := List.mem_map_of_mem hmem
  rw [watched_ids, List.mem_singleton, hid] at hids
  rw [hids, watched_answered] at hanswered
  cases hanswered
  exact h

end Sample

-- The tick comes a second after the answer.
theorem reaper_kills_resumed :
    (Sample.watched.world.jobs.get (Sample.uuid 0)).map ResearchJob.status = some .pending ∧
      Sample.watched.working (Sample.uuid 0) = some 1767232800000000000 ∧
      ((Sample.watched.next Sample.config (Sample.env .postgres)
        (1767232801000000000, .failStale)).world.jobs.get (Sample.uuid 0)).map
          ResearchJob.status = some .failed := by
  decide +kernel

-- The tick comes twenty minutes after the answer.
theorem reaper_kills_stalled_resumed :
    let watch := Sample.watched
    let now := 1767234000000000000
    ((watch.next Sample.config (Sample.env .postgres) (now, .failStale)).world.jobs.get
      (Sample.uuid 0)).map ResearchJob.status = some .failed ∧
      ∃ since, watch.working (Sample.uuid 0) = some since ∧
        Duration.seconds Sample.config.timeoutSecs < now - since := by
  intro watch now
  have hbefore : (watch.world.jobs.get (Sample.uuid 0)).map ResearchJob.status =
      some .pending := by decide +kernel
  have hafter : ((watch.next Sample.config (Sample.env .postgres) (now, .failStale)).world.jobs.get
      (Sample.uuid 0)).map ResearchJob.status = some .failed := by decide +kernel
  obtain ⟨row, hrow, hstatus⟩ := Option.map_eq_some_iff.mp hbefore
  obtain ⟨later, hlater, hfailed⟩ := Option.map_eq_some_iff.mp hafter
  have hpaced : (Watch.start Sample.noJobs).Paced Sample.config (Sample.env .postgres)
      (Sample.resumed ++ (now, .failStale) :: []) :=
    ⟨nofun, nofun, nofun, nofun, fun _ => Sample.watched_unhurried (by decide), trivial⟩
  have hinjective : Function.Injective (Sample.env .postgres).uuid := Sample.uuid_injective
  exact ⟨hafter, reaper_kills_stalled hinjective rfl hpaced hrow (by simp [hstatus]) hlater
    hfailed⟩

end AgentBoilerplate.Job
