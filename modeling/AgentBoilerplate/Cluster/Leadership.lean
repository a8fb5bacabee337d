import AgentBoilerplate.Cluster
import AgentBoilerplate.Effects.Protocol
import AgentBoilerplate.Job.Footprint

namespace AgentBoilerplate.Cluster

open Effects Collections Job Deletion Profile

-- A tick that has listed the due searches: the reading it listed them at, those it
-- has not marked yet, and the one that it has launched and is about to mark.
structure Listing where
  now : Int
  due : List Uuid
  launched : Option Uuid

-- Where a thread of the cluster is with the lock.
inductive Phase where
  | idle
  | holding (session : SessionId)
  | leading (session : SessionId) (listing : Option Listing)

def Settled (listing : Option Listing) : Prop := ∀ l ∈ listing, l.launched = none

-- The work on jobs that is the leader's alone.
def led : JobCall → Bool
  | .listUnfinishedOlderThan _ | .listDue _ | .markRan _ _ => true
  | _ => false

def PermitsJob : Phase → JobCall → Prop
  | .idle, request => led request = false
  | .holding _, _ => False
  | .leading _ listing, .markRan id at_ => ∃ l, listing = some l ∧ at_ = l.now ∧ id ∈ l.due ∧
      (l.launched = none ∨ l.launched = some id)
  | .leading _ listing, .dispatch job _ => ∃ l id, listing = some l ∧ l.launched = none ∧
      job.recurringSearchId = some id ∧ id ∈ l.due
  | .leading _ listing, _ => Settled listing

def PermitsLoop : Phase → LoopCall → Prop
  | .idle, .connect | .idle, .sessionEnds _ => True
  | .holding session, .tryLock other | .holding session, .putBack other => other = session
  | .leading session listing, .unlock other => other = session ∧ Settled listing
  | .leading _ listing, .deleteExpired _ | .leading _ listing, .deleteFinishedBefore _
  | .leading _ listing, .deleteBefore _ => Settled listing
  | _, _ => False

def Permits (phase : Phase) : ClusterPorts.Call → Prop
  | .inl (.inl request) => PermitsJob phase request
  | .inl (.inr _) => phase = .idle
  | .inr (.inl _) => phase = .idle
  | .inr (.inr request) => PermitsLoop phase request

def nextOnJob : Phase → Event JobPorts → Phase
  | .leading session _, ⟨.listDue now, .ok due⟩ =>
      .leading session (some ⟨now, due.map RecurringSearch.id, none⟩)
  | .leading session (some l), ⟨.dispatch job _, .ok ()⟩ =>
      .leading session (some { l with launched := job.recurringSearchId })
  | .leading session (some l), ⟨.markRan id _, _⟩ =>
      .leading session (some { l with due := l.due.erase id, launched := none })
  | phase, _ => phase

def nextOnLoop : Phase → Event LoopPorts → Phase
  | .idle, ⟨.connect, .ok session⟩ => .holding session
  | .holding session, ⟨.tryLock _, .ok true⟩ => .leading session none
  | .leading session _, ⟨.unlock _, _⟩ => .holding session
  | .holding _, ⟨.putBack _, _⟩ => .idle
  | phase, _ => phase

-- How the threads of a cluster use the lock: the work of the background loop is done
-- between taking the lock and giving it back, and a launched search is marked at once.
def leadership : Protocol ClusterPorts Phase where
  permits := Permits
  next phase
    | ⟨.inl (.inl request), answer⟩ => nextOnJob phase ⟨request, answer⟩
    | ⟨.inr (.inr request), answer⟩ => nextOnLoop phase ⟨request, answer⟩
    | _ => phase

section Obeys

variable {session : SessionId} {listing : Option Listing}

-- The programs of the background loop make their calls on jobs in the phase of a
-- leader, and leave it with no launched search unmarked.
def Leads {α : Type} (session : SessionId) (phase : Phase) (_ : α) : Prop :=
  ∃ listing, phase = .leading session listing ∧ Settled listing

theorem settled_none : Settled none := by
  intro l hl
  cases hl

theorem settled_some {l : Listing} (h : l.launched = none) : Settled (some l) := by
  intro other hother
  cases hother
  exact h

theorem failNow_obeys (h : Settled listing) (job : ResearchJob) (error : String) :
    (job.failNow error).Obeys leadership.left.left
      (fun phase _ => phase = .leading session listing) (.leading session listing) := by
  unfold ResearchJob.failNow
  split
  · rfl
  · exact ⟨h, fun _ => rfl⟩

theorem reap_obeys (timeoutSecs : Nat) (stale : List ResearchJob) (reaped : Nat) :
    (FailStaleJobs.reap timeoutSecs stale reaped).run.Obeys leadership.left.left
      (Leads session) (.leading session none) := by
  induction stale generalizing reaped with
  | nil => exact ⟨none, rfl, settled_none⟩
  | cons job stale ih =>
      rw [FailStaleJobs.reap, Fallible.run_lift_bind]
      refine (failNow_obeys settled_none job _).bind ?_
      rintro _ failed rfl
      rw [Fallible.run_orFail_bind]
      refine ⟨settled_none, ?_⟩
      rintro (e | _)
      · exact ⟨none, rfl, settled_none⟩
      · exact ih (reaped + 1)

theorem failStale_obeys (timeoutSecs : Nat) :
    (FailStaleJobs.execute timeoutSecs).run.Obeys leadership.left.left
      (Leads session) (.leading session none) := by
  unfold FailStaleJobs.execute
  simp only [Fallible.run_lift_bind, Job.ask, Program.call_bind, Program.done_bind,
    Program.obeys_call]
  refine ⟨settled_none, fun now => ?_⟩
  split
  · exact ⟨none, rfl, settled_none⟩
  · simp only [Fallible.run_orFail_bind, Program.call_bind, Program.done_bind, Program.obeys_call]
    refine ⟨settled_none, ?_⟩
    rintro (e | stale)
    · exact ⟨none, rfl, settled_none⟩
    · exact reap_obeys timeoutSecs stale 0

-- What is left of a listing, once the searches before these are marked.
def listed (now : Int) (due : List RecurringSearch) : Option Listing :=
  some ⟨now, due.map RecurringSearch.id, none⟩

theorem listed_settled (now : Int) (due : List RecurringSearch) : Settled (listed now due) :=
  settled_some rfl

-- How one due search leaves the tick: marked, or with the failure that ends it.
def Handled (session : SessionId) (now : Int) (due : List RecurringSearch) (phase : Phase) :
    Except PortError Nat → Prop
  | .ok _ => phase = .leading session (listed now due)
  | .error e => Leads session phase e

variable {now : Int} {search : RecurringSearch} {due : List RecurringSearch}

theorem markRan_next (launched : Option Uuid) (answer : Except PortError Unit) :
    leadership.left.left.next
      (.leading session (some ⟨now, (search :: due).map RecurringSearch.id, launched⟩))
      ⟨.markRan search.id now, answer⟩ = .leading session (listed now due) := by
  cases answer with
  | error e => simp [Protocol.left, leadership, nextOnJob, listed]
  | ok _ => simp [Protocol.left, leadership, nextOnJob, listed]

-- The mark that ends the handling of a search.
theorem mark_obeys (launched : Option Uuid)
    (hlaunched : launched = none ∨ launched = some search.id) (value : Nat) :
    (do
      orFail id (Job.ask (.markRan search.id now))
      return value : Job.UseCase PortError Nat).run.Obeys leadership.left.left
        (Handled session now due)
        (.leading session (some ⟨now, (search :: due).map RecurringSearch.id, launched⟩)) := by
  rw [Fallible.run_orFail_bind]
  refine ⟨⟨_, rfl, rfl, List.mem_cons_self, hlaunched⟩, fun answer => ?_⟩
  rw [markRan_next]
  cases answer with
  | error e => exact ⟨_, rfl, listed_settled now due⟩
  | ok _ => rfl

theorem runOne_obeys (dailyQuota : Nat) :
    (RunDueSearches.runOne dailyQuota now search).run.Obeys leadership.left.left
      (Handled session now due) (.leading session (listed now (search :: due))) := by
  have hsettled := listed_settled now (search :: due)
  have hfails : ∀ e, Handled session now due (.leading session (listed now (search :: due)))
      (.error e) := fun e => ⟨_, rfl, hsettled⟩
  unfold RunDueSearches.runOne
  simp only [Fallible.run_orFail_bind, Job.ask, Program.call_bind, Program.done_bind,
    Program.obeys_call]
  refine ⟨hsettled, ?_⟩
  rintro (e | used)
  · exact hfails e
  dsimp only
  split
  · exact mark_obeys none (Or.inl rfl) 0
  simp only [Fallible.run_orFail_bind, Program.call_bind, Program.done_bind, Program.obeys_call]
  refine ⟨hsettled, ?_⟩
  rintro (e | seenUrls)
  · exact hfails e
  dsimp only
  rw [newNow_bind]
  -- which check refuses the keyword plays no part
  generalize (trim search.keyword).length = length
  generalize (trim search.keyword).isEmpty = empty
  split
  · exact hfails _
  split
  · exact hfails _
  refine ⟨hsettled, fun id => ⟨hsettled, fun clock => ?_⟩⟩
  beta_reduce
  generalize ResearchJob.new id clock search.userId search.keyword = created
  cases created with
  | error e => exact hfails _
  | ok job =>
      dsimp only
      refine ⟨hsettled, ?_⟩
      rintro (e | _)
      · exact hfails e
      simp only [Fallible.run_lift_bind, Program.call_bind, Program.done_bind, Program.obeys_call]
      refine ⟨⟨_, search.id, rfl, rfl, rfl, List.mem_cons_self⟩, ?_⟩
      rintro (e | _)
      · -- the refused job is stored as failed before the search is marked
        dsimp only
        rw [Fallible.run_lift_bind]
        refine (failNow_obeys hsettled _ _).bind ?_
        rintro _ failed rfl
        rw [Fallible.run_orFail_bind]
        refine ⟨hsettled, ?_⟩
        rintro (e | _)
        · exact hfails e
        · exact mark_obeys none (Or.inl rfl) 0
      · exact mark_obeys (some search.id) (Or.inr rfl) 1

theorem runAll_obeys (dailyQuota : Nat) (due : List RecurringSearch) (launched : Nat) :
    (RunDueSearches.runAll dailyQuota now due launched).run.Obeys leadership.left.left
      (Leads session) (.leading session (listed now due)) := by
  induction due generalizing launched with
  | nil => exact ⟨_, rfl, listed_settled now []⟩
  | cons search due ih =>
      rw [RunDueSearches.runAll]
      refine Fallible.obeys_bind (runOne_obeys dailyQuota) ?_ fun later e h => h
      rintro _ more rfl
      exact ih (launched + more)

theorem runDue_obeys (dailyQuota : Nat) (h : Settled listing) :
    (RunDueSearches.execute dailyQuota).run.Obeys leadership.left.left
      (Leads session) (.leading session listing) := by
  unfold RunDueSearches.execute
  simp only [Fallible.run_lift_bind, Fallible.run_orFail_bind, Job.ask, Program.call_bind,
    Program.done_bind, Program.obeys_call]
  refine ⟨h, fun now => ⟨h, ?_⟩⟩
  rintro (e | due)
  · exact ⟨listing, rfl, h⟩
  · exact runAll_obeys dailyQuota due 0

theorem purge_obeys (retentionDays : Int) (request : Int → LoopCall) (h : Settled listing)
    (hpermits : ∀ cutoff, PermitsLoop (.leading session listing) (request cutoff))
    (hstays : ∀ cutoff answer, nextOnLoop (.leading session listing) ⟨request cutoff, answer⟩ =
      .leading session listing) :
    (purge retentionDays request).Obeys leadership (Leads session) (.leading session listing) := by
  unfold purge
  split
  · refine ⟨h, fun now => ⟨hpermits _, fun answer => ?_⟩⟩
    exact ⟨listing, hstays _ answer, h⟩
  · exact ⟨listing, rfl, h⟩

theorem tick_obeys (config : ClusterConfig) :
    (tick config).Obeys leadership (Leads session) (.leading session none) := by
  unfold tick
  refine (Program.inl_obeys (Program.inl_obeys (failStale_obeys _))).bind ?_
  rintro _ _ ⟨listing, rfl, hreaped⟩
  refine (Program.inl_obeys (Program.inl_obeys (runDue_obeys _ hreaped))).bind ?_
  rintro _ _ ⟨listing, rfl, hscheduled⟩
  refine ⟨hscheduled, fun now => ⟨hscheduled, fun _ => ?_⟩⟩
  refine (purge_obeys _ .deleteFinishedBefore hscheduled (fun _ => hscheduled) fun _ _ => rfl).bind ?_
  rintro _ _ ⟨listing, rfl, hpurged⟩
  exact purge_obeys _ .deleteBefore hpurged (fun _ => hpurged) fun _ _ => rfl

-- A leader that takes the lock holds the connection it took it on.
def Acquired (phase : Phase) : Bool × Option SessionId → Prop
  | (true, held) => ∃ session, held = some session ∧ phase = .leading session none
  | (false, held) => held = none ∧ phase = .idle

theorem acquire_obeys : (PostgresLeaderLock.acquire none).Obeys leadership Acquired .idle := by
  refine ⟨trivial, ?_⟩
  rintro (e | conn)
  · exact ⟨rfl, rfl⟩
  refine ⟨rfl, ?_⟩
  rintro (e | acquired)
  · exact ⟨rfl, fun _ => ⟨rfl, rfl⟩⟩
  cases acquired with
  | true => exact ⟨conn, rfl, rfl⟩
  | false => exact ⟨rfl, fun _ => ⟨rfl, rfl⟩⟩

theorem release_obeys (h : Settled listing) :
    (PostgresLeaderLock.release (some session)).Obeys leadership
      (fun phase held => phase = .idle ∧ held = none) (.leading session listing) :=
  ⟨⟨rfl, h⟩, fun _ => ⟨rfl, fun _ => ⟨rfl, rfl⟩⟩⟩

theorem background_obeys (config : ClusterConfig) (ticks : Nat) :
    (background config ticks none).Obeys leadership (fun _ _ => True) .idle := by
  induction ticks with
  | zero => trivial
  | succ ticks ih =>
      refine acquire_obeys.bind ?_
      rintro phase ⟨acquired, held⟩ hacquired
      cases acquired with
      | false =>
          obtain ⟨rfl, rfl⟩ := hacquired
          exact ih
      | true =>
          obtain ⟨session, rfl, rfl⟩ := hacquired
          refine (tick_obeys config).bind ?_
          rintro _ _ ⟨listing, rfl, hsettled⟩
          refine (release_obeys hsettled).bind ?_
          rintro _ _ ⟨rfl, rfl⟩
          exact ih

-- What a request asks of the jobs is not the leader's work.
theorem makes_unled {op : JobOp} (hop : ticks op = false) {request : JobCall}
    (h : op.Makes request) : led request = false := by
  cases request with
  | listUnfinishedOlderThan cutoff =>
      obtain rfl : op = .failStale := h
      cases hop
  | listDue now =>
      obtain rfl : op = .runDue := h
      cases hop
  | markRan id at_ =>
      obtain rfl : op = .runDue := h
      cases hop
  | _ => rfl

theorem program_obeys (config : ClusterConfig) (op : ClusterOp) :
    (op.program config).Obeys leadership (fun _ _ => True) .idle := by
  have hignored : ∀ {α : Type} {p : Program ClusterPorts α},
      p.Obeys leadership (fun phase _ => phase = .idle) .idle →
      (do let _ ← p : Program ClusterPorts Unit).Obeys leadership (fun _ _ => True) .idle :=
    fun h => h.bind fun _ _ _ => trivial
  cases op with
  | background ticks => exact background_obeys config ticks
  | job op hop =>
      have hwithin := (op_within config.jobs op).mono fun request => makes_unled hop
      refine hignored (Program.inl_obeys (Program.inl_obeys (hwithin.obeys ?_ ?_)))
      · exact fun request h => h
      · exact fun request answer _ => rfl
  | knowledge op =>
      refine hignored (Program.inl_obeys (Program.inr_obeys (Program.inl_obeys
        ((Program.within_true op.program).obeys ?_ ?_))))
      · exact fun request _ => rfl
      · exact fun request answer _ => rfl
  | profile op =>
      refine hignored (Program.inr_obeys (Program.inl_obeys
        ((Program.within_true (op.program config.emailEnabled)).obeys ?_ ?_)))
      · exact fun request _ => rfl
      · exact fun request answer _ => rfl
  | deleteAccount userId =>
      refine hignored (Program.inl_obeys (Program.inr_obeys (Program.inr_obeys
        ((Program.within_true (Deletion.deleteAccount userId).run).obeys ?_ ?_))))
      · exact fun request _ => rfl
      · exact fun request answer _ => rfl
  | sessionEnds session => exact ⟨trivial, fun _ => trivial⟩

end Obeys

-- The connection a thread has taken from a pool, and the one it leads on.
def Phase.session : Phase → Option SessionId
  | .idle => none
  | .holding session | .leading session _ => some session

def Phase.leads : Phase → Option SessionId
  | .leading session _ => some session
  | _ => none

theorem Phase.session_of_leads {phase : Phase} {session : SessionId}
    (h : phase.leads = some session) : phase.session = some session := by
  cases phase with
  | leading other listing => exact h
  | _ => cases h

@[simp] theorem nextOnJob_session (phase : Phase) (event : Event JobPorts) :
    (nextOnJob phase event).session = phase.session := by
  unfold nextOnJob
  split <;> rfl

@[simp] theorem nextOnJob_leads (phase : Phase) (event : Event JobPorts) :
    (nextOnJob phase event).leads = phase.leads := by
  unfold nextOnJob
  split <;> rfl

section Exclusive

variable {ι : Type}

-- No connection is taken by two threads, and whoever leads on a session that has not
-- ended is the holder of the lock.
structure Exclusive (server : LockServer) (phase : ι → Phase) : Prop where
  connected : ∀ i session, (phase i).session = some session → session ∈ server.connected
  distinct : ∀ i j session, (phase i).session = some session →
    (phase j).session = some session → i = j
  held : ∀ i session, (phase i).leads = some session → session ∉ server.ended →
    ∃ times, server.holder = some (session, times)

variable {server : LockServer} {phase : ι → Phase}

theorem Exclusive.start (server : LockServer) : Exclusive server fun _ : ι => Phase.idle := by
  refine ⟨?_, ?_, ?_⟩
  · intro i session h
    cases h
  · intro i j session h
    cases h
  · intro i session h
    cases h

theorem Exclusive.unique (h : Exclusive server phase) {i j : ι} {session other : SessionId}
    (hi : (phase i).leads = some session) (hj : (phase j).leads = some other)
    (halive : session ∉ server.ended) (halive' : other ∉ server.ended) : i = j := by
  obtain ⟨times, hholder⟩ := h.held i session hi halive
  obtain ⟨times', hholder'⟩ := h.held j other hj halive'
  obtain ⟨rfl, -⟩ : session = other ∧ times = times' := by simpa [hholder] using hholder'
  exact h.distinct i j session (Phase.session_of_leads hi) (Phase.session_of_leads hj)

-- Its own connection, and nobody else's.
theorem Exclusive.own (h : Exclusive server phase) {i : ι} {session : SessionId}
    (hsession : (phase i).session = some session) : ∀ other, some session = some other →
      other ∈ server.connected ∧ ∀ j ≠ i, (phase j).session ≠ some other := by
  rintro other ⟨⟩
  refine ⟨h.connected i session hsession, fun j hj hother => hj ?_⟩
  exact h.distinct j i session hother hsession

variable [DecidableEq ι]

-- A call that leaves the lock and the connection of the thread alone.
theorem Exclusive.same (h : Exclusive server phase) {i : ι} {after : Phase}
    (hsession : after.session = (phase i).session) (hleads : after.leads = (phase i).leads) :
    Exclusive server (Function.update phase i after) := by
  have hsame : ∀ j, (Function.update phase i after j).session = (phase j).session ∧
      (Function.update phase i after j).leads = (phase j).leads := by
    intro j
    by_cases hj : j = i
    · subst hj
      simp [hsession, hleads]
    · simp [hj]
  refine ⟨fun j session hj => ?_, fun j k session hj hk => ?_, fun j session hj => ?_⟩
  · exact h.connected j session ((hsame j).1 ▸ hj)
  · exact h.distinct j k session ((hsame j).1 ▸ hj) ((hsame k).1 ▸ hk)
  · exact h.held j session ((hsame j).2 ▸ hj)

-- A thread that is left with no more than the connection it has.
theorem Exclusive.step (h : Exclusive server phase) {i : ι} {after : Phase}
    {next : LockServer} (hconnected : ∀ j ≠ i, ∀ session, (phase j).session = some session →
      session ∈ server.connected → session ∈ next.connected)
    (hsession : ∀ session, after.session = some session → session ∈ next.connected ∧
      ∀ j ≠ i, (phase j).session ≠ some session)
    (hheld : ∀ j ≠ i, ∀ session, (phase j).leads = some session → session ∉ next.ended →
      ∃ times, next.holder = some (session, times))
    (hleads : ∀ session, after.leads = some session → session ∉ next.ended →
      ∃ times, next.holder = some (session, times)) :
    Exclusive next (Function.update phase i after) := by
  refine ⟨fun j session hj => ?_, fun j k session hj hk => ?_, fun j session hj => ?_⟩
  · by_cases hij : j = i
    · subst hij
      rw [Function.update_self] at hj
      exact (hsession session hj).1
    · rw [Function.update_of_ne hij] at hj
      exact hconnected j hij session hj (h.connected j session hj)
  · by_cases hij : j = i
    · by_cases hik : k = i
      · rw [hij, hik]
      · subst hij
        rw [Function.update_self] at hj
        rw [Function.update_of_ne hik] at hk
        exact absurd hk ((hsession session hj).2 k hik)
    · rw [Function.update_of_ne hij] at hj
      by_cases hik : k = i
      · subst hik
        rw [Function.update_self] at hk
        exact absurd hj ((hsession session hk).2 j hij)
      · rw [Function.update_of_ne hik] at hk
        exact h.distinct j k session hj hk
  · by_cases hij : j = i
    · subst hij
      rw [Function.update_self] at hj
      exact hleads session hj
    · rw [Function.update_of_ne hij] at hj
      exact hheld j hij session hj

end Exclusive

namespace LockServer

variable (server : LockServer) (session : SessionId)

-- Whoever holds the lock goes on holding it when another asks for it.
theorem tryLock_spec :
    (server.tryLock session).2.connected = server.connected ∧
    (server.tryLock session).2.ended = server.ended ∧
    (∀ holder times, server.holder = some (holder, times) →
      ∃ times', (server.tryLock session).2.holder = some (holder, times')) ∧
    ((server.tryLock session).1 = .ok true →
      ∃ times, (server.tryLock session).2.holder = some (session, times)) := by
  unfold tryLock
  split
  · exact ⟨rfl, rfl, fun holder times h => ⟨times, h⟩, fun h => by cases h⟩
  cases hholder : server.holder with
  | none =>
      refine ⟨rfl, rfl, ?_, fun _ => ⟨1, rfl⟩⟩
      intro holder times h
      cases h
  | some held =>
      obtain ⟨holder, times⟩ := held
      dsimp only
      split
      · rename_i hself
        refine ⟨rfl, rfl, ?_, fun _ => ⟨times + 1, rfl⟩⟩
        intro other times' h
        cases h
        exact ⟨times + 1, by rw [hself]⟩
      · refine ⟨rfl, rfl, ?_, fun h => by cases h⟩
        intro other times' h
        exact ⟨times', hholder.trans h⟩

theorem unlock_spec :
    (server.unlock session).2.connected = server.connected ∧
    (server.unlock session).2.ended = server.ended ∧
    ∀ holder times, holder ≠ session → server.holder = some (holder, times) →
      (server.unlock session).2.holder = some (holder, times) := by
  unfold unlock
  split
  · exact ⟨rfl, rfl, fun holder times _ h => h⟩
  cases hholder : server.holder with
  | none => exact ⟨rfl, rfl, fun holder times _ h => by cases h⟩
  | some held =>
      obtain ⟨holder, times⟩ := held
      dsimp only
      split
      · exact ⟨rfl, rfl, fun other times' _ h => hholder.trans h⟩
      rename_i hself
      have hsession : holder = session := by simpa using hself
      split
      · refine ⟨rfl, rfl, fun other times' hne h => ?_⟩
        cases h
        exact absurd hsession hne
      · refine ⟨rfl, rfl, fun other times' hne h => ?_⟩
        cases h
        exact absurd hsession hne

end LockServer

namespace ClusterEnv

variable (env : ClusterEnv) (world : ClusterWorld)

-- A call on a connection that fails has its effect on the lock, or none.
theorem onServer_cases {α : Type} (effect : LockServer → Except PortError α × LockServer) :
    (env.onServer effect world).2.db = world.db ∧
    (((env.onServer effect world).1 = (effect world.server).1 ∧
        (env.onServer effect world).2.server = (effect world.server).2) ∨
      ∃ e, (env.onServer effect world).1 = .error e ∧
        ((env.onServer effect world).2.server = world.server ∨
          (env.onServer effect world).2.server = (effect world.server).2)) := by
  unfold onServer
  dsimp only
  split
  · exact ⟨rfl, Or.inr ⟨_, rfl, Or.inl rfl⟩⟩
  · exact ⟨rfl, Or.inr ⟨_, rfl, Or.inr rfl⟩⟩
  · exact ⟨rfl, Or.inl ⟨rfl, rfl⟩⟩

theorem onDatabase_server {α : Type} {effect : ClusterWorld → α × ClusterWorld}
    (h : ∀ world, (effect world).2.server = world.server) :
    (env.onDatabase effect world).2.server = world.server := by
  unfold onDatabase
  split
  · rfl
  · exact h _

end ClusterEnv

section Run

variable {ι : Type} [DecidableEq ι] {env : ClusterEnv} {world : ClusterWorld} {phase : ι → Phase}
  {i : ι} {session : SessionId}

theorem connect_exclusive (h : Exclusive world.server phase) (hidle : phase i = .idle) :
    Exclusive (env.loop .connect world).2.server (Function.update phase i
      (nextOnLoop (phase i) ⟨.connect, (env.loop .connect world).1⟩)) := by
  have hgrown : ∀ choice, Exclusive (world.server.connect choice).2 phase := by
    intro choice
    unfold LockServer.connect
    split
    · split
      · exact h
      · refine ⟨fun j other hj => ?_, h.distinct, h.held⟩
        exact List.mem_cons_of_mem _ (h.connected j other hj)
    · exact h
  obtain ⟨-, ⟨hanswer, hserver⟩ | ⟨e, hanswer, hserver⟩⟩ :=
    env.onServer_cases world (LockServer.connect · (env.pool world.asked))
  · simp only [ClusterEnv.loop, hanswer, hserver, hidle]
    cases hpool : env.pool world.asked with
    | none => exact h.same (by rw [hidle]; rfl) (by rw [hidle]; rfl)
    | some session =>
        simp only [LockServer.connect]
        split
        · exact h.same (by rw [hidle]; rfl) (by rw [hidle]; rfl)
        rename_i hfree
        refine h.step (fun j _ other _ hmem => List.mem_cons_of_mem _ hmem) ?_
          (fun j _ => h.held j) fun other hother => by cases hother
        intro other hother
        cases hother
        refine ⟨List.mem_cons_self, fun j _ hj => hfree (Or.inl (h.connected j session hj))⟩
  · simp only [ClusterEnv.loop, hanswer, hidle]
    rcases hserver with hserver | hserver
    · rw [hserver]
      exact h.same (by rw [hidle]; rfl) (by rw [hidle]; rfl)
    · rw [hserver]
      exact (hgrown _).same (by rw [hidle]; rfl) (by rw [hidle]; rfl)

theorem tryLock_exclusive (h : Exclusive world.server phase) (hphase : phase i = .holding session) :
    Exclusive (env.loop (.tryLock session) world).2.server (Function.update phase i
      (nextOnLoop (phase i) ⟨.tryLock session, (env.loop (.tryLock session) world).1⟩)) := by
  obtain ⟨hconnected, hended, hkept, htaken⟩ := world.server.tryLock_spec session
  have hsession : (phase i).session = some session := by rw [hphase]; rfl
  have hown := h.own hsession
  have hstep : ∀ after : Phase, after.session = some session →
      (after.leads = none ∨ after.leads = some session ∧
        (world.server.tryLock session).1 = .ok true) →
      Exclusive (world.server.tryLock session).2 (Function.update phase i after) := by
    intro after hafter hleads
    refine h.step (fun j _ other _ hmem => hconnected ▸ hmem) ?_ ?_ ?_
    · rw [hafter, hconnected]
      exact hown
    · intro j _ other hj halive
      obtain ⟨times, hholder⟩ := h.held j other hj (hended ▸ halive)
      exact hkept other times hholder
    · intro other hother _
      rcases hleads with hnone | ⟨hsome, htrue⟩
      · rw [hnone] at hother
        cases hother
      · obtain rfl : session = other := by simpa [hsome] using hother
        exact htaken htrue
  obtain ⟨-, ⟨hanswer, hserver⟩ | ⟨e, hanswer, hserver⟩⟩ :=
    env.onServer_cases world (LockServer.tryLock · session)
  · simp only [ClusterEnv.loop, hanswer, hserver, hphase]
    cases hresult : (world.server.tryLock session).1 with
    | error e => exact hstep _ rfl (Or.inl rfl)
    | ok taken =>
        cases taken with
        | false => exact hstep _ rfl (Or.inl rfl)
        | true => exact hstep _ rfl (Or.inr ⟨rfl, hresult⟩)
  · simp only [ClusterEnv.loop, hanswer, hphase]
    rcases hserver with hserver | hserver
    · rw [hserver]
      exact h.same (by rw [hphase]; rfl) (by rw [hphase]; rfl)
    · rw [hserver]
      exact hstep _ rfl (Or.inl rfl)

theorem unlock_exclusive {listing : Option Listing} (h : Exclusive world.server phase)
    (hphase : phase i = .leading session listing) :
    Exclusive (env.loop (.unlock session) world).2.server (Function.update phase i
      (nextOnLoop (phase i) ⟨.unlock session, (env.loop (.unlock session) world).1⟩)) := by
  obtain ⟨hconnected, hended, hkept⟩ := world.server.unlock_spec session
  have hsession : (phase i).session = some session := by rw [hphase]; rfl
  have hown := h.own hsession
  have hstep : ∀ server, server = world.server ∨ server = (world.server.unlock session).2 →
      Exclusive server (Function.update phase i (.holding session)) := by
    rintro server (rfl | rfl)
    · exact h.step (fun j _ other _ hmem => hmem) hown (fun j _ => h.held j)
        fun other hother => by cases hother
    · refine h.step (fun j _ other _ hmem => hconnected ▸ hmem) (hconnected ▸ hown) ?_
        fun other hother => by cases hother
      intro j hj other hleads halive
      obtain ⟨times, hholder⟩ := h.held j other hleads (hended ▸ halive)
      refine ⟨times, hkept other times ?_ hholder⟩
      rintro rfl
      exact (hown other rfl).2 j hj (Phase.session_of_leads hleads)
  rw [hphase]
  refine hstep _ ?_
  obtain ⟨-, ⟨-, hserver⟩ | ⟨-, -, hserver⟩⟩ :=
    env.onServer_cases world (LockServer.unlock · session)
  · exact Or.inr hserver
  · exact hserver

theorem putBack_exclusive (h : Exclusive world.server phase) (hphase : phase i = .holding session) :
    Exclusive (world.server.putBack session) (Function.update phase i .idle) := by
  have hsession : (phase i).session = some session := by rw [hphase]; rfl
  have hown := h.own hsession
  refine h.step ?_ (fun other hother => by cases hother) (fun j _ => h.held j)
    fun other hother => by cases hother
  intro j hj other hother hmem
  refine (List.mem_erase_of_ne ?_).mpr hmem
  rintro rfl
  exact (hown other rfl).2 j hj hother

theorem sessionEnds_exclusive (h : Exclusive world.server phase) (hidle : phase i = .idle) :
    Exclusive (world.server.sessionEnds session) (Function.update phase i .idle) := by
  have hends : Exclusive (world.server.sessionEnds session) phase := by
    refine ⟨h.connected, h.distinct, fun j other hj halive => ?_⟩
    obtain ⟨hne, halive⟩ := not_or.mp (fun hor => halive (List.mem_cons.mpr hor))
    obtain ⟨times, hholder⟩ := h.held j other hj halive
    exact ⟨times, by simp [LockServer.sessionEnds, hholder, hne]⟩
  exact hends.same (by rw [hidle]) (by rw [hidle])

theorem loop_exclusive (h : Exclusive world.server phase) {request : LoopCall}
    (hpermits : PermitsLoop (phase i) request) :
    Exclusive (env.loop request world).2.server (Function.update phase i
      (nextOnLoop (phase i) ⟨request, (env.loop request world).1⟩)) := by
  have hpurge : ∀ {request}, (env.loop request world).2.server = world.server →
      nextOnLoop (phase i) ⟨request, (env.loop request world).1⟩ = phase i →
      Exclusive (env.loop request world).2.server (Function.update phase i
        (nextOnLoop (phase i) ⟨request, (env.loop request world).1⟩)) := by
    intro request hserver hnext
    rw [hserver, hnext]
    exact h.same rfl rfl
  cases hphase : phase i with
  | idle =>
      rw [hphase] at hpermits
      cases request with
      | connect =>
          rw [← hphase]
          exact connect_exclusive h hphase
      | sessionEnds session => exact sessionEnds_exclusive h hphase
      | _ => cases hpermits
  | holding session =>
      rw [hphase] at hpermits
      cases request with
      | tryLock other =>
          obtain rfl : other = session := hpermits
          rw [← hphase]
          exact tryLock_exclusive h hphase
      | putBack other =>
          obtain rfl : other = session := hpermits
          exact putBack_exclusive h hphase
      | _ => cases hpermits
  | leading session listing =>
      rw [hphase] at hpermits
      rw [← hphase]
      cases request with
      | unlock other =>
          obtain ⟨rfl, -⟩ := hpermits
          exact unlock_exclusive h hphase
      | deleteExpired now =>
          exact hpurge (env.onDatabase_server world fun _ => rfl) (by rw [hphase]; rfl)
      | deleteFinishedBefore cutoff =>
          exact hpurge (env.onDatabase_server world fun _ => rfl) (by rw [hphase]; rfl)
      | deleteBefore cutoff =>
          exact hpurge (env.onDatabase_server world fun _ => rfl) (by rw [hphase]; rfl)
      | _ => cases hpermits

theorem Exclusive.handle (env : ClusterEnv) (h : Exclusive world.server phase)
    {request : ClusterPorts.Call}
    (hpermits : leadership.permits (phase i) request) :
    Exclusive (env.handle request world).2.server (Function.update phase i
      (leadership.next (phase i) ⟨request, (env.handle request world).1⟩)) := by
  match request with
  | .inl (.inl request) => exact h.same (nextOnJob_session _ _) (nextOnJob_leads _ _)
  | .inl (.inr request) => exact h.same rfl rfl
  | .inr (.inl request) => exact h.same rfl rfl
  | .inr (.inr request) => exact loop_exclusive h hpermits

end Run

-- The connection that a thread leads on, after its calls so far.
def leader {ι : Type} (c : ClusterRuns ι) (i : ι) : Option SessionId :=
  (leadership.after .idle (c.threads i).past).leads

-- The work that is the leader's alone.
def work : ClusterPorts.Call → Bool
  | .inl (.inl request) => led request
  | .inr (.inr (.deleteExpired _)) | .inr (.inr (.deleteFinishedBefore _))
  | .inr (.inr (.deleteBefore _)) => true
  | _ => false

theorem leads_of_work {phase : Phase} {request : ClusterPorts.Call}
    (hpermits : leadership.permits phase request) (hwork : work request = true) :
    phase.leads.isSome := by
  match request, phase with
  | _, .leading session listing => rfl
  | .inl (.inl request), .idle =>
      have hled : led request = false := hpermits
      exact absurd hwork (by simp [work, hled])
  | .inl (.inl request), .holding session => cases hpermits
  | .inr (.inr (.deleteExpired _)), .idle | .inr (.inr (.deleteExpired _)), .holding _ =>
      cases hpermits
  | .inr (.inr (.deleteFinishedBefore _)), .idle
  | .inr (.inr (.deleteFinishedBefore _)), .holding _ => cases hpermits
  | .inr (.inr (.deleteBefore _)), .idle | .inr (.inr (.deleteBefore _)), .holding _ =>
      cases hpermits

-- However many replicas run, whatever the requests between their calls, whichever
-- connections the pools hand out, and whichever calls fail or sessions end: the background
-- work is only done by a thread that leads, and of the threads that lead on a
-- session that has not ended there is at most one.
theorem one_leader {ι : Type} [DecidableEq ι] (config : ClusterConfig) (env : ClusterEnv)
    (world : ClusterWorld) (ops : ι → ClusterOp) (schedule : List ι) :
    let c := (clusterRuns config world ops).run env.handle schedule
    (∀ i, (c.threads i).rest.Asks fun request => work request = true → (leader c i).isSome) ∧
      ∀ i j session other, leader c i = some session → leader c j = some other →
        session ∉ c.store.server.ended → other ∉ c.store.server.ended → i = j := by
  intro c
  obtain ⟨hobeys, hexclusive⟩ := Config.Obeys.run
    (Config.obeys_start (fun i => program_obeys config (ops i)) world)
    (fun world pasts => Exclusive world.server (Config.phases leadership (fun _ => .idle) pasts))
    (fun world pasts i request h hpermits _ => by
      rw [Config.phases_update]
      exact h.handle env hpermits)
    (Config.respects_true env.handle (clusterRuns config world ops) schedule)
    (Exclusive.start world.server)
  refine ⟨fun i => ?_, fun i j session other hi hj halive halive' => ?_⟩
  · have hi := hobeys i
    change (c.threads i).rest.Obeys _ _ _ at hi
    cases hrest : (c.threads i).rest with
    | done value => trivial
    | call request next =>
        rw [hrest] at hi
        exact fun hwork => leads_of_work hi.1 hwork
  · exact hexclusive.unique hi hj halive halive'

-- Two replicas and a user who asks for a search of their own, an hour between the
-- ticks that lead.
namespace Sample

def world : ClusterWorld where
  db := {
    jobs := { Job.Sample.world with recurring := Table.empty.insert Job.Sample.hourly }
    knowledge := {
      store := ⟨Table.empty, []⟩
      embedded := []
      calls := 0
      readings := 0
      uuids := 0 }
    tokens := Table.empty
    users := Table.empty.insert ⟨Job.Sample.job.userId, "ada@example.com", "", 0⟩
    calls := 0 }
  events := []
  server := ⟨none, [], []⟩
  asked := 0

def env : ClusterEnv where
  database := {
    jobs := {
      adapter := .postgres
      collates := fun a b => a ≤ b
      clock := fun n => 1767225660000000000 + Duration.minutes 10 * n
      uuid := Job.Sample.uuid
      fault := fun _ => none }
    knowledge := {
      adapter := .postgres
      similarity := fun _ _ => 0
      clock := fun _ => 0
      uuid := Job.Sample.uuid
      fault := fun _ => none }
    adapters := rfl
    fault := fun _ => none }
  pool := fun n => some n
  fault := fun _ => none

def config : ClusterConfig where
  jobs := ⟨20, 1800⟩
  emailEnabled := false
  dataRetentionDays := 0
  securityEventRetentionDays := 90

def ops : Nat → ClusterOp
  | 0 => .background 1
  | 1 => .background 2
  | _ => .job (.launch Job.Sample.job.userId "rust" .workflow) rfl

-- The second replica finds the lock taken, and leads after the first.
def schedule : List Nat :=
  List.replicate 9 0 ++ [1, 2, 1, 2, 2, 1] ++ List.replicate 12 0 ++ List.replicate 24 1

end Sample

end AgentBoilerplate.Cluster
