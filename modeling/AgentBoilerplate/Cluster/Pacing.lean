import AgentBoilerplate.Cluster.Leadership
import AgentBoilerplate.Job.Recurring

namespace AgentBoilerplate.Cluster

open Effects Collections Job Deletion Profile

-- The reading at which a thread listed the due searches of the tick it is in, and the
-- readings of the ticks in which it launched the search.
def launchStep (id : Uuid) (s : Option Int × List Int) : Event ClusterPorts → Option Int × List Int
  | ⟨.inl (.inl (.listDue now)), .ok _⟩ => (some now, s.2)
  | ⟨.inl (.inl (.dispatch job _)), .ok ()⟩ =>
      if job.recurringSearchId = some id then (s.1, s.2 ++ s.1.toList) else s
  | ⟨.inr (.inr (.unlock _)), _⟩ => (none, s.2)
  | _ => s

def launchTimes (id : Uuid) (past : List (Event ClusterPorts)) : List Int :=
  (past.foldl (launchStep id) (none, [])).2

-- No session ends while it holds the lock, every mark is stored, and no search is
-- created under the identifier of this one.
def Undisturbed (env : ClusterEnv) (id : Uuid) (world : ClusterWorld) : ClusterPorts.Call → Prop
  | .inr (.inr (.sessionEnds session)) => world.server.holder.map Prod.fst ≠ some session
  | .inl (.inl (.markRan _ _)) => env.database.jobs.fault world.db.jobs.calls = none
  | .inr (.inl (.insertSearch search)) => search.id ≠ id
  | _ => True

instance (env : ClusterEnv) (id : Uuid) (world : ClusterWorld) (request : ClusterPorts.Call) :
    Decidable (Undisturbed env id world request) := by
  unfold Undisturbed
  split <;> infer_instance

def Phase.listing : Phase → Option Listing
  | .leading _ listing => listing
  | _ => none

theorem Phase.leads_of_listing {phase : Phase} {l : Listing} (h : phase.listing = some l) :
    ∃ session, phase = .leading session (some l) := by
  cases phase with
  | leading session listing =>
      obtain rfl : listing = some l := h
      exact ⟨session, rfl⟩
  | _ => cases h

section Recurring

variable {env : DatabaseEnv} {db : Database}

theorem refuse_recurring {α : Type} :
    (env.refuse db : Except PortError α × Database).2.jobs.recurring = db.jobs.recurring := by
  simp only [DatabaseEnv.refuse, JobEnv.attempt]
  split <;> rfl

theorem jobHandler_recurring (env : DatabaseEnv) (db : Database) {request : JobCall} (hmark : ∀ id at_, request ≠ .markRan id at_) :
    (env.jobHandler request db).2.jobs.recurring = db.jobs.recurring := by
  have hjobs : (env.onJobs request db).2.jobs.recurring = db.jobs.recurring := by
    rcases JobEnv.handle_recurring env.jobs db.jobs request with ⟨hsame, -⟩ | ⟨id, at_, hevent, -⟩
    · exact hsame
    · exact absurd (congrArg Event.call hevent) (hmark id at_)
  cases request with
  | insert job | storeResults jobId results | appendStep jobId step =>
      simp only [DatabaseEnv.jobHandler]
      split
      · exact refuse_recurring
      · exact hjobs
  | _ => exact hjobs

theorem deleteRecurring_recurring (db : Database) (adapter : Adapter) (userId : Uuid) {row : RecurringSearch}
    (h : row ∈ (db.deleteRecurring adapter userId).jobs.recurring) : row ∈ db.jobs.recurring :=
  ((Table.mem_retain _ _ _).mp h).1

theorem deletion_recurring (request : DeletionCall) {row : RecurringSearch}
    (h : row ∈ (env.deletion request db).2.jobs.recurring) : row ∈ db.jobs.recurring := by
  cases request with
  | recurring userId =>
      simp only [DatabaseEnv.deletion, DatabaseEnv.attempt] at h
      split at h
      · exact h
      · exact deleteRecurring_recurring _ _ userId h
  | user id =>
      simp only [DatabaseEnv.deletion, DatabaseEnv.attempt, Database.deleteUser] at h
      split at h
      · exact h
      · split at h
        · exact h
        · split at h
          · exact deleteRecurring_recurring db .postgres id h
          · exact h
  | _ =>
      simp only [DatabaseEnv.deletion, DatabaseEnv.attempt] at h
      split at h <;> exact h

theorem knowledgeHandler_jobs (env : DatabaseEnv) (db : Database)
    (request : Knowledge.KnowledgeCall) :
    (env.knowledgeHandler request db).2.jobs = db.jobs := by
  cases request with
  | insert document =>
      simp only [DatabaseEnv.knowledgeHandler]
      split <;> rfl
  | _ => rfl

theorem deleteSearch_recurring (adapter : Adapter) {jobs : JobWorld} (userId id : Uuid)
    {row : RecurringSearch} (h : row ∈ (deleteRecurringSearch adapter jobs userId id).2.recurring) :
    row ∈ jobs.recurring := by
  unfold deleteRecurringSearch at h
  split at h
  · exact ((Table.mem_remove _ _ _).mp h).1
  · exact h

end Recurring

section Handled

variable {env : ClusterEnv} {world : ClusterWorld}

theorem profile_recurring {db : Database} (request : ProfileCall) {row : RecurringSearch}
    (h : row ∈ (env.profile request db).2.jobs.recurring) :
    row ∈ db.jobs.recurring ∨ request = .insertSearch row := by
  cases request with
  | insertSearch search =>
      simp only [ClusterEnv.profile, DatabaseEnv.attempt] at h
      split at h
      · exact Or.inl h
      · split at h
        · exact Or.inl h
        · rcases (Table.mem_insert _ _ _).mp h with rfl | ⟨hold, -⟩
          · exact Or.inr rfl
          · exact Or.inl hold
  | deleteSearch userId id =>
      simp only [ClusterEnv.profile, DatabaseEnv.attempt] at h
      split at h
      · exact Or.inl h
      · exact Or.inl (deleteSearch_recurring _ userId id h)
  | utcNow | newUuid => exact Or.inl h
  | findUser | listChannels | listSearches =>
      simp only [ClusterEnv.profile, DatabaseEnv.attempt] at h
      split at h <;> exact Or.inl h
  | insertChannel | deleteChannel =>
      simp only [ClusterEnv.profile, DatabaseEnv.attempt] at h
      split at h
      · exact Or.inl h
      · split at h <;> exact Or.inl h

theorem loop_recurring (request : LoopCall) :
    (env.loop request world).2.db.jobs.recurring = world.db.jobs.recurring := by
  cases request with
  | connect => rw [ClusterEnv.loop, (env.onServer_cases world _).1]
  | tryLock session => rw [ClusterEnv.loop, (env.onServer_cases world _).1]
  | unlock session => rw [ClusterEnv.loop, (env.onServer_cases world _).1]
  | putBack session | sessionEnds session => rfl
  | deleteExpired | deleteFinishedBefore | deleteBefore =>
      simp only [ClusterEnv.loop, ClusterEnv.onDatabase]
      split <;> rfl

-- Where a stored search comes from, but for a mark.
theorem mem_handle_recurring {request : ClusterPorts.Call}
    (hmark : ∀ id at_, request ≠ .inl (.inl (.markRan id at_))) {row : RecurringSearch}
    (h : row ∈ (env.handle request world).2.db.jobs.recurring) :
    row ∈ world.db.jobs.recurring ∨ request = .inr (.inl (.insertSearch row)) := by
  match request with
  | .inl (.inl request) =>
      have hsame := jobHandler_recurring env.database world.db fun id at_ heq =>
        hmark id at_ (congrArg (fun call => Sum.inl (Sum.inl call)) heq)
      exact Or.inl (hsame ▸ h)
  | .inl (.inr (.inl request)) =>
      have hsame := knowledgeHandler_jobs env.database world.db request
      exact Or.inl (hsame ▸ h)
  | .inl (.inr (.inr request)) => exact Or.inl (deletion_recurring request h)
  | .inr (.inl request) =>
      rcases profile_recurring request h with hold | rfl
      · exact Or.inl hold
      · exact Or.inr rfl
  | .inr (.inr request) => exact Or.inl (loop_recurring request ▸ h)

theorem handle_markRan (id : Uuid) (at_ : Int)
    (hkept : env.database.jobs.fault world.db.jobs.calls = none) :
    (env.handle (.inl (.inl (.markRan id at_))) world).2.db.jobs.recurring =
      world.db.jobs.recurring.modify id fun search =>
        search.markRan (env.database.jobs.adapter.timestamp at_) := by
  change (env.database.jobs.handle (.markRan id at_) world.db.jobs).2.recurring = _
  simp only [JobEnv.handle, JobEnv.attempt, hkept]

end Handled

section Paced

variable {ι : Type} {env : ClusterEnv} {search : RecurringSearch}

-- When a launch of a tick is counted, as the database keeps it.
def ClusterEnv.at_ (env : ClusterEnv) (time : Int) : Int := env.database.jobs.adapter.timestamp time

-- Any two launches, of one thread or of two, are an interval apart.
def Apart (env : ClusterEnv) (search : RecurringSearch) (times : ι → List Int) : Prop :=
  ∀ (i j : ι) (m n : Nat) (first second : Int), (times i)[m]? = some first →
    (times j)[n]? = some second → (i, m) ≠ (j, n) →
      env.at_ first + Duration.minutes search.intervalMinutes ≤ env.at_ second ∨
        env.at_ second + Duration.minutes search.intervalMinutes ≤ env.at_ first

-- A search that is launched and not yet marked.
def Launching (phase : ι → Phase) (id : Uuid) : Prop :=
  ∃ i l, (phase i).listing = some l ∧ l.launched = some id

-- A reading is an interval after every launch, or no earlier than any.
def Clear (env : ClusterEnv) (search : RecurringSearch) (times : ι → List Int) (now : Int) : Prop :=
  ∀ j, ∀ time ∈ times j,
    env.at_ time + Duration.minutes search.intervalMinutes ≤ env.at_ now

def Past (env : ClusterEnv) (times : ι → List Int) (now : Int) : Prop :=
  ∀ j, ∀ time ∈ times j, env.at_ time ≤ env.at_ now

-- The stored search is marked no earlier than its last launch, unless that launch is
-- still to be marked; and a search that is listed as due is due.
structure Paced (env : ClusterEnv) (search : RecurringSearch) (world : ClusterWorld)
    (phase : ι → Phase) (times : ι → List Int) : Prop where
  exclusive : Exclusive world.server phase
  alive : ∀ i session, (phase i).leads = some session → session ∉ world.server.ended
  interval : ∀ row ∈ world.db.jobs.recurring, row.id = search.id →
    row.intervalMinutes = search.intervalMinutes
  listed : ∀ i l, (phase i).listing = some l → l.due.Nodup
  due : ∀ i l, (phase i).listing = some l → search.id ∈ l.due → l.launched ≠ some search.id →
    Clear env search times l.now
  launched : ∀ i l, (phase i).listing = some l → l.launched = some search.id →
    search.id ∈ l.due ∧ Past env times l.now
  marked : ∀ row ∈ world.db.jobs.recurring, row.id = search.id → ∀ j, ∀ time ∈ times j,
    Launching phase search.id ∨ ∃ last, row.lastRunAt = some last ∧ env.at_ time ≤ last
  apart : Apart env search times

theorem Clear.past {times : ι → List Int} {now : Int} (h : Clear env search times now) :
    Past env times now := by
  intro j time htime
  have hclear := h j time htime
  simp only [Duration.minutes, Duration.seconds] at hclear
  omega

variable {world : ClusterWorld} {phase : ι → Phase} {times : ι → List Int}

-- There is one leader.
theorem Paced.unique (h : Paced env search world phase times) {i j : ι} {session other : SessionId}
    (hi : (phase i).leads = some session) (hj : (phase j).leads = some other) : i = j :=
  h.exclusive.unique hi hj (h.alive i session hi) (h.alive j other hj)

theorem Paced.lists (h : Paced env search world phase times) {i j : ι} {session : SessionId}
    {listing : Option Listing} (hi : phase i = .leading session listing) {l : Listing}
    (hj : (phase j).listing = some l) : j = i := by
  obtain ⟨other, hother⟩ := Phase.leads_of_listing hj
  exact h.unique (by rw [hother]; rfl) (by rw [hi]; rfl)

variable [DecidableEq ι]

-- A call that launches nothing and marks nothing, and lists nothing new.
theorem Paced.quiet (h : Paced env search world phase times) {next : ClusterWorld} {i : ι}
    {after : Phase} (hexclusive : Exclusive next.server (Function.update phase i after))
    (halive : ∀ j session, (Function.update phase i after j).leads = some session →
      session ∉ next.server.ended)
    (hrows : ∀ row ∈ next.db.jobs.recurring, row.id = search.id → row ∈ world.db.jobs.recurring)
    (hlisting : after.listing = (phase i).listing ∨
      after.listing = none ∧ ∀ l, (phase i).listing = some l → l.launched = none) :
    Paced env search next (Function.update phase i after) times := by
  have hold : ∀ j l, (Function.update phase i after j).listing = some l →
      (phase j).listing = some l := by
    intro j l hl
    by_cases hj : j = i
    · subst hj
      rw [Function.update_self] at hl
      rcases hlisting with hsame | ⟨hnone, -⟩
      · rw [← hsame, hl]
      · rw [hnone] at hl
        cases hl
    · rwa [Function.update_of_ne hj] at hl
  have hlaunching : Launching phase search.id →
      Launching (Function.update phase i after) search.id := by
    rintro ⟨j, l, hl, hlaunched⟩
    refine ⟨j, l, ?_, hlaunched⟩
    by_cases hj : j = i
    · subst hj
      rw [Function.update_self]
      rcases hlisting with hsame | ⟨-, hsettled⟩
      · rw [hsame, hl]
      · rw [hsettled l hl] at hlaunched
        cases hlaunched
    · rwa [Function.update_of_ne hj]
  refine ⟨hexclusive, halive, ?_, ?_, ?_, ?_, ?_, h.apart⟩
  · exact fun row hrow hid => h.interval row (hrows row hrow hid) hid
  · exact fun j l hl => h.listed j l (hold j l hl)
  · exact fun j l hl => h.due j l (hold j l hl)
  · exact fun j l hl => h.launched j l (hold j l hl)
  · intro row hrow hid j time htime
    rcases h.marked row (hrows row hrow hid) hid j time htime with hlaunch | hmark
    · exact Or.inl (hlaunching hlaunch)
    · exact Or.inr hmark

end Paced

section Alive

variable {ι : Type} [DecidableEq ι] {env : ClusterEnv} {world : ClusterWorld} {phase : ι → Phase}
  {i : ι}

theorem loop_ended {request : LoopCall} (hends : ∀ session, request ≠ .sessionEnds session) :
    (env.loop request world).2.server.ended = world.server.ended := by
  have honServer : ∀ {α : Type} {effect : LockServer → Except PortError α × LockServer},
      (effect world.server).2.ended = world.server.ended →
      (env.onServer effect world).2.server.ended = world.server.ended := by
    intro α effect heffect
    obtain ⟨-, ⟨-, hserver⟩ | ⟨-, -, hserver | hserver⟩⟩ := env.onServer_cases world effect
    · rw [hserver, heffect]
    · rw [hserver]
    · rw [hserver, heffect]
  cases request with
  | sessionEnds session => exact absurd rfl (hends session)
  | connect =>
      refine honServer ?_
      unfold LockServer.connect
      split
      · split <;> rfl
      · rfl
  | tryLock session => exact honServer (world.server.tryLock_spec session).2.1
  | unlock session => exact honServer (world.server.unlock_spec session).2.1
  | putBack session => rfl
  | deleteExpired | deleteFinishedBefore | deleteBefore =>
      exact congrArg LockServer.ended (env.onDatabase_server world fun _ => rfl)

-- A thread leads on because it led before, or because it took the lock.
theorem nextOnLoop_leads {phase : Phase} {event : Event LoopPorts} {session : SessionId}
    (h : (nextOnLoop phase event).leads = some session) :
    phase.leads = some session ∨
      phase = .holding session ∧ ∃ other, event = ⟨.tryLock other, .ok true⟩ := by
  unfold nextOnLoop at h
  split at h
  · cases h
  · rename_i other
    cases h
    exact Or.inr ⟨rfl, other, rfl⟩
  · cases h
  · cases h
  · exact Or.inl h

theorem loop_tryLock_ok (env : ClusterEnv) {session : SessionId}
    (h : (env.loop (.tryLock session) world).1 = .ok true) : session ∉ world.server.ended := by
  intro hended
  obtain ⟨-, ⟨hanswer, -⟩ | ⟨e, hanswer, -⟩⟩ :=
    env.onServer_cases world (LockServer.tryLock · session)
  · rw [ClusterEnv.loop, hanswer, LockServer.tryLock, if_pos hended] at h
    cases h
  · rw [ClusterEnv.loop, hanswer] at h
    cases h

theorem handle_alive (hexclusive : Exclusive world.server phase)
    (halive : ∀ j session, (phase j).leads = some session → session ∉ world.server.ended)
    {request : ClusterPorts.Call} (hpermits : leadership.permits (phase i) request) {id : Uuid}
    (hundisturbed : Undisturbed env id world request) :
    ∀ j session, (Function.update phase i
        (leadership.next (phase i) ⟨request, (env.handle request world).1⟩) j).leads =
          some session →
      session ∉ (env.handle request world).2.server.ended := by
  intro j session hj
  match request with
  | .inl (.inl request) =>
      refine halive j session ?_
      by_cases hij : j = i
      · subst hij
        rwa [Function.update_self, leadership, nextOnJob_leads] at hj
      · rwa [Function.update_of_ne hij] at hj
  | .inl (.inr request) =>
      refine halive j session ?_
      by_cases hij : j = i
      · subst hij
        rwa [Function.update_self] at hj
      · rwa [Function.update_of_ne hij] at hj
  | .inr (.inl request) =>
      refine halive j session ?_
      by_cases hij : j = i
      · subst hij
        rwa [Function.update_self] at hj
      · rwa [Function.update_of_ne hij] at hj
  | .inr (.inr request) =>
      have hbefore : session ∉ world.server.ended ∧ ((phase j).leads = some session ∨
          request = .tryLock session) := by
        by_cases hij : j = i
        · subst hij
          rw [Function.update_self] at hj
          rcases nextOnLoop_leads hj with hold | ⟨hholding, other, hevent⟩
          · exact ⟨halive j session hold, Or.inl hold⟩
          · obtain rfl : request = .tryLock other := congrArg Event.call hevent
            obtain rfl : other = session := by
              have hown : PermitsLoop (phase j) (.tryLock other) := hpermits
              rwa [hholding] at hown
            refine ⟨loop_tryLock_ok env ?_, Or.inr rfl⟩
            exact eq_of_heq (Event.mk.inj hevent).2
        · rw [Function.update_of_ne hij] at hj
          exact ⟨halive j session hj, Or.inl hj⟩
      by_cases hends : ∃ ended, request = .sessionEnds ended
      · obtain ⟨ended, rfl⟩ := hends
        rcases hbefore.2 with hleads | hnew
        · obtain ⟨times, hholder⟩ := hexclusive.held j session hleads hbefore.1
          have hne : session ≠ ended := by
            rintro rfl
            exact hundisturbed (by rw [hholder]; rfl)
          intro hmem
          rcases List.mem_cons.mp hmem with heq | hold
          · exact hne heq
          · exact hbefore.1 hold
        · cases hnew
      · change session ∉ (env.loop request world).2.server.ended
        rw [loop_ended fun ended heq => hends ⟨ended, heq⟩]
        exact hbefore.1

end Alive

section Step

variable {ι : Type} [DecidableEq ι] {env : ClusterEnv} {search : RecurringSearch}
  {world : ClusterWorld} {phase : ι → Phase} {times : ι → List Int} {i : ι} {session : SessionId}

-- What the leader does with its listing: nobody else has one, and the lock is left
-- alone.
theorem Paced.leads (h : Paced env search world phase times) {listing : Option Listing}
    (hi : phase i = .leading session listing) (request : JobCall) (l : Listing)
    (hpermits : leadership.permits (phase i) (.inl (.inl request)))
    (hnext : leadership.next (phase i)
        ⟨.inl (.inl request), (env.handle (.inl (.inl request)) world).1⟩ =
      .leading session (some l)) :
    Exclusive (env.handle (.inl (.inl request)) world).2.server
        (Function.update phase i (.leading session (some l))) ∧
      (∀ j other, (Function.update phase i (.leading session (some l)) j).leads = some other →
        other ∉ (env.handle (.inl (.inl request)) world).2.server.ended) ∧
      ∀ j l', (Function.update phase i (.leading session (some l)) j).listing = some l' →
        j = i ∧ l' = l := by
  have hexclusive := h.exclusive.handle env hpermits
  rw [hnext] at hexclusive
  have hsame : ∀ j, (Function.update phase i (.leading session (some l)) j).leads =
      (phase j).leads := by
    intro j
    by_cases hj : j = i
    · subst hj
      rw [Function.update_self, hi]
      rfl
    · rw [Function.update_of_ne hj]
  refine ⟨hexclusive, fun j other hj => h.alive j other ((hsame j).symm.trans hj), ?_⟩
  intro j l' hl'
  by_cases hj : j = i
  · subst hj
    rw [Function.update_self] at hl'
    exact ⟨rfl, (Option.some.inj hl').symm⟩
  · rw [Function.update_of_ne hj] at hl'
    exact absurd (h.lists hi hl') hj

theorem Paced.list (h : Paced env search world phase times) {listing : Option Listing}
    (hi : phase i = .leading session listing) (hsettled : Settled listing) {now : Int}
    {due : List RecurringSearch}
    (hanswer : (env.handle (.inl (.inl (.listDue now))) world).1 = .ok due) :
    Paced env search (env.handle (.inl (.inl (.listDue now))) world).2
      (Function.update phase i (.leading session (some ⟨now, due.map RecurringSearch.id, none⟩)))
      times := by
  have hpermits : leadership.permits (phase i) (.inl (.inl (.listDue now))) := by
    rw [hi]
    exact hsettled
  obtain ⟨hexclusive, halive, hlisting⟩ := h.leads hi (.listDue now)
    ⟨now, due.map RecurringSearch.id, none⟩ hpermits (by rw [hi, hanswer]; rfl)
  have hrows : ∀ row ∈ (env.handle (.inl (.inl (.listDue now))) world).2.db.jobs.recurring,
      row ∈ world.db.jobs.recurring := by
    intro row hrow
    rcases mem_handle_recurring (by intro id at_ heq; cases heq) hrow with hold | hinsert
    · exact hold
    · cases hinsert
  have hdue : due = world.db.jobs.recurring.rows.filter fun row => row.isDue (env.at_ now) := by
    have hhandle : (env.database.jobs.handle (.listDue now) world.db.jobs).1 = .ok due := hanswer
    rcases JobEnv.handle_listDue env.database.jobs world.db.jobs now with ⟨e, heq⟩ | heq
    · rw [heq] at hhandle
      cases hhandle
    · rw [heq] at hhandle
      exact (Except.ok.inj hhandle).symm
  -- a launch that is still to be marked would be the leader's own
  have hnone : ¬ Launching phase search.id := by
    rintro ⟨j, l, hl, hlaunched⟩
    obtain rfl : j = i := h.lists hi hl
    rw [hi] at hl
    rw [hsettled l hl] at hlaunched
    cases hlaunched
  refine ⟨hexclusive, halive, ?_, ?_, ?_, ?_, ?_, h.apart⟩
  · exact fun row hrow hid => h.interval row (hrows row hrow) hid
  · intro j l hl
    obtain ⟨-, rfl⟩ := hlisting j l hl
    rw [hdue]
    exact world.db.jobs.recurring.nodup.sublist (List.filter_sublist.map _)
  · intro j l hl hmem _ k time htime
    obtain ⟨-, rfl⟩ := hlisting j l hl
    obtain ⟨row, hrow, hid⟩ := List.mem_map.mp hmem
    rw [hdue] at hrow
    obtain ⟨hstored, hisDue⟩ := List.mem_filter.mp hrow
    rcases h.marked row hstored hid k time htime with hlaunch | ⟨last, hlast, hle⟩
    · exact absurd hlaunch hnone
    · have hinterval := h.interval row hstored hid
      simp only [RecurringSearch.isDue, hlast, hinterval, decide_eq_true_eq] at hisDue
      dsimp only
      omega
  · intro j l hl hlaunched
    obtain ⟨-, rfl⟩ := hlisting j l hl
    cases hlaunched
  · intro row hrow hid j time htime
    rcases h.marked row (hrows row hrow) hid j time htime with hlaunch | hmark
    · exact absurd hlaunch hnone
    · exact Or.inr hmark

theorem mem_update_times {times : ι → List Int} {now time : Int} {j : ι}
    (h : time ∈ Function.update times i (times i ++ [now]) j) : time ∈ times j ∨ j = i ∧ time = now := by
  by_cases hj : j = i
  · subst hj
    rw [Function.update_self, List.mem_append, List.mem_singleton] at h
    exact h.imp_right fun heq => ⟨rfl, heq⟩
  · rw [Function.update_of_ne hj] at h
    exact Or.inl h

-- A launch that is clear of all the others.
theorem Apart.launch {now : Int} (h : Apart env search times) (hclear : Clear env search times now) :
    Apart env search (Function.update times i (times i ++ [now])) := by
  have hat : ∀ {j m time}, (Function.update times i (times i ++ [now]) j)[m]? = some time →
      (times j)[m]? = some time ∨ (j, m) = (i, (times i).length) ∧ time = now := by
    intro j m time htime
    by_cases hj : j = i
    · subst hj
      rw [Function.update_self] at htime
      by_cases hm : m < (times j).length
      · rw [List.getElem?_append_left hm] at htime
        exact Or.inl htime
      · rw [List.getElem?_append_right (by omega), List.getElem?_singleton] at htime
        split at htime
        · rename_i hzero
          obtain rfl : m = (times j).length := by omega
          exact Or.inr ⟨rfl, (Option.some.inj htime).symm⟩
        · cases htime
    · rw [Function.update_of_ne hj] at htime
      exact Or.inl htime
  intro j k m n first second hfirst hsecond hne
  rcases hat hfirst with hold | ⟨hnew, rfl⟩
  · rcases hat hsecond with hold' | ⟨-, rfl⟩
    · exact h j k m n first second hold hold' hne
    · exact Or.inl (hclear j first (List.mem_of_getElem? hold))
  · rcases hat hsecond with hold' | ⟨hnew', -⟩
    · exact Or.inr (hclear k second (List.mem_of_getElem? hold'))
    · exact absurd (hnew.trans hnew'.symm) hne

theorem Paced.launch (h : Paced env search world phase times) {l : Listing}
    (hi : phase i = .leading session (some l)) (hsettled : l.launched = none) {job : ResearchJob}
    (seenUrls : List String) (hjob : job.recurringSearchId = some search.id)
    (hmem : search.id ∈ l.due)
    (hanswer : (env.handle (.inl (.inl (.dispatch job seenUrls))) world).1 = .ok ()) :
    Paced env search (env.handle (.inl (.inl (.dispatch job seenUrls))) world).2
      (Function.update phase i (.leading session (some { l with launched := some search.id })))
      (Function.update times i (times i ++ [l.now])) := by
  have hclear : Clear env search times l.now :=
    h.due i l (by rw [hi]; rfl) hmem (by rw [hsettled]; simp)
  obtain ⟨hexclusive, halive, hlisting⟩ := h.leads hi (.dispatch job seenUrls)
    { l with launched := some search.id } (by
      rw [hi]
      exact ⟨l, search.id, rfl, hsettled, hjob, hmem⟩) (by
      rw [hi, hanswer, ← hjob]
      rfl)
  have hrows : ∀ row ∈ (env.handle (.inl (.inl (.dispatch job seenUrls))) world).2.db.jobs.recurring,
      row ∈ world.db.jobs.recurring := by
    intro row hrow
    rcases mem_handle_recurring (by intro id at_ heq; cases heq) hrow with hold | hinsert
    · exact hold
    · cases hinsert
  refine ⟨hexclusive, halive, ?_, ?_, ?_, ?_, ?_, h.apart.launch hclear⟩
  · exact fun row hrow hid => h.interval row (hrows row hrow) hid
  · intro j l' hl'
    obtain ⟨-, rfl⟩ := hlisting j l' hl'
    exact h.listed i l (by rw [hi]; rfl)
  · intro j l' hl' _ hlaunched
    obtain ⟨-, rfl⟩ := hlisting j l' hl'
    exact absurd rfl hlaunched
  · intro j l' hl' _
    obtain ⟨-, rfl⟩ := hlisting j l' hl'
    refine ⟨hmem, fun k time htime => ?_⟩
    rcases mem_update_times htime with hold | ⟨-, rfl⟩
    · exact hclear.past k time hold
    · exact Int.le_refl _
  · intro row hrow hid j time htime
    exact Or.inl ⟨i, { l with launched := some search.id }, by rw [Function.update_self]; rfl, rfl⟩

theorem Paced.mark (h : Paced env search world phase times) {l : Listing}
    (hi : phase i = .leading session (some l)) {id : Uuid} (hmem : id ∈ l.due)
    (hlaunched : l.launched = none ∨ l.launched = some id)
    (hkept : env.database.jobs.fault world.db.jobs.calls = none) :
    Paced env search (env.handle (.inl (.inl (.markRan id l.now))) world).2
      (Function.update phase i
        (.leading session (some { l with due := l.due.erase id, launched := none }))) times := by
  have hold : (phase i).listing = some l := by rw [hi]; rfl
  obtain ⟨hexclusive, halive, hlisting⟩ := h.leads hi (.markRan id l.now)
    { l with due := l.due.erase id, launched := none } (by
      rw [hi]
      exact ⟨l, rfl, rfl, hmem, hlaunched⟩) (by rw [hi]; rfl)
  have hrows := handle_markRan id l.now hkept
  have hnodup := h.listed i l hold
  refine ⟨hexclusive, halive, ?_, ?_, ?_, ?_, ?_, h.apart⟩
  · intro row hrow hid
    rw [hrows] at hrow
    obtain ⟨before, hbefore, rfl⟩ := (Table.mem_modify _ _ _ _ _).mp hrow
    split at hid
    · rename_i hkey
      rw [if_pos hkey]
      exact h.interval before hbefore hid
    · rename_i hkey
      rw [if_neg hkey]
      exact h.interval before hbefore hid
  · intro j l' hl'
    obtain ⟨-, rfl⟩ := hlisting j l' hl'
    exact hnodup.erase id
  · intro j l' hl' hdue _
    obtain ⟨-, rfl⟩ := hlisting j l' hl'
    obtain ⟨hne, hdue⟩ := hnodup.mem_erase_iff.mp hdue
    refine h.due i l hold hdue ?_
    rcases hlaunched with hnone | hsome
    · rw [hnone]
      simp
    · rw [hsome]
      exact fun heq => hne (Option.some.inj heq).symm
  · intro j l' hl' hmarking
    obtain ⟨-, rfl⟩ := hlisting j l' hl'
    cases hmarking
  · intro row hrow hid j time htime
    rw [hrows] at hrow
    obtain ⟨before, hbefore, rfl⟩ := (Table.mem_modify _ _ _ _ _).mp hrow
    split at hid
    · rename_i hkey
      right
      rw [if_pos hkey]
      refine ⟨env.at_ l.now, rfl, ?_⟩
      obtain rfl : id = search.id := hkey.symm.trans hid
      rcases hlaunched with hnone | hsome
      · exact (h.due i l hold hmem (by rw [hnone]; simp)).past j time htime
      · exact (h.launched i l hold hsome).2 j time htime
    · rename_i hkey
      rw [if_neg hkey]
      rcases h.marked before hbefore hid j time htime with ⟨k, l', hl', hlaunch⟩ | hmark
      · -- another search is being marked, so this one was not launched
        exfalso
        obtain rfl : k = i := h.lists hi hl'
        rw [hold] at hl'
        cases hl'
        rcases hlaunched with hnone | hsome
        · rw [hnone] at hlaunch
          cases hlaunch
        · rw [hsome] at hlaunch
          exact hkey (hid.trans (Option.some.inj hlaunch).symm)
      · exact Or.inr hmark

-- The leader launches another search.
theorem Paced.other (h : Paced env search world phase times) {l : Listing}
    (hi : phase i = .leading session (some l)) (hsettled : l.launched = none) {job : ResearchJob}
    (seenUrls : List String) {id : Uuid} (hjob : job.recurringSearchId = some id)
    (hne : id ≠ search.id) (hmem : id ∈ l.due)
    (hanswer : (env.handle (.inl (.inl (.dispatch job seenUrls))) world).1 = .ok ()) :
    Paced env search (env.handle (.inl (.inl (.dispatch job seenUrls))) world).2
      (Function.update phase i (.leading session (some { l with launched := some id }))) times := by
  have hold : (phase i).listing = some l := by rw [hi]; rfl
  obtain ⟨hexclusive, halive, hlisting⟩ := h.leads hi (.dispatch job seenUrls)
    { l with launched := some id } (by
      rw [hi]
      exact ⟨l, id, rfl, hsettled, hjob, hmem⟩) (by
      rw [hi, hanswer, ← hjob]
      rfl)
  have hrows : ∀ row ∈ (env.handle (.inl (.inl (.dispatch job seenUrls))) world).2.db.jobs.recurring,
      row ∈ world.db.jobs.recurring := by
    intro row hrow
    rcases mem_handle_recurring (by intro id at_ heq; cases heq) hrow with hold | hinsert
    · exact hold
    · cases hinsert
  refine ⟨hexclusive, halive, ?_, ?_, ?_, ?_, ?_, h.apart⟩
  · exact fun row hrow hid => h.interval row (hrows row hrow) hid
  · intro j l' hl'
    obtain ⟨-, rfl⟩ := hlisting j l' hl'
    exact h.listed i l hold
  · intro j l' hl' hdue _
    obtain ⟨-, rfl⟩ := hlisting j l' hl'
    exact h.due i l hold hdue (by rw [hsettled]; simp)
  · intro j l' hl' hlaunched
    obtain ⟨-, rfl⟩ := hlisting j l' hl'
    exact absurd (Option.some.inj hlaunched) hne
  · intro row hrow hid j time htime
    rcases h.marked row (hrows row hrow) hid j time htime with ⟨k, l', hl', hlaunch⟩ | hmark
    · obtain rfl : k = i := h.lists hi hl'
      rw [hold] at hl'
      cases hl'
      rw [hsettled] at hlaunch
      cases hlaunch
    · exact Or.inr hmark

-- What is read of the calls of a thread: the reading of its listing, and its launches.
def Read (id : Uuid) (phase : Phase) (times : List Int) (past : List (Event ClusterPorts)) : Prop :=
  past.foldl (launchStep id) (none, []) = (phase.listing.map Listing.now, times)

-- What a call makes of the times of its thread.
def Steps (env : ClusterEnv) (search : RecurringSearch) (world : ClusterWorld) (phase : ι → Phase)
    (times : ι → List Int) (i : ι) (past : List (Event ClusterPorts))
    (request : ClusterPorts.Call) : Prop :=
  ∃ new, Read search.id (leadership.next (phase i) ⟨request, (env.handle request world).1⟩) new
      (past ++ [⟨request, (env.handle request world).1⟩]) ∧
    Paced env search (env.handle request world).2
      (Function.update phase i (leadership.next (phase i) ⟨request, (env.handle request world).1⟩))
      (Function.update times i new)

section Cases

variable {past : List (Event ClusterPorts)} {request : ClusterPorts.Call}

theorem Paced.settles (h : Paced env search world phase times)
    (hread : Read search.id (phase i) (times i) past)
    (hpermits : leadership.permits (phase i) request)
    (hundisturbed : Undisturbed env search.id world request)
    (hmark : ∀ id at_, request ≠ .inl (.inl (.markRan id at_)))
    (hlisting : (leadership.next (phase i) ⟨request, (env.handle request world).1⟩).listing =
        (phase i).listing ∨
      (leadership.next (phase i) ⟨request, (env.handle request world).1⟩).listing = none ∧
        ∀ l, (phase i).listing = some l → l.launched = none)
    (hstep : launchStep search.id ((phase i).listing.map Listing.now, times i)
        ⟨request, (env.handle request world).1⟩ =
      ((leadership.next (phase i) ⟨request, (env.handle request world).1⟩).listing.map Listing.now,
        times i)) : Steps env search world phase times i past request := by
  refine ⟨times i, ?_, ?_⟩
  · unfold Read at hread ⊢
    rw [List.foldl_concat, hread, hstep]
  · rw [Function.update_eq_self]
    refine h.quiet (h.exclusive.handle env hpermits)
      (handle_alive h.exclusive h.alive hpermits hundisturbed) ?_ hlisting
    intro row hrow hid
    rcases mem_handle_recurring hmark hrow with hold | rfl
    · exact hold
    · exact absurd hid hundisturbed

-- A call that leaves the phase as it is.
theorem Paced.stays (h : Paced env search world phase times)
    (hread : Read search.id (phase i) (times i) past)
    (hpermits : leadership.permits (phase i) request)
    (hundisturbed : Undisturbed env search.id world request)
    (hmark : ∀ id at_, request ≠ .inl (.inl (.markRan id at_)))
    (hnext : leadership.next (phase i) ⟨request, (env.handle request world).1⟩ = phase i)
    (hstep : launchStep search.id ((phase i).listing.map Listing.now, times i)
        ⟨request, (env.handle request world).1⟩ =
      ((phase i).listing.map Listing.now, times i)) :
    Steps env search world phase times i past request := by
  refine h.settles hread hpermits hundisturbed hmark (Or.inl (by rw [hnext])) ?_
  rw [hnext, hstep]

theorem Paced.loop_steps (h : Paced env search world phase times)
    (hread : Read search.id (phase i) (times i) past) {request : LoopCall}
    (hpermits : leadership.permits (phase i) (.inr (.inr request)))
    (hundisturbed : Undisturbed env search.id world (.inr (.inr request))) :
    Steps env search world phase times i past (.inr (.inr request)) := by
  have hmark : ∀ id at_, (.inr (.inr request) : ClusterPorts.Call) ≠ .inl (.inl (.markRan id at_)) := by
    intro id at_ heq
    cases heq
  have hunlock : ∀ session, request = .unlock session →
      Steps env search world phase times i past (.inr (.inr request)) := by
    rintro other rfl
    cases hphase : phase i with
    | leading session listing =>
        have hsettled : PermitsLoop (phase i) (.unlock other) := hpermits
        rw [hphase] at hsettled
        refine h.settles hread hpermits hundisturbed hmark (Or.inr ⟨by rw [hphase]; rfl, ?_⟩)
          (by rw [hphase]; rfl)
        intro l hl
        rw [hphase] at hl
        exact hsettled.2 l hl
    | idle | holding session =>
        rw [hphase] at hpermits
        cases hpermits
  have hstays : (nextOnLoop (phase i) ⟨request, (env.loop request world).1⟩).listing =
        (phase i).listing → (∀ session, request ≠ .unlock session) →
      Steps env search world phase times i past (.inr (.inr request)) := by
    intro hlisting hne
    refine h.settles hread hpermits hundisturbed hmark (Or.inl hlisting) ?_
    change _ = ((nextOnLoop (phase i) ⟨request, (env.loop request world).1⟩).listing.map
      Listing.now, times i)
    rw [hlisting]
    cases request with
    | unlock session => exact absurd rfl (hne session)
    | _ => rfl
  by_cases hne : ∃ session, request = .unlock session
  · obtain ⟨session, heq⟩ := hne
    exact hunlock session heq
  · refine hstays ?_ fun session heq => hne ⟨session, heq⟩
    unfold nextOnLoop
    split
    · rename_i heq _
      rw [heq]
      rfl
    · rename_i heq _
      rw [heq]
      rfl
    · rename_i heq
      exact absurd ⟨_, congrArg Event.call heq⟩ hne
    · rename_i heq _
      rw [heq]
      rfl
    · rfl

theorem Paced.job_steps (h : Paced env search world phase times)
    (hread : Read search.id (phase i) (times i) past) {request : JobCall}
    (hpermits : leadership.permits (phase i) (.inl (.inl request)))
    (hundisturbed : Undisturbed env search.id world (.inl (.inl request))) :
    Steps env search world phase times i past (.inl (.inl request)) := by
  cases hphase : phase i with
  | holding session =>
      rw [hphase] at hpermits
      cases hpermits
  | idle =>
      have hled : PermitsJob (phase i) request := hpermits
      rw [hphase] at hled
      refine h.stays hread hpermits hundisturbed ?_ ?_ ?_
      · intro id at_ heq
        cases heq
        cases hled
      · rw [hphase]
        rfl
      · rw [hphase]
        cases request with
        | listDue now => cases hled
        | dispatch job seenUrls =>
            cases (env.handle (.inl (.inl (.dispatch job seenUrls))) world).1 with
            | error e => rfl
            | ok _ =>
                simp only [launchStep]
                split
                · simp [Phase.listing]
                · rfl
        | _ => rfl
  | leading session listing =>
      have hled : PermitsJob (phase i) request := hpermits
      rw [hphase] at hled
      -- an answer that changes nothing of the listing
      have hsame : (∀ id at_, request ≠ .markRan id at_) →
          nextOnJob (.leading session listing) ⟨request, (env.handle (.inl (.inl request)) world).1⟩ =
            .leading session listing →
          launchStep search.id (listing.map Listing.now, times i)
            ⟨.inl (.inl request), (env.handle (.inl (.inl request)) world).1⟩ =
              (listing.map Listing.now, times i) →
          Steps env search world phase times i past (.inl (.inl request)) := by
        intro hmark hnext hstep
        refine h.stays hread hpermits hundisturbed ?_ (by rw [hphase]; exact hnext)
          (by rw [hphase]; exact hstep)
        intro id at_ heq
        cases heq
        exact hmark id at_ rfl
      unfold Read at hread
      rw [hphase] at hread
      cases request with
      | listDue now =>
          cases hanswer : (env.handle (.inl (.inl (.listDue now))) world).1 with
          | error e => exact hsame (by simp) (by rw [hanswer]; rfl) (by rw [hanswer]; rfl)
          | ok due =>
              refine ⟨times i, ?_, ?_⟩
              · unfold Read
                rw [List.foldl_concat, hread, hanswer, hphase]
                rfl
              · rw [hanswer, hphase, Function.update_eq_self]
                exact h.list hphase hled hanswer
      | markRan id at_ =>
          obtain ⟨l, rfl, rfl, hmem, hlaunched⟩ := hled
          refine ⟨times i, ?_, ?_⟩
          · unfold Read
            rw [List.foldl_concat, hread, hphase]
            rfl
          · rw [hphase, Function.update_eq_self]
            exact h.mark hphase hmem hlaunched hundisturbed
      | dispatch job seenUrls =>
          obtain ⟨l, id, rfl, hsettled, hjob, hmem⟩ := hled
          cases hanswer : (env.handle (.inl (.inl (.dispatch job seenUrls))) world).1 with
          | error e => exact hsame (by simp) (by rw [hanswer]; rfl) (by rw [hanswer]; rfl)
          | ok _ =>
              have hnext : leadership.next (.leading session (some l))
                  ⟨.inl (.inl (.dispatch job seenUrls)), .ok ()⟩ =
                  .leading session (some { l with launched := some id }) := by
                rw [← hjob]
                rfl
              by_cases hid : id = search.id
              · subst hid
                refine ⟨times i ++ [l.now], ?_, ?_⟩
                · unfold Read
                  rw [List.foldl_concat, hread, hphase, hanswer, hnext]
                  simp [launchStep, hjob, Phase.listing]
                · rw [hanswer, hphase, hnext]
                  exact h.launch hphase hsettled seenUrls hjob hmem hanswer
              · refine ⟨times i, ?_, ?_⟩
                · unfold Read
                  rw [List.foldl_concat, hread, hphase, hanswer, hnext]
                  simp [launchStep, hjob, hid, Phase.listing]
                · rw [hanswer, hphase, hnext, Function.update_eq_self]
                  exact h.other hphase hsettled seenUrls hjob hid hmem hanswer
      | _ => exact hsame (by simp) (by cases listing <;> rfl) (by rfl)

end Cases

theorem Paced.step (h : Paced env search world phase times)
    {past : List (Event ClusterPorts)} (hread : Read search.id (phase i) (times i) past)
    {request : ClusterPorts.Call} (hpermits : leadership.permits (phase i) request)
    (hundisturbed : Undisturbed env search.id world request) :
    Steps env search world phase times i past request := by
  match request with
  | .inl (.inl request) => exact h.job_steps hread hpermits hundisturbed
  | .inl (.inr request) =>
      exact h.stays hread hpermits hundisturbed (by intro id at_ heq; cases heq) rfl rfl
  | .inr (.inl request) =>
      exact h.stays hread hpermits hundisturbed (by intro id at_ heq; cases heq) rfl rfl
  | .inr (.inr request) => exact h.loop_steps hread hpermits hundisturbed

end Step

-- The times are read of the calls that the threads have made.
def Pacing {ι : Type} (env : ClusterEnv) (search : RecurringSearch) (world : ClusterWorld)
    (pasts : ι → List (Event ClusterPorts)) : Prop :=
  ∃ times, (∀ i, Read search.id (Config.phases leadership (fun _ => .idle) pasts i) (times i)
      (pasts i)) ∧
    Paced env search world (Config.phases leadership (fun _ => .idle) pasts) times

theorem Pacing.start {ι : Type} (env : ClusterEnv) {world : ClusterWorld}
    {search : RecurringSearch} (hsearch : search ∈ world.db.jobs.recurring) :
    Pacing env search world fun _ : ι => [] := by
  refine ⟨fun _ => [], fun _ => rfl, Exclusive.start world.server, ?_, ?_, ?_, ?_, ?_, ?_, ?_⟩
  · intro i session h
    cases h
  · intro row hrow hid
    rw [world.db.jobs.recurring.eq_of_key hrow hsearch hid]
  · intro i l h
    cases h
  · intro i l h
    cases h
  · intro i l h
    cases h
  · intro row hrow hid j time htime
    cases htime
  · intro i j m n first second h
    cases h

theorem Pacing.step {ι : Type} [DecidableEq ι] {env : ClusterEnv} {search : RecurringSearch}
    {world : ClusterWorld} {pasts : ι → List (Event ClusterPorts)} {i : ι}
    {request : ClusterPorts.Call} (h : Pacing env search world pasts)
    (hpermits : leadership.permits (Config.phases leadership (fun _ => .idle) pasts i) request)
    (hundisturbed : Undisturbed env search.id world request) :
    Pacing env search (env.handle request world).2
      (Function.update pasts i (pasts i ++ [⟨request, (env.handle request world).1⟩])) := by
  obtain ⟨times, hread, hpaced⟩ := h
  obtain ⟨new, hnew, hstep⟩ := hpaced.step (hread i) hpermits hundisturbed
  refine ⟨Function.update times i new, fun j => ?_, ?_⟩
  · rw [Config.phases_update]
    by_cases hj : j = i
    · subst hj
      simpa using hnew
    · simpa [hj] using hread j
  · rw [Config.phases_update]
    exact hstep

-- In every run of any number of replicas, between whatever requests and notifications,
-- in which no session ends while it holds the lock and the marks are stored: any two
-- launches of a recurring search are at least its interval apart, by the readings of
-- the ticks that launched it. The clock may go backwards.
theorem cluster_launches_apart {ι : Type} [DecidableEq ι] (config : ClusterConfig)
    (env : ClusterEnv) (world : ClusterWorld) (ops : ι → ClusterOp) (schedule : List ι)
    (search : RecurringSearch) (hsearch : search ∈ world.db.jobs.recurring)
    (hundisturbed : (clusterRuns config world ops).Respects env.handle
      (fun _ world _ request => Undisturbed env search.id world request) schedule) :
    Apart env search fun i => launchTimes search.id
      (((clusterRuns config world ops).run env.handle schedule).threads i).past := by
  obtain ⟨-, times, hread, hpaced⟩ := Config.Obeys.run
    (Config.obeys_start (fun i => program_obeys config (ops i)) world) (Pacing env search)
    (fun world pasts i request h hpermits hguard => h.step hpermits hguard) hundisturbed
    (Pacing.start env hsearch)
  have htimes : ∀ i, launchTimes search.id
      (((clusterRuns config world ops).run env.handle schedule).threads i).past = times i :=
    fun i => congrArg Prod.snd (hread i)
  simp only [htimes]
  exact hpaced.apart

theorem sample_launches_apart :
    let c := (clusterRuns Sample.config Sample.world Sample.ops).run Sample.env.handle Sample.schedule
    (launchTimes Job.Sample.hourly.id (c.threads 0).past).length = 1 ∧
      (launchTimes Job.Sample.hourly.id (c.threads 1).past).length = 1 ∧
      Apart Sample.env Job.Sample.hourly fun i =>
        launchTimes Job.Sample.hourly.id (c.threads i).past := by
  refine ⟨by decide +kernel, by decide +kernel, ?_⟩
  exact cluster_launches_apart Sample.config Sample.env Sample.world Sample.ops Sample.schedule
    Job.Sample.hourly (List.mem_singleton_self _) (by decide +kernel)

end AgentBoilerplate.Cluster
