import AgentBoilerplate.Cluster.Leadership

namespace AgentBoilerplate.Cluster

open Effects Collections Job

-- No call of the lock fails on its connection.
def Reliable (env : ClusterEnv) (world : ClusterWorld) : ClusterPorts.Call → Prop
  | .inr (.inr (.tryLock _)) | .inr (.inr (.unlock _)) => env.fault world.asked = none
  | _ => True

instance (env : ClusterEnv) (world : ClusterWorld) :
    (request : ClusterPorts.Call) → Decidable (Reliable env world request)
  | .inr (.inr (.tryLock _)) | .inr (.inr (.unlock _)) =>
      inferInstanceAs (Decidable (env.fault world.asked = none))
  | .inl _ | .inr (.inl _) | .inr (.inr .connect) | .inr (.inr (.putBack _)) |
    .inr (.inr (.deleteExpired _)) | .inr (.inr (.deleteFinishedBefore _)) |
    .inr (.inr (.deleteBefore _)) | .inr (.inr (.sessionEnds _)) => isTrue trivial

section Released

variable {ι : Type} {phase : ι → Phase}

-- The lock is held once, on a session that has not ended, by a thread that leads on it.
structure Accounted (server : LockServer) (phase : ι → Phase) : Prop where
  once : ∀ session times, server.holder = some (session, times) → times = 1
  alive : ∀ session times, server.holder = some (session, times) → session ∉ server.ended
  led : ∀ session times, server.holder = some (session, times) → ∃ i, (phase i).leads = some session

variable [DecidableEq ι] {env : ClusterEnv} {world : ClusterWorld} {i : ι} {session : SessionId}

-- A call that leaves the holder and what the threads lead on as they are.
theorem Accounted.same {server : LockServer} (h : Accounted server phase) {after : Phase}
    (hleads : after.leads = (phase i).leads) {next : LockServer}
    (hholder : next.holder = server.holder) (hended : next.ended = server.ended) :
    Accounted next (Function.update phase i after) := by
  refine ⟨fun session times hnext => h.once session times (hholder ▸ hnext),
    fun session times hnext => hended ▸ h.alive session times (hholder ▸ hnext),
    fun session times hnext => ?_⟩
  obtain ⟨j, hj⟩ := h.led session times (hholder ▸ hnext)
  refine ⟨j, ?_⟩
  by_cases hij : j = i
  · subst hij
    rw [Function.update_self, hleads, hj]
  · rw [Function.update_of_ne hij, hj]

theorem connect_holder (server : LockServer) (choice : Option SessionId) :
    (server.connect choice).2.holder = server.holder ∧
      (server.connect choice).2.ended = server.ended := by
  unfold LockServer.connect
  split
  · split <;> exact ⟨rfl, rfl⟩
  · exact ⟨rfl, rfl⟩

theorem onServer_reliable {α : Type} (effect : LockServer → Except PortError α × LockServer)
    (h : env.fault world.asked = none) :
    (env.onServer effect world).1 = (effect world.server).1 ∧
      (env.onServer effect world).2.server = (effect world.server).2 := by
  simp only [ClusterEnv.onServer, h, and_self]

theorem tryLock_accounted (hexclusive : Exclusive world.server phase)
    (h : Accounted world.server phase) (hphase : phase i = .holding session)
    (hreliable : env.fault world.asked = none) :
    Accounted (env.loop (.tryLock session) world).2.server (Function.update phase i
      (nextOnLoop (phase i) ⟨.tryLock session, (env.loop (.tryLock session) world).1⟩)) := by
  obtain ⟨hanswer, hserver⟩ := onServer_reliable (LockServer.tryLock · session) hreliable
  simp only [ClusterEnv.loop, hanswer, hserver, hphase]
  unfold LockServer.tryLock
  split
  · exact h.same (by rw [hphase]; rfl) rfl rfl
  rename_i halive
  cases hholder : world.server.holder with
  | none =>
      dsimp only
      refine ⟨?_, ?_, ?_⟩
      · intro other times heq
        cases heq
        rfl
      · intro other times heq
        cases heq
        exact halive
      · intro other times heq
        cases heq
        exact ⟨i, by rw [Function.update_self]; rfl⟩
  | some held =>
      obtain ⟨holder, times⟩ := held
      dsimp only
      split
      · -- whoever holds the lock on this connection would have to be this thread
        rename_i hself
        exfalso
        obtain ⟨j, hj⟩ := h.led holder times hholder
        have hown : (phase i).session = some holder := by rw [hphase, hself]; rfl
        obtain rfl : j = i :=
          hexclusive.distinct j i holder (Phase.session_of_leads hj) hown
        rw [hphase] at hj
        cases hj
      · exact h.same (by rw [hphase]; rfl) rfl rfl

theorem unlock_accounted {listing : Option Listing}
    (h : Accounted world.server phase) (hphase : phase i = .leading session listing)
    (hreliable : env.fault world.asked = none) :
    Accounted (env.loop (.unlock session) world).2.server (Function.update phase i
      (nextOnLoop (phase i) ⟨.unlock session, (env.loop (.unlock session) world).1⟩)) := by
  obtain ⟨hanswer, hserver⟩ := onServer_reliable (LockServer.unlock · session) hreliable
  have hleads : (phase i).leads = some session := by rw [hphase]; rfl
  -- the thread no longer leads, so the lock must not be held on its session
  have hleft : ∀ next : LockServer, next.ended = world.server.ended →
      (∀ holder times, next.holder = some (holder, times) →
        holder ≠ session ∧ world.server.holder = some (holder, times)) →
      Accounted next (Function.update phase i (.holding session)) := by
    intro next hended hother
    refine ⟨fun holder times heq => h.once holder times (hother holder times heq).2,
      fun holder times heq => hended ▸ h.alive holder times (hother holder times heq).2, ?_⟩
    intro holder times heq
    obtain ⟨hne, hbefore⟩ := hother holder times heq
    obtain ⟨j, hj⟩ := h.led holder times hbefore
    refine ⟨j, ?_⟩
    rw [Function.update_of_ne, hj]
    rintro rfl
    rw [hleads] at hj
    exact hne (Option.some.inj hj).symm
  simp only [ClusterEnv.loop, hanswer, hserver, hphase]
  unfold LockServer.unlock
  split
  · rename_i hended
    refine hleft _ rfl fun holder times heq => ⟨?_, heq⟩
    rintro rfl
    exact h.alive holder times heq hended
  cases hholder : world.server.holder with
  | none =>
      refine hleft _ rfl fun holder times heq => ?_
      rw [hholder] at heq
      cases heq
  | some held =>
      obtain ⟨holder, times⟩ := held
      dsimp only
      split
      · rename_i hother
        refine hleft _ rfl fun other times' heq => ?_
        rw [hholder] at heq
        cases heq
        exact ⟨hother, hholder⟩
      · obtain rfl := h.once holder times hholder
        simp only [Nat.le_refl, if_true]
        refine hleft _ rfl fun other times' heq => ?_
        cases heq

theorem sessionEnds_accounted (h : Accounted world.server phase) (hidle : phase i = .idle) :
    Accounted (world.server.sessionEnds session) (Function.update phase i .idle) := by
  have hkept : ∀ holder times,
      (world.server.sessionEnds session).holder = some (holder, times) →
      world.server.holder = some (holder, times) ∧ holder ≠ session := by
    intro holder times heq
    obtain ⟨hbefore, hne⟩ := Option.filter_eq_some_iff.mp heq
    exact ⟨hbefore, by simpa using hne⟩
  have hends : Accounted (world.server.sessionEnds session) phase := by
    refine ⟨fun holder times heq => h.once holder times (hkept holder times heq).1, ?_,
      fun holder times heq => h.led holder times (hkept holder times heq).1⟩
    intro holder times heq hmem
    obtain ⟨hbefore, hne⟩ := hkept holder times heq
    rcases List.mem_cons.mp hmem with hend | hold
    · exact hne hend
    · exact h.alive holder times hbefore hold
  exact hends.same (by rw [hidle]) rfl rfl

theorem loop_accounted (hexclusive : Exclusive world.server phase)
    (h : Accounted world.server phase) {request : LoopCall}
    (hpermits : PermitsLoop (phase i) request)
    (hreliable : Reliable env world (.inr (.inr request))) :
    Accounted (env.loop request world).2.server (Function.update phase i
      (nextOnLoop (phase i) ⟨request, (env.loop request world).1⟩)) := by
  have hpurge : ∀ {request}, (env.loop request world).2.server = world.server →
      nextOnLoop (phase i) ⟨request, (env.loop request world).1⟩ = phase i →
      Accounted (env.loop request world).2.server (Function.update phase i
        (nextOnLoop (phase i) ⟨request, (env.loop request world).1⟩)) := by
    intro request hserver hnext
    rw [hserver, hnext]
    exact h.same rfl rfl rfl
  cases hphase : phase i with
  | idle =>
      rw [hphase] at hpermits
      cases request with
      | connect =>
          have hholder : (env.loop .connect world).2.server.holder = world.server.holder ∧
              (env.loop .connect world).2.server.ended = world.server.ended := by
            have hconnect := connect_holder world.server (env.pool world.asked)
            obtain ⟨-, ⟨-, hserver⟩ | ⟨-, -, hserver | hserver⟩⟩ :=
              env.onServer_cases world (LockServer.connect · (env.pool world.asked))
            · rwa [ClusterEnv.loop, hserver]
            · rw [ClusterEnv.loop, hserver]
              exact ⟨rfl, rfl⟩
            · rwa [ClusterEnv.loop, hserver]
          refine h.same ?_ hholder.1 hholder.2
          rw [hphase]
          cases (env.loop .connect world).1 <;> rfl
      | sessionEnds session => exact sessionEnds_accounted h hphase
      | _ => cases hpermits
  | holding session =>
      rw [hphase] at hpermits
      cases request with
      | tryLock other =>
          obtain rfl : other = session := hpermits
          rw [← hphase]
          exact tryLock_accounted hexclusive h hphase hreliable
      | putBack other => exact h.same (by rw [hphase]; rfl) rfl rfl
      | _ => cases hpermits
  | leading session listing =>
      rw [hphase] at hpermits
      rw [← hphase]
      cases request with
      | unlock other =>
          obtain ⟨rfl, -⟩ := hpermits
          exact unlock_accounted h hphase hreliable
      | deleteExpired now =>
          exact hpurge (env.onDatabase_server world fun _ => rfl) (by rw [hphase]; rfl)
      | deleteFinishedBefore cutoff =>
          exact hpurge (env.onDatabase_server world fun _ => rfl) (by rw [hphase]; rfl)
      | deleteBefore cutoff =>
          exact hpurge (env.onDatabase_server world fun _ => rfl) (by rw [hphase]; rfl)
      | _ => cases hpermits

theorem Accounted.handle (h : Accounted world.server phase)
    (hexclusive : Exclusive world.server phase) {request : ClusterPorts.Call}
    (hpermits : leadership.permits (phase i) request) (hreliable : Reliable env world request) :
    Accounted (env.handle request world).2.server (Function.update phase i
      (leadership.next (phase i) ⟨request, (env.handle request world).1⟩)) := by
  match request with
  | .inl (.inl request) => exact h.same (nextOnJob_leads _ _) rfl rfl
  | .inl (.inr request) => exact h.same rfl rfl rfl
  | .inr (.inl request) => exact h.same rfl rfl rfl
  | .inr (.inr request) => exact loop_accounted hexclusive h hpermits hreliable

end Released

-- In every run whose calls of the lock do not fail, from a lock that is free: the lock is
-- held only while a thread leads on it, so that no tick leaves it taken behind. The
-- sessions may end.
theorem lock_accounted {ι : Type} [DecidableEq ι] (config : ClusterConfig) (env : ClusterEnv)
    (world : ClusterWorld) (ops : ι → ClusterOp) (schedule : List ι)
    (hfree : world.server.holder = none)
    (hreliable : (clusterRuns config world ops).Respects env.handle
      (fun _ world _ request => Reliable env world request) schedule) :
    let c := (clusterRuns config world ops).run env.handle schedule
    ∀ session times, c.store.server.holder = some (session, times) →
      times = 1 ∧ session ∉ c.store.server.ended ∧ ∃ i, leader c i = some session := by
  intro c session times hholder
  have hstart : Accounted world.server fun _ : ι => Phase.idle := by
    refine ⟨?_, ?_, ?_⟩
    · intro session times h
      rw [hfree] at h
      cases h
    · intro session times h
      rw [hfree] at h
      cases h
    · intro session times h
      rw [hfree] at h
      cases h
  obtain ⟨-, -, haccounted⟩ := Config.Obeys.run
    (Config.obeys_start (fun i => program_obeys config (ops i)) world)
    (fun world pasts => Exclusive world.server (Config.phases leadership (fun _ => .idle) pasts) ∧
      Accounted world.server (Config.phases leadership (fun _ => .idle) pasts))
    (fun world pasts i request h hpermits hguard => by
      rw [Config.phases_update]
      exact ⟨h.1.handle env hpermits, h.2.handle h.1 hpermits hguard⟩)
    hreliable ⟨Exclusive.start world.server, hstart⟩
  exact ⟨haccounted.once session times hholder, haccounted.alive session times hholder,
    haccounted.led session times hholder⟩

-- The second replica finds the lock taken by the first.
theorem sample_lock_accounted :
    let c := (clusterRuns Sample.config Sample.world Sample.ops).run Sample.env.handle
      (Sample.schedule.take 12)
    c.store.server.holder = some (0, 1) ∧ leader c 0 = some 0 ∧
      ∀ session times, c.store.server.holder = some (session, times) →
        times = 1 ∧ session ∉ c.store.server.ended ∧ ∃ i, leader c i = some session := by
  refine ⟨by decide +kernel, by decide +kernel, ?_⟩
  exact lock_accounted Sample.config Sample.env Sample.world Sample.ops (Sample.schedule.take 12) rfl
    (by decide +kernel)

end AgentBoilerplate.Cluster
