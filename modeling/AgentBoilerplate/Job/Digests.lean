import AgentBoilerplate.Job.Lemmas

namespace AgentBoilerplate.Job

open Effects Collections

-- Where a digest can be sent.
inductive Destination where
  | webhook (url : String)
  | channel (channel : NotificationChannel)
deriving DecidableEq, Repr

-- The webhook of a search, if it has one, and every channel of its owner.
def JobWorld.Serves (world : JobWorld) (search : RecurringSearch) : Destination → Prop
  | .webhook url => search.webhookUrl = some url
  | .channel channel => channel ∈ world.channels ∧ channel.userId = search.userId

-- A delivery that was tried, whatever became of it.
def attempted : Event JobPorts → Option (Destination × Digest)
  | ⟨.sendDigest url digest, _⟩ => some (.webhook url, digest)
  | ⟨.notify channel digest, _⟩ => some (.channel channel, digest)
  | _ => none

def attempts (events : List (Event JobPorts)) : List (Destination × Digest) :=
  events.filterMap attempted

def lookupFailed : Event JobPorts → Bool
  | ⟨.findRecurring _, .error _⟩ | ⟨.listChannels _, .error _⟩ => true
  | _ => false

-- A completion with the calls it makes.
def JobEnv.completion (env : JobEnv) (jobId : Uuid) (results : List SearchResult)
    (world : JobWorld) : Except IngestError Unit × JobWorld × List (Event JobPorts) :=
  (IngestResults.complete jobId results).run.run (Handler.logged fun _ => env.handle) (world, [])

-- The world but for what the notifiers were handed and the number of calls.
def JobWorld.stored (world : JobWorld) : JobWorld :=
  { world with digests := [], notified := [], calls := 0 }

section Attempts

variable {env : JobEnv} {world : JobWorld} {past : List (Event JobPorts)}

@[simp] theorem attempts_append (events later : List (Event JobPorts)) :
    attempts (events ++ later) = attempts events ++ attempts later :=
  List.filterMap_append

def destinations (world : JobWorld) (search : RecurringSearch) : List Destination :=
  (search.webhookUrl.map .webhook).toList ++
    (channelsOf world.channels search.userId).map .channel

theorem mem_channelsOf {channels : Table NotificationChannel.id} {userId : Uuid}
    {channel : NotificationChannel} :
    channel ∈ channelsOf channels userId ↔ channel ∈ channels ∧ channel.userId = userId := by
  simp [channelsOf, Table.mem_def]

theorem channelsOf_nodup (channels : Table NotificationChannel.id) (userId : Uuid) :
    (channelsOf channels userId).Nodup := by
  have hrows : channels.rows.Nodup := List.Nodup.of_map _ channels.nodup
  exact (List.perm_insertionSort _ _).nodup_iff.mpr (hrows.filter _)

theorem mem_destinations {search : RecurringSearch} {destination : Destination} :
    destination ∈ destinations world search ↔ world.Serves search destination := by
  cases destination with
  | webhook url => simp [destinations, JobWorld.Serves]
  | channel channel => simp [destinations, JobWorld.Serves, mem_channelsOf]

theorem destinations_nodup (world : JobWorld) (search : RecurringSearch) :
    (destinations world search).Nodup := by
  have hchannels : ((channelsOf world.channels search.userId).map Destination.channel).Nodup :=
    (channelsOf_nodup _ _).map fun _ _ h => Destination.channel.inj h
  unfold destinations
  cases search.webhookUrl with
  | none => exact hchannels
  | some url => exact List.nodup_cons.mpr ⟨by simp, hchannels⟩

theorem handle_stored (env : JobEnv) {request : JobCall} (h : notifies request = true)
    (world : JobWorld) : (env.handle request world).2.stored = world.stored := by
  cases request with
  | findRecurring _ | listChannels _ | sendDigest _ _ | notify _ _ =>
      simp only [JobEnv.handle, JobEnv.attempt]
      split <;> rfl
  | _ => cases h

-- A digest changes nothing that is stored.
theorem maybeSendDigest_stored (job : ResearchJob) (results : List SearchResult)
    (s : JobWorld × List (Event JobPorts)) :
    ((IngestResults.maybeSendDigest job results).run (Handler.logged fun _ => env.handle) s).2.1.stored =
      s.1.stored := by
  have hstep : ∀ request (later : JobWorld × List (Event JobPorts)), notifies request = true →
      later.1.stored = s.1.stored →
      (Handler.logged (fun _ => env.handle) request later).2.1.stored = s.1.stored :=
    fun request later hrequest hlater => (handle_stored env hrequest later.1).trans hlater
  exact @Program.Within.run_keeps _ _ _ _ _ (fun later => later.1.stored = s.1.stored) hstep _
    (maybeSendDigest_notifies job results) s rfl

theorem notifyAll_attempts (digest : Digest) (channels : List NotificationChannel)
    (s : JobWorld × List (Event JobPorts)) :
    attempts ((IngestResults.notifyAll digest channels).run (Handler.logged fun _ => env.handle) s).2.2 =
      attempts s.2 ++ channels.map fun channel => (.channel channel, digest) := by
  induction channels generalizing s with
  | nil => simp [IngestResults.notifyAll]
  | cons channel channels ih =>
      simp only [IngestResults.notifyAll, ask, Program.call_bind, Program.done_bind,
        Program.run_call, ih]
      simp [Handler.logged, attempts, attempted]

theorem notifyChannels_attempts (userId : Uuid) (digest : Digest)
    (s : JobWorld × List (Event JobPorts))
    (hlookups : ∀ event ∈ ((IngestResults.notifyChannels userId digest).run
      (Handler.logged fun _ => env.handle) s).2.2, lookupFailed event = false) :
    attempts ((IngestResults.notifyChannels userId digest).run
        (Handler.logged fun _ => env.handle) s).2.2 =
      attempts s.2 ++ (channelsOf s.1.channels userId).map fun channel =>
        (.channel channel, digest) := by
  simp only [IngestResults.notifyChannels, ask, Program.call_bind, Program.done_bind,
    Program.run_call, Handler.logged, JobEnv.handle, JobEnv.attempt] at hlookups ⊢
  cases hfault : env.fault s.1.calls with
  | some e =>
      simp only [hfault] at hlookups
      have hfailed := hlookups ⟨.listChannels userId, .error e⟩ (by simp)
      cases hfailed
  | none =>
      refine (notifyAll_attempts digest _ _).trans ?_
      simp [attempts, attempted]

theorem maybeSendDigest_eq {job : ResearchJob} {results : List SearchResult} {rsId : Uuid}
    (hrun : job.recurringSearchId = some rsId) (hnew : (results.filter (·.isNew)).isEmpty = false) :
    IngestResults.maybeSendDigest job results = .call (.findRecurring rsId) fun
      | .ok (some search) =>
          let digest := IngestResults.digestOf rsId job (results.filter (·.isNew))
          match search.webhookUrl with
          | some url => .call (.sendDigest url digest) fun _ =>
              IngestResults.notifyChannels search.userId digest
          | none => IngestResults.notifyChannels search.userId digest
      | .error _ | .ok none => .done () := by
  simp only [IngestResults.maybeSendDigest, hrun, hnew, ask, Program.call_bind, Program.done_bind]
  simp only [Bool.false_eq_true, if_false]
  congr 1
  funext answer
  rcases answer with e | _ | search
  · rfl
  · rfl
  · cases hurl : search.webhookUrl with
    | none => simp only [hurl]
    | some url => simp only [hurl]

-- Where the lookups succeed, every destination of the search is tried once, in
-- order, if the run found something new.
theorem maybeSendDigest_attempts {job : ResearchJob} {results : List SearchResult}
    {s : JobWorld × List (Event JobPorts)}
    (hlookups : ∀ event ∈ ((IngestResults.maybeSendDigest job results).run
      (Handler.logged fun _ => env.handle) s).2.2, lookupFailed event = false)
    {rsId : Uuid} (hrun : job.recurringSearchId = some rsId)
    (hnew : (results.filter (·.isNew)).isEmpty = false) :
    attempts ((IngestResults.maybeSendDigest job results).run
        (Handler.logged fun _ => env.handle) s).2.2 =
      attempts s.2 ++ ((s.1.recurring.get rsId).elim [] (destinations s.1)).map fun destination =>
        (destination, IngestResults.digestOf rsId job (results.filter (·.isNew))) := by
  rw [maybeSendDigest_eq hrun hnew] at hlookups ⊢
  obtain ⟨digest, hdigest⟩ : ∃ digest, digest =
    IngestResults.digestOf rsId job (results.filter (·.isNew)) := ⟨_, rfl⟩
  have hfind : ∀ answer, attempts [⟨.findRecurring rsId, answer⟩] = [] := fun _ => rfl
  simp only [← hdigest] at hlookups ⊢
  simp only [Program.run_call, Handler.logged, JobEnv.handle, JobEnv.attempt] at hlookups ⊢
  cases hfault : env.fault s.1.calls with
  | some e =>
      simp only [hfault] at hlookups
      have hfailed := hlookups ⟨.findRecurring rsId, .error e⟩ (by simp)
      cases hfailed
  | none =>
      simp only [hfault] at hlookups ⊢
      cases hsearch : s.1.recurring.get rsId with
      | none => simp [hfind]
      | some search =>
          simp only [hsearch] at hlookups ⊢
          cases hurl : search.webhookUrl with
          | none =>
              simp only [hurl] at hlookups ⊢
              refine (notifyChannels_attempts _ _ _ hlookups).trans ?_
              simp [hfind, destinations, hurl]
          | some url =>
              simp only [hurl, Program.run_call] at hlookups ⊢
              refine (notifyChannels_attempts _ _ _ hlookups).trans ?_
              subst hdigest
              set digest := IngestResults.digestOf rsId job (results.filter (·.isNew))
              have hsent : (env.handle (.sendDigest url digest)
                  { s.1 with calls := s.1.calls + 1 }).2.channels = s.1.channels := by
                simp only [JobEnv.handle, JobEnv.attempt]
                split <;> rfl
              have hsend : ∀ answer, attempts [⟨.sendDigest url digest, answer⟩] =
                [(.webhook url, digest)] := fun _ => rfl
              simp only [Handler.logged, attempts_append, hfind, hsend, hsent]
              simp [destinations, hurl]

-- Whatever the answers, each digest of a run is the one given.
def Sends (digest : Digest) (past events : List (Event JobPorts)) : Prop :=
  ∀ sent ∈ attempts events, sent ∈ attempts past ∨ sent.2 = digest

theorem Sends.other {digest : Digest} {event : Event JobPorts} (h : attempted event = none) :
    Sends digest past (past ++ [event]) := by
  intro sent hsent
  have hnone : attempts [event] = [] := by simp [attempts, h]
  rw [attempts_append, hnone, List.append_nil] at hsent
  exact Or.inl hsent

theorem Sends.sent {digest : Digest} {event : Event JobPorts} {destination : Destination}
    (h : attempted event = some (destination, digest)) : Sends digest past (past ++ [event]) := by
  intro sent hsent
  have hone : attempts [event] = [(destination, digest)] := by simp [attempts, h]
  rw [attempts_append, hone, List.mem_append, List.mem_singleton] at hsent
  exact hsent.imp id fun hsent => by rw [hsent]

theorem Sends.trans {digest : Digest} {middle events : List (Event JobPorts)}
    (h : Sends digest past middle) (hnext : Sends digest middle events) :
    Sends digest past events :=
  fun sent hsent => (hnext sent hsent).elim (h sent) Or.inr

theorem notifyAll_sends (digest : Digest) (channels : List NotificationChannel)
    (past : List (Event JobPorts)) :
    (IngestResults.notifyAll digest channels).Ends (fun events _ => Sends digest past events)
      past := by
  induction channels generalizing past with
  | nil => exact fun sent hsent => Or.inl hsent
  | cons channel channels ih =>
      intro answer
      exact (ih _).mono fun events _ h => (Sends.sent rfl).trans h

theorem notifyChannels_sends (userId : Uuid) (digest : Digest) (past : List (Event JobPorts)) :
    (IngestResults.notifyChannels userId digest).Ends (fun events _ => Sends digest past events)
      past := by
  rintro (e | channels)
  · exact Sends.other rfl
  · exact (notifyAll_sends digest channels _).mono fun events _ h => (Sends.other rfl).trans h

theorem maybeSendDigest_sends {job : ResearchJob} {results : List SearchResult} {rsId : Uuid}
    (hrun : job.recurringSearchId = some rsId)
    (hnew : (results.filter (·.isNew)).isEmpty = false) (past : List (Event JobPorts)) :
    (IngestResults.maybeSendDigest job results).Ends
      (fun events _ =>
        Sends (IngestResults.digestOf rsId job (results.filter (·.isNew))) past events) past := by
  rw [maybeSendDigest_eq hrun hnew]
  rintro (e | _ | search)
  · exact Sends.other rfl
  · exact Sends.other rfl
  dsimp only
  split
  · intro answer
    exact (notifyChannels_sends _ _ _).mono fun events _ h =>
      ((Sends.other rfl).trans (Sends.sent rfl)).trans h
  · exact (notifyChannels_sends _ _ _).mono fun events _ h => (Sends.other rfl).trans h

theorem maybeSendDigest_idle {job : ResearchJob} {results : List SearchResult}
    (h : job.recurringSearchId = none ∨ (results.filter (·.isNew)).isEmpty = true) :
    IngestResults.maybeSendDigest job results = .done () := by
  unfold IngestResults.maybeSendDigest
  rcases h with h | h
  · simp only [h]
    rfl
  · simp only [h, if_true]
    split <;> rfl

end Attempts

section Completion

variable {env : JobEnv} {world : JobWorld} {jobId : Uuid} {results : List SearchResult}

theorem run_complete (jobId : Uuid) (results : List SearchResult) :
    (IngestResults.complete jobId results).run = .call (.find jobId) fun
      | .ok (some job) => .call (.storeResults jobId results) fun
          | .ok () => .call .utcNow fun clock => .call (.update (job.complete clock)) fun
              | .ok () => IngestResults.maybeSendDigest (job.complete clock) results >>= fun _ =>
                  .done (.ok ())
              | .error e => .done (.error (.infrastructure e))
          | .error e => .done (.error (.infrastructure e))
      | .ok none => .done (.error .jobNotFound)
      | .error e => .done (.error (.infrastructure e)) := by
  rw [IngestResults.complete, run_findJob_bind]
  congr 1
  funext answer
  rcases answer with e | _ | job
  · rfl
  · rfl
  simp only [Fallible.run_orFail_bind, Fallible.run_lift_bind, ask, Program.call_bind,
    Program.done_bind, ResearchJob.completeNow, Program.pure_eq]
  congr 1
  funext answer
  rcases answer with e | _
  · rfl
  dsimp only
  congr 1
  funext clock
  congr 1
  funext answer
  rcases answer with e | _ <;> rfl

-- The world in which a completed job's digest is sent.
def JobEnv.completed (env : JobEnv) (job : ResearchJob) (jobId : Uuid)
    (results : List SearchResult) (world : JobWorld) : JobWorld :=
  { world with
    results := world.results.insert (jobId, results)
    jobs := world.jobs.update env.adapter (job.complete (env.clock world.readings))
    calls := world.calls + 3
    readings := world.readings + 1 }

def completedLog (job : ResearchJob) (jobId : Uuid) (results : List SearchResult) (clock : Int) :
    List (Event JobPorts) :=
  [⟨.find jobId, .ok (some job)⟩, ⟨.storeResults jobId results, .ok ()⟩, ⟨.utcNow, clock⟩,
    ⟨.update (job.complete clock), .ok ()⟩]

-- A completion that gets to the digest: the three calls before it succeed.
theorem completion_eq {job : ResearchJob} (hjob : world.jobs.get jobId = some job)
    (hfault : ∀ n < 3, env.fault (world.calls + n) = none) :
    env.completion jobId results world =
      (.ok (), ((IngestResults.maybeSendDigest (job.complete (env.clock world.readings)) results).run
        (Handler.logged fun _ => env.handle) (env.completed job jobId results world,
          completedLog job jobId results (env.clock world.readings))).2) := by
  have hfind : env.fault world.calls = none := hfault 0 (by omega)
  have hstore := hfault 1 (by omega)
  have hupdate := hfault 2 (by omega)
  rw [JobEnv.completion, run_complete]
  simp [Program.run_bind, Handler.logged, JobEnv.handle, JobEnv.attempt, hfind, hstore, hupdate, hjob,
    JobEnv.completed, completedLog]

-- One that does not is the same whatever becomes of the digest.
theorem completion_failed (results : List SearchResult) (h : world.jobs.get jobId = none ∨ ∃ n < 3,
      (env.fault (world.calls + n)).isSome) :
    ∃ e later events, attempts events = [] ∧ ∀ fault,
      (∀ n < 3, fault (world.calls + n) = env.fault (world.calls + n)) →
        { env with fault }.completion jobId results world = (.error e, later, events) := by
  have hfirst : ∀ fault : Nat → Option PortError,
      (∀ n < 3, fault (world.calls + n) = env.fault (world.calls + n)) →
      fault world.calls = env.fault world.calls := fun fault hsame => hsame 0 (by omega)
  cases hfind : env.fault world.calls with
  | some e =>
      refine ⟨.infrastructure e, { world with calls := world.calls + 1 },
        [⟨.find jobId, .error e⟩], rfl, fun fault hsame => ?_⟩
      have hfault := (hfirst fault hsame).trans hfind
      simp [JobEnv.completion, run_complete, Handler.logged, JobEnv.handle, JobEnv.attempt, hfault]
  | none =>
    cases hjob : world.jobs.get jobId with
    | none =>
        refine ⟨.jobNotFound, { world with calls := world.calls + 1 },
          [⟨.find jobId, .ok none⟩], rfl, fun fault hsame => ?_⟩
        have hfault := (hfirst fault hsame).trans hfind
        simp [JobEnv.completion, run_complete, Handler.logged, JobEnv.handle, JobEnv.attempt, hfault,
          hjob]
    | some job =>
      cases hstore : env.fault (world.calls + 1) with
      | some e =>
          refine ⟨.infrastructure e, { world with calls := world.calls + 2 },
            [⟨.find jobId, .ok (some job)⟩, ⟨.storeResults jobId results, .error e⟩], rfl,
            fun fault hsame => ?_⟩
          have hfault := (hfirst fault hsame).trans hfind
          have hstored := (hsame 1 (by omega)).trans hstore
          simp [JobEnv.completion, run_complete, Handler.logged, JobEnv.handle, JobEnv.attempt,
            hfault, hstored, hjob]
      | none =>
        cases hupdate : env.fault (world.calls + 2) with
        | some e =>
            refine ⟨.infrastructure e, { world with
                results := world.results.insert (jobId, results)
                calls := world.calls + 3
                readings := world.readings + 1 },
              [⟨.find jobId, .ok (some job)⟩, ⟨.storeResults jobId results, .ok ()⟩,
                ⟨.utcNow, env.clock world.readings⟩,
                ⟨.update (job.complete (env.clock world.readings)), .error e⟩], rfl,
              fun fault hsame => ?_⟩
            have hfault := (hfirst fault hsame).trans hfind
            have hstored := (hsame 1 (by omega)).trans hstore
            have hupdated := (hsame 2 (by omega)).trans hupdate
            simp [JobEnv.completion, run_complete, Handler.logged, JobEnv.handle, JobEnv.attempt,
              hfault, hstored, hupdated, hjob]
        | none =>
            exfalso
            rcases h with h | ⟨n, hn, h⟩
            · rw [hjob] at h
              cases h
            · have hcase : n = 0 ∨ n = 1 ∨ n = 2 := by omega
              rcases hcase with rfl | rfl | rfl
              · rw [Nat.add_zero, hfind] at h
                cases h
              · rw [hstore] at h
                cases h
              · rw [hupdate] at h
                cases h

-- The completion notifies a destination: its job is a run of a search that
-- still exists and that the destination serves, and something is new.
def JobWorld.Notifies (world : JobWorld) (jobId : Uuid) (results : List SearchResult)
    (destination : Destination) : Prop :=
  ∃ job rsId search, world.jobs.get jobId = some job ∧ job.recurringSearchId = some rsId ∧
    world.recurring.get rsId = some search ∧ world.Serves search destination ∧
    ∃ result ∈ results, result.isNew = true

section Outcome

variable {job : ResearchJob} (hjob : world.jobs.get jobId = some job)
  (hfault : ∀ n < 3, env.fault (world.calls + n) = none)
include hjob hfault

theorem completion_stored (results : List SearchResult) :
    (env.completion jobId results world).2.1.stored =
      (env.completed job jobId results world).stored := by
  rw [completion_eq hjob hfault]
  exact maybeSendDigest_stored _ _ _

theorem completion_idle (h : job.recurringSearchId = none ∨
      (results.filter (·.isNew)).isEmpty = true) :
    attempts (env.completion jobId results world).2.2 = [] := by
  rw [completion_eq hjob hfault]
  have hidle : IngestResults.maybeSendDigest (job.complete (env.clock world.readings)) results =
    .done () := maybeSendDigest_idle h
  rw [hidle]
  rfl

theorem completion_attempts {rsId : Uuid} (hrun : job.recurringSearchId = some rsId)
    (hnew : (results.filter (·.isNew)).isEmpty = false)
    (hlookups : ∀ event ∈ (env.completion jobId results world).2.2, lookupFailed event = false) :
    (attempts (env.completion jobId results world).2.2).map Prod.fst =
      (world.recurring.get rsId).elim [] (destinations world) := by
  rw [completion_eq hjob hfault] at hlookups ⊢
  have hrun : (job.complete (env.clock world.readings)).recurringSearchId = some rsId := hrun
  rw [maybeSendDigest_attempts hlookups hrun hnew]
  have hlog : attempts (completedLog job jobId results (env.clock world.readings)) = [] := rfl
  rw [hlog, List.nil_append, List.map_map]
  exact List.map_id _

theorem completion_digests :
    ∀ sent ∈ attempts (env.completion jobId results world).2.2, ∃ rsId,
      sent.2 = IngestResults.digestOf rsId (job.complete (env.clock world.readings))
        (results.filter (·.isNew)) := by
  intro sent hsent
  cases hrun : job.recurringSearchId with
  | none =>
      rw [completion_idle hjob hfault (Or.inl hrun)] at hsent
      cases hsent
  | some rsId =>
      cases hnew : (results.filter (·.isNew)).isEmpty with
      | true =>
          rw [completion_idle hjob hfault (Or.inr hnew)] at hsent
          cases hsent
      | false =>
          have hrun : (job.complete (env.clock world.readings)).recurringSearchId = some rsId :=
            hrun
          rw [completion_eq hjob hfault] at hsent
          have hsends := (maybeSendDigest_sends hrun hnew
            (completedLog job jobId results (env.clock world.readings))).logged
              (fun _ => env.handle) (env.completed job jobId results world)
          rcases hsends sent hsent with hpast | hdigest
          · cases hpast
          · exact ⟨rsId, hdigest⟩

theorem completion_count
    (hlookups : ∀ event ∈ (env.completion jobId results world).2.2, lookupFailed event = false)
    (destination : Destination) :
    ((attempts (env.completion jobId results world).2.2).map Prod.fst).count destination ≤ 1 ∧
      (((attempts (env.completion jobId results world).2.2).map Prod.fst).count destination = 1 ↔
        world.Notifies jobId results destination) := by
  -- what is notified, where the job is a run and something is new
  have hnotifies : world.Notifies jobId results destination ↔
      ∃ rsId, job.recurringSearchId = some rsId ∧
        (results.filter (·.isNew)).isEmpty = false ∧
        destination ∈ (world.recurring.get rsId).elim [] (destinations world) := by
    have hempty : (results.filter (·.isNew)).isEmpty = false ↔
        ∃ result ∈ results, result.isNew = true := by simp
    rw [hempty]
    constructor
    · rintro ⟨job', rsId, search, hjob', hrun, hsearch, hserves, hnew⟩
      obtain rfl : job = job' := Option.some.inj (hjob.symm.trans hjob')
      refine ⟨rsId, hrun, hnew, ?_⟩
      rw [hsearch]
      exact mem_destinations.mpr hserves
    · rintro ⟨rsId, hrun, hnew, hmem⟩
      cases hsearch : world.recurring.get rsId with
      | none =>
          rw [hsearch] at hmem
          cases hmem
      | some search =>
          rw [hsearch] at hmem
          exact ⟨job, rsId, search, hjob, hrun, hsearch, mem_destinations.mp hmem, hnew⟩
  have hidle : (job.recurringSearchId = none ∨ (results.filter (·.isNew)).isEmpty = true) →
      ¬ world.Notifies jobId results destination := by
    rw [hnotifies]
    rintro (h | h) ⟨rsId, hrun, hnew, -⟩
    · rw [h] at hrun
      cases hrun
    · rw [h] at hnew
      cases hnew
  by_cases hquiet : job.recurringSearchId = none ∨ (results.filter (·.isNew)).isEmpty = true
  · rw [completion_idle hjob hfault hquiet]
    simpa using hidle hquiet
  · push Not at hquiet
    obtain ⟨hsome, hnew⟩ := hquiet
    obtain ⟨rsId, hrun⟩ := Option.ne_none_iff_exists'.mp hsome
    have hnew : (results.filter (·.isNew)).isEmpty = false := Bool.eq_false_iff.mpr hnew
    rw [completion_attempts hjob hfault hrun hnew hlookups]
    have hnodup : ((world.recurring.get rsId).elim [] (destinations world)).Nodup := by
      cases world.recurring.get rsId with
      | none => exact List.nodup_nil
      | some search => exact destinations_nodup world search
    refine ⟨List.nodup_iff_count_le_one.mp hnodup destination, ?_⟩
    rw [hnotifies]
    constructor
    · intro hone
      exact ⟨rsId, hrun, hnew, List.count_pos_iff.mp (by omega)⟩
    · rintro ⟨rsId', hrun', -, hmem⟩
      obtain rfl : rsId = rsId' := Option.some.inj (hrun.symm.trans hrun')
      exact List.count_eq_one_of_mem hnodup hmem

end Outcome

-- Whatever fails on the way to the destinations, the completion returns and
-- stores the same; where the lookups succeed, it tries each destination that
-- it notifies once and no other; and a digest lists the new results in order.
theorem complete_isolated (env : JobEnv) (world : JobWorld) (jobId : Uuid)
    (results : List SearchResult) :
    let done := env.completion jobId results world
    (∀ fault, (∀ n < 3, fault (world.calls + n) = env.fault (world.calls + n)) →
      let other := { env with fault }.completion jobId results world
      other.1 = done.1 ∧ other.2.1.stored = done.2.1.stored) ∧
    (done.1 = .ok () → (∀ event ∈ done.2.2, lookupFailed event = false) → ∀ destination,
      ((attempts done.2.2).map Prod.fst).count destination ≤ 1 ∧
      (((attempts done.2.2).map Prod.fst).count destination = 1 ↔
        world.Notifies jobId results destination)) ∧
    ∀ sent ∈ attempts done.2.2,
      sent.2.newResults = (results.filter (·.isNew)).map (fun result =>
        { title := result.title, url := result.url, publishedAt := result.publishedAt }) ∧
      sent.2.newCount = sent.2.newResults.length := by
  intro done
  by_cases hearly : world.jobs.get jobId = none ∨ ∃ n < 3, (env.fault (world.calls + n)).isSome
  · obtain ⟨e, later, events, hevents, hsame⟩ := completion_failed results hearly
    have hdone : done = (.error e, later, events) := hsame env.fault fun n hn => rfl
    refine ⟨fun fault hfault => ?_, fun hok => ?_, ?_⟩
    · dsimp only
      rw [hsame fault hfault, hdone]
      exact ⟨rfl, rfl⟩
    · rw [hdone] at hok
      cases hok
    · rw [hdone, hevents]
      exact fun sent hsent => by cases hsent
  · push Not at hearly
    obtain ⟨hfound, hnone⟩ := hearly
    obtain ⟨job, hjob⟩ := Option.ne_none_iff_exists'.mp hfound
    have hfault : ∀ n < 3, env.fault (world.calls + n) = none := fun n hn => by
      simpa using hnone n hn
    refine ⟨fun fault hsame => ?_, fun _ hlookups destination => ?_, fun sent hsent => ?_⟩
    · have hother : ∀ n < 3, { env with fault }.fault (world.calls + n) = none := fun n hn =>
        (hsame n hn).trans (hfault n hn)
      refine ⟨?_, ?_⟩
      · exact congrArg Prod.fst (completion_eq hjob hother) |>.trans
          (congrArg Prod.fst (completion_eq hjob hfault)).symm
      · exact (completion_stored hjob hother results).trans
          (completion_stored hjob hfault results).symm
    · have hcount := completion_count hjob hfault hlookups destination
      exact ⟨hcount.1, hcount.2⟩
    · obtain ⟨rsId, hdigest⟩ := completion_digests hjob hfault sent hsent
      rw [hdigest]
      exact ⟨rfl, (List.length_map _).symm⟩

end Completion

-- A run of the hourly search, whose owner has a Slack channel.
namespace Sample

def slack : NotificationChannel where
  id := ⟨"4c6e2f18-b9d0-4a37-8e52-f07a1b3c5d69"⟩
  userId := job.userId
  kind := .slack
  target := "https://hooks.slack.com/services/T0/B0/x"
  secret := none
  createdAt := job.createdAt

def release : SearchResult where
  title := "Lean 4"
  url := "https://lean-lang.org"
  snippet := ""
  publishedAt := none
  dateConfidence := .unknown
  eventType := .release
  summary := none
  isNew := true

def subscribed : JobWorld :=
  { world with
    jobs := Table.empty.insert (job.withRecurring hourly.id)
    recurring := Table.empty.insert hourly
    channels := Table.empty.insert slack }

-- The webhook is dead: the fifth call fails.
def deadWebhook : JobEnv :=
  { env .postgres with fault := fun n => if n = 4 then some ⟨"connection refused"⟩ else none }

end Sample

theorem dead_webhook_isolated :
    ((attempts (Sample.deadWebhook.completion Sample.job.id [Sample.release] Sample.subscribed).2.2).map
      Prod.fst).count (.channel Sample.slack) = 1 := by
  have hisolated := (complete_isolated Sample.deadWebhook Sample.subscribed Sample.job.id
    [Sample.release]).2.1 (by rfl) (by decide +kernel) (.channel Sample.slack)
  exact hisolated.2.mpr ⟨Sample.job.withRecurring Sample.hourly.id, Sample.hourly.id, Sample.hourly,
    by rfl, rfl, by rfl, ⟨List.mem_singleton_self _, rfl⟩, Sample.release, List.mem_singleton_self _, rfl⟩

end AgentBoilerplate.Job
