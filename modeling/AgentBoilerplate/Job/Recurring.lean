import Mathlib
import AgentBoilerplate.Job.Lemmas

namespace AgentBoilerplate.Job

open Effects Collections

-- A dispatch of a run of the search that the dispatcher accepted.
def isLaunch (id : Uuid) : Event JobPorts → Bool
  | ⟨.dispatch job _, .ok ()⟩ => job.recurringSearchId = some id
  | _ => false

def failedMark : Event JobPorts → Option Uuid
  | ⟨.markRan id _, .error _⟩ => some id
  | _ => none

-- No mark of a search fails in a tick that has launched the search.
def MarksKept (events : List (Event JobPorts)) : Prop :=
  ∀ id ∈ events.filterMap failedMark, ∀ event ∈ events, isLaunch id event = false

instance (events : List (Event JobPorts)) : Decidable (MarksKept events) :=
  inferInstanceAs (Decidable (∀ id ∈ events.filterMap failedMark, ∀ event ∈ events,
    isLaunch id event = false))

-- When a tick launched the search, by the reading of the clock it starts with.
def launchTimes (id : Uuid) : List (Event JobPorts) → List Int
  | ⟨.utcNow, now⟩ :: rest => (rest.filter (isLaunch id)).map fun _ => now
  | _ => []

-- One tick of the scheduler, with its calls, and ticks one after another.
def JobEnv.tick (env : JobEnv) (dailyQuota : Nat) (world : JobWorld) :
    List (Event JobPorts) × JobWorld :=
  let ran := (RunDueSearches.execute dailyQuota).run.run (Handler.logged fun _ => env.handle)
    (world, [])
  (ran.2.2, ran.2.1)

def JobEnv.ticks (env : JobEnv) (dailyQuota : Nat) (world : JobWorld) :
    Nat → List (List (Event JobPorts)) × JobWorld
  | 0 => ([], world)
  | n + 1 =>
      let before := env.ticks dailyQuota world n
      let tick := env.tick dailyQuota before.2
      (before.1 ++ [tick.1], tick.2)

-- The calls that mark or launch a search.
def paces : JobCall → Bool
  | .dispatch _ _ | .markRan _ _ => true
  | _ => false

theorem isLaunch_of_not_paces (id : Uuid) {request : JobCall} (h : paces request = false)
    {answer : request.Answer} : isLaunch id ⟨request, answer⟩ = false := by
  cases request with
  | dispatch | markRan => cases h
  | _ => rfl

section Ticked

variable {now : Int} {ids : List Uuid} {past : List (Event JobPorts)}

-- What a tick has done once it has handled the searches `ids`: it marks at its
-- own reading, it marks what it launches, and it launches each search once.
structure Ticked (now : Int) (ids : List Uuid) (events : List (Event JobPorts)) : Prop where
  marks : ∀ id at_ answer, (⟨.markRan id at_, answer⟩ : Event JobPorts) ∈ events → at_ = now
  marked : ∀ id, (∃ event ∈ events, isLaunch id event = true) →
    ∃ answer, (⟨.markRan id now, answer⟩ : Event JobPorts) ∈ events
  once : ∀ id, events.countP (isLaunch id) ≤ ids.count id

namespace Ticked

theorem more (h : Ticked now ids past) (rest : List Uuid) : Ticked now (ids ++ rest) past :=
  ⟨h.marks, h.marked, fun id => (h.once id).trans (by rw [List.count_append]; omega)⟩

-- A call that is no mark and launches nothing.
theorem quiet (h : Ticked now ids past) {event : Event JobPorts}
    (hmark : ∀ id at_ answer, event ≠ ⟨.markRan id at_, answer⟩)
    (hlaunch : ∀ id, isLaunch id event = false) : Ticked now ids (past ++ [event]) where
  marks id at_ answer hmem := by
    rcases List.mem_append.mp hmem with hold | hnew
    · exact h.marks id at_ answer hold
    · exact absurd (List.mem_singleton.mp hnew).symm (hmark id at_ answer)
  marked id := by
    rintro ⟨other, hother, hlaunched⟩
    rcases List.mem_append.mp hother with hold | hnew
    · obtain ⟨answer, hanswer⟩ := h.marked id ⟨other, hold, hlaunched⟩
      exact ⟨answer, List.mem_append_left _ hanswer⟩
    · rw [List.mem_singleton.mp hnew, hlaunch] at hlaunched
      cases hlaunched
  once id := by
    rw [List.countP_append, List.countP_singleton, hlaunch]
    simpa using h.once id

theorem other (h : Ticked now ids past) (request : JobCall) (hrequest : paces request = false)
    (answer : request.Answer) : Ticked now ids (past ++ [⟨request, answer⟩]) := by
  refine h.quiet ?_ fun id => isLaunch_of_not_paces id hrequest
  intro id at_ answer' heq
  cases heq
  cases hrequest

theorem refused (h : Ticked now ids past) (job : ResearchJob) (seenUrls : List String)
    (e : PortError) : Ticked now ids (past ++ [⟨.dispatch job seenUrls, .error e⟩]) := by
  refine h.quiet ?_ fun id => rfl
  intro id at_ answer heq
  cases heq

theorem mark (h : Ticked now ids past) (id : Uuid) (answer : Except PortError Unit) :
    Ticked now ids (past ++ [⟨.markRan id now, answer⟩]) where
  marks other at_ answer' hmem := by
    rcases List.mem_append.mp hmem with hold | hnew
    · exact h.marks other at_ answer' hold
    · cases List.mem_singleton.mp hnew
      rfl
  marked other := by
    rintro ⟨event, hevent, hlaunched⟩
    rcases List.mem_append.mp hevent with hold | hnew
    · obtain ⟨answer', hanswer⟩ := h.marked other ⟨event, hold, hlaunched⟩
      exact ⟨answer', List.mem_append_left _ hanswer⟩
    · rw [List.mem_singleton.mp hnew] at hlaunched
      cases hlaunched
  once other := by
    rw [List.countP_append, List.countP_singleton]
    exact (h.once other).trans_eq' (by simp [isLaunch])

-- A launch and the mark that follows it.
theorem launch (h : Ticked now ids past) {job : ResearchJob} {id : Uuid}
    (hjob : job.recurringSearchId = some id) (seenUrls : List String)
    (answer : Except PortError Unit) :
    Ticked now (ids ++ [id]) (past ++ [⟨.dispatch job seenUrls, .ok ()⟩] ++
      [⟨.markRan id now, answer⟩]) where
  marks other at_ answer' hmem := by
    simp only [List.append_assoc, List.mem_append, List.mem_singleton] at hmem
    rcases hmem with hold | hnew | hnew
    · exact h.marks other at_ answer' hold
    · cases hnew
    · cases hnew
      rfl
  marked other := by
    rintro ⟨event, hevent, hlaunched⟩
    simp only [List.append_assoc, List.mem_append, List.mem_singleton] at hevent
    rcases hevent with hold | rfl | rfl
    · obtain ⟨answer', hanswer⟩ := h.marked other ⟨event, hold, hlaunched⟩
      exact ⟨answer', by simp [hanswer]⟩
    · obtain rfl : id = other := by simpa [isLaunch, hjob] using hlaunched
      exact ⟨answer, by simp⟩
    · cases hlaunched
  once other := by
    have hold := h.once other
    simp only [List.countP_append, List.countP_singleton, List.count_append, List.count_singleton,
      isLaunch, hjob]
    by_cases hid : id = other
    · simp [hid]
      omega
    · simp [hid]
      omega

end Ticked

theorem failNow_ends {β : Type} {post : List (Event JobPorts) → β → Prop} {job : ResearchJob}
    {error : String} {f : ResearchJob → Program JobPorts β} (hsame : (f job).Ends post past)
    (hfail : ∀ clock, (f (job.fail clock error)).Ends post (past ++ [⟨.utcNow, clock⟩])) :
    (job.failNow error >>= f).Ends post past := by
  unfold ResearchJob.failNow
  split
  · exact hsame
  · exact hfail

-- How a run ends whose dispatch was refused.
theorem marked_ends (h : Ticked now ids past) (job : ResearchJob) (search : RecurringSearch) :
    (do
      orFail id (ask (.update job))
      orFail id (ask (.markRan search.id now))
      return 0 : UseCase PortError Nat).run.Ends
        (fun events _ => Ticked now (ids ++ [search.id]) events) past := by
  simp only [Fallible.run_orFail_bind, ask, Program.call_bind, Program.done_bind,
    Program.ends_call]
  rintro (e | _)
  · exact (h.other (.update job) rfl (.error e)).more _
  rintro (e | _)
  · exact ((h.other (.update job) rfl (.ok ())).mark search.id (.error e)).more _
  · exact ((h.other (.update job) rfl (.ok ())).mark search.id (.ok ())).more _

theorem runOne_ticked (dailyQuota : Nat) (search : RecurringSearch) (h : Ticked now ids past) :
    (RunDueSearches.runOne dailyQuota now search).run.Ends
      (fun events _ => Ticked now (ids ++ [search.id]) events) past := by
  have hdone : ∀ {events}, Ticked now ids events → ∀ result : Except PortError Nat,
      (Program.done result : Program JobPorts _).Ends
        (fun events _ => Ticked now (ids ++ [search.id]) events) events :=
    fun hevents _ => hevents.more _
  unfold RunDueSearches.runOne
  simp only [Fallible.run_orFail_bind, ask, Program.call_bind, Program.done_bind,
    Program.ends_call]
  rintro (e | used)
  · exact hdone (h.other _ rfl _) _
  have hcount := h.other (.countCreatedSince search.userId (now - Duration.hours 24)) rfl (.ok used)
  dsimp only
  split
  · -- the quota is reached: the search is marked and nothing is launched
    simp only [Fallible.run_orFail_bind, Program.call_bind, Program.done_bind, Program.ends_call]
    rintro (e | _)
    · exact hdone (hcount.mark _ _) _
    · exact hdone (hcount.mark _ _) _
  simp only [Fallible.run_orFail_bind, Fallible.run_lift_bind, Program.call_bind,
    Program.done_bind, Program.ends_call]
  rintro (e | seenUrls)
  · exact hdone (hcount.other _ rfl _) _
  have hurls := hcount.other (.recentUrlsForRecurring search.id seenUrlsLimit) rfl (.ok seenUrls)
  dsimp only
  rw [newNow_bind]
  -- which check refuses the keyword plays no part
  generalize (trim search.keyword).length = length
  generalize (trim search.keyword).isEmpty = empty
  split
  · exact hdone hurls _
  split
  · exact hdone hurls _
  intro id clock
  have hdrawn := (hurls.other .newUuid rfl id).other .utcNow rfl clock
  beta_reduce
  generalize ResearchJob.new id clock search.userId search.keyword = created
  cases created with
  | error e => exact hdone hdrawn _
  | ok job =>
      dsimp only
      rintro (e | _)
      · exact hdone (hdrawn.other _ rfl _) _
      have hinsert := hdrawn.other
        (.insert ((job.withMode search.mode).withRecurring search.id)) rfl (.ok ())
      dsimp only
      rintro (e | _)
      · -- the job is stored as failed, and the search is marked
        have hrefused := hinsert.refused
          ((job.withMode search.mode).withRecurring search.id) seenUrls e
        simp only [Fallible.run_lift_bind]
        refine failNow_ends ?_ fun clock => ?_
        · exact marked_ends hrefused _ _
        · exact marked_ends (hrefused.other .utcNow rfl clock) _ _
      · simp only [Fallible.run_orFail_bind, Program.call_bind, Program.done_bind,
          Program.ends_call]
        rintro (e | _)
        · exact hinsert.launch rfl _ _
        · exact hinsert.launch rfl _ _

theorem runAll_ticked (dailyQuota : Nat) (due : List RecurringSearch) (launched : Nat)
    (h : Ticked now ids past) :
    (RunDueSearches.runAll dailyQuota now due launched).run.Ends
      (fun events _ => Ticked now (ids ++ due.map RecurringSearch.id) events) past := by
  induction due generalizing ids past launched with
  | nil => exact h.more _
  | cons search due ih =>
      rw [RunDueSearches.runAll, ExceptT.run_bind, Program.ends_bind]
      refine (runOne_ticked dailyQuota search h).mono fun events result hticked => ?_
      cases result with
      | error e =>
          have hmore := hticked.more (due.map RecurringSearch.id)
          rwa [List.append_assoc] at hmore
      | ok more =>
          have hrest := ih (launched + more) hticked
          rwa [List.append_assoc] at hrest

end Ticked

namespace JobEnv

variable {env : JobEnv} {world : JobWorld}

-- Only a mark that is answered `ok` changes the stored searches.
theorem handle_recurring (env : JobEnv) (world : JobWorld) (request : JobCall) :
    ((env.handle request world).2.recurring = world.recurring ∧
      ∀ id at_, (⟨request, (env.handle request world).1⟩ : Event JobPorts) ≠
        ⟨.markRan id at_, .ok ()⟩) ∨
    ∃ id at_, (⟨request, (env.handle request world).1⟩ : Event JobPorts) =
        ⟨.markRan id at_, .ok ()⟩ ∧
      (env.handle request world).2.recurring =
        world.recurring.modify id fun s => s.markRan (env.adapter.timestamp at_) := by
  cases request with
  | markRan id at_ =>
      simp only [handle, attempt]
      split
      · exact Or.inl ⟨rfl, by simp⟩
      · exact Or.inr ⟨id, at_, rfl, rfl⟩
  | utcNow | newUuid => exact Or.inl ⟨rfl, by simp⟩
  | _ =>
      left
      simp only [handle, attempt]
      split <;> exact ⟨rfl, by simp⟩

-- Where a stored search comes from: it was last marked by one of the calls, if
-- any of them marked it.
def MarkedFrom (env : JobEnv) (first : JobWorld) (s : JobWorld × List (Event JobPorts)) : Prop :=
  first.readings ≤ s.1.readings ∧ ∀ row ∈ s.1.recurring, ∃ search ∈ first.recurring,
    row.id = search.id ∧ row.intervalMinutes = search.intervalMinutes ∧
      ((row.lastRunAt = search.lastRunAt ∧
          ∀ at_, (⟨.markRan search.id at_, .ok ()⟩ : Event JobPorts) ∉ s.2) ∨
        ∃ at_, (⟨.markRan search.id at_, .ok ()⟩ : Event JobPorts) ∈ s.2 ∧
          row.lastRunAt = some (env.adapter.timestamp at_))

theorem markedFrom_step (request : JobCall) {s : JobWorld × List (Event JobPorts)}
    (h : MarkedFrom env world s) :
    MarkedFrom env world (Handler.logged (fun _ => env.handle) request s).2 := by
  refine ⟨h.1.trans (handle_readings_le env request s.1), ?_⟩
  intro row hrow
  rcases handle_recurring env s.1 request with ⟨hsame, hother⟩ | ⟨id, at_, hevent, hmodify⟩
  · have hold : row ∈ s.1.recurring := hsame ▸ hrow
    obtain ⟨search, hsearch, hid, hinterval, hlast⟩ := h.2 row hold
    refine ⟨search, hsearch, hid, hinterval, ?_⟩
    rcases hlast with ⟨hlast, hunmarked⟩ | ⟨at_, hmarked, hlast⟩
    · refine Or.inl ⟨hlast, fun at_ hmem => ?_⟩
      rcases List.mem_append.mp hmem with hpast | hnew
      · exact hunmarked at_ hpast
      · exact hother _ _ (List.mem_singleton.mp hnew).symm
    · exact Or.inr ⟨at_, List.mem_append_left _ hmarked, hlast⟩
  · have hnew : row ∈ s.1.recurring.modify id fun s => s.markRan (env.adapter.timestamp at_) :=
      hmodify ▸ hrow
    obtain ⟨old, hold, rfl⟩ := (Table.mem_modify _ _ _ _ _).mp hnew
    obtain ⟨search, hsearch, hid, hinterval, hlast⟩ := h.2 old hold
    refine ⟨search, hsearch, ?_⟩
    by_cases hkey : old.id = id
    · rw [if_pos hkey]
      refine ⟨hid, hinterval, Or.inr ⟨at_, List.mem_append_right _ ?_, rfl⟩⟩
      rw [← hid, hkey]
      exact List.mem_singleton.mpr hevent.symm
    · rw [if_neg hkey]
      refine ⟨hid, hinterval, ?_⟩
      rcases hlast with ⟨hlast, hunmarked⟩ | ⟨before, hmarked, hlast⟩
      · refine Or.inl ⟨hlast, fun before hmem => ?_⟩
        rcases List.mem_append.mp hmem with hpast | hmark
        · exact hunmarked before hpast
        · have hsame := (List.mem_singleton.mp hmark).trans hevent
          cases hsame
          exact hkey hid
      · exact Or.inr ⟨before, List.mem_append_left _ hmarked, hlast⟩

theorem markedFrom_run {α : Type} (p : Program JobPorts α)
    {s : JobWorld × List (Event JobPorts)} (h : MarkedFrom env world s) :
    MarkedFrom env world (p.run (Handler.logged fun _ => env.handle) s).2 := by
  have hstep : ∀ request s, MarkedFrom env world s →
      MarkedFrom env world (Handler.logged (fun _ => env.handle) request s).2 :=
    fun request s hs => markedFrom_step request hs
  exact Program.run_keeps hstep p h

-- What one tick does for one search: it launches it at most once, at its own
-- reading and only if it is due, and then leaves it marked.
structure TickSpec (env : JobEnv) (world : JobWorld) (id : Uuid) (events : List (Event JobPorts))
    (next : JobWorld) : Prop where
  readings : world.readings < next.readings
  once : launchTimes id events = [] ∨ launchTimes id events = [env.clock world.readings] ∧
    ∃ search ∈ world.recurring, search.id = id ∧
      search.isDue (env.adapter.timestamp (env.clock world.readings)) = true
  marked : ∀ row ∈ next.recurring, row.id = id → ∃ search ∈ world.recurring, search.id = id ∧
    row.intervalMinutes = search.intervalMinutes ∧
      (row.lastRunAt = search.lastRunAt ∧ (MarksKept events → launchTimes id events = []) ∨
        row.lastRunAt = some (env.adapter.timestamp (env.clock world.readings)))

theorem countP_launchTimes {id : Uuid} {now : Int} {rest : List (Event JobPorts)} :
    (launchTimes id (⟨.utcNow, now⟩ :: rest)).length =
      (⟨.utcNow, now⟩ :: rest : List (Event JobPorts)).countP (isLaunch id) := by
  rw [launchTimes, List.length_map, List.countP_cons_of_neg (by simp [isLaunch]),
    List.countP_eq_length_filter]

theorem TickSpec.of_ticked {id : Uuid} {ids : List Uuid} {next : JobWorld}
    {rest events : List (Event JobPorts)}
    (hevents : events = ⟨.utcNow, env.clock world.readings⟩ :: rest)
    (hticked : Ticked (env.clock world.readings) ids events) (hids : ids.Nodup)
    (hdue : ∀ other ∈ ids, ∃ search ∈ world.recurring, search.id = other ∧
      search.isDue (env.adapter.timestamp (env.clock world.readings)) = true)
    (hmarked : MarkedFrom env { world with readings := world.readings + 1 } (next, events)) :
    TickSpec env world id events next := by
  have hlength : (launchTimes id events).length = events.countP (isLaunch id) := by
    rw [hevents]
    exact countP_launchTimes
  refine ⟨hmarked.1, ?_, ?_⟩
  · have hcount := (hticked.once id).trans (List.nodup_iff_count_le_one.mp hids id)
    by_cases hnone : events.countP (isLaunch id) = 0
    · exact Or.inl (List.eq_nil_of_length_eq_zero (hlength.trans hnone))
    · have hmem : id ∈ ids := by
        have hpos := hticked.once id
        exact List.count_pos_iff.mp (by omega)
      refine Or.inr ⟨?_, hdue id hmem⟩
      obtain ⟨time, htime⟩ := List.length_eq_one_iff.mp
        (hlength.trans (by omega : events.countP (isLaunch id) = 1))
      have hmem : time ∈ launchTimes id events := htime ▸ List.mem_singleton_self time
      rw [hevents, launchTimes] at hmem
      obtain ⟨-, -, rfl⟩ := List.mem_map.mp hmem
      exact htime
  · intro row hrow hid
    obtain ⟨search, hsearch, hsame, hinterval, hlast⟩ := hmarked.2 row hrow
    have hsid : search.id = id := hsame.symm.trans hid
    refine ⟨search, hsearch, hsid, hinterval, ?_⟩
    rcases hlast with ⟨hlast, hunmarked⟩ | ⟨at_, hmark, hlast⟩
    · refine Or.inl ⟨hlast, fun hkept => ?_⟩
      by_contra hlaunched
      have hpos : 0 < events.countP (isLaunch id) :=
        hlength ▸ List.length_pos_of_ne_nil hlaunched
      obtain ⟨event, hevent, hlaunch⟩ := List.countP_pos_iff.mp hpos
      obtain ⟨answer, hanswer⟩ := hticked.marked id ⟨event, hevent, hlaunch⟩
      cases answer with
      | ok _ => exact hunmarked _ (hsid ▸ hanswer)
      | error e =>
          have hfailed : id ∈ events.filterMap failedMark :=
            List.mem_filterMap.mpr ⟨_, hanswer, rfl⟩
          rw [hkept id hfailed event hevent] at hlaunch
          cases hlaunch
    · refine Or.inr (hlast.trans ?_)
      rw [hticked.marks _ _ _ hmark]

theorem handle_listDue (env : JobEnv) (world : JobWorld) (now : Int) :
    (∃ e, env.handle (.listDue now) world = (.error e, { world with calls := world.calls + 1 })) ∨
      env.handle (.listDue now) world =
        (.ok (world.recurring.rows.filter fun search => search.isDue (env.adapter.timestamp now)),
          { world with calls := world.calls + 1 }) := by
  simp only [handle, attempt]
  split
  · exact Or.inl ⟨_, rfl⟩
  · exact Or.inr rfl

theorem tick_spec (env : JobEnv) (dailyQuota : Nat) (world : JobWorld) (id : Uuid) :
    TickSpec env world id (env.tick dailyQuota world).1 (env.tick dailyQuota world).2 := by
  have hstart : Ticked (env.clock world.readings) []
      [⟨.utcNow, env.clock world.readings⟩] :=
    ⟨by simp, by simp [isLaunch], by simp [isLaunch]⟩
  have hfrom : ∀ answer : Except PortError (List RecurringSearch),
      MarkedFrom env { world with readings := world.readings + 1 }
        ({ world with readings := world.readings + 1, calls := world.calls + 1 },
          [⟨.utcNow, env.clock world.readings⟩, ⟨.listDue (env.clock world.readings), answer⟩]) :=
    fun answer => ⟨Nat.le_refl _, fun row hrow => ⟨row, hrow, rfl, rfl, Or.inl ⟨rfl, by simp⟩⟩⟩
  have hread : Handler.logged (fun _ => env.handle) .utcNow (world, []) =
      (env.clock world.readings, ({ world with readings := world.readings + 1 },
        [⟨.utcNow, env.clock world.readings⟩])) := rfl
  unfold tick
  rw [run_execute, Program.run_call, hread, Program.run_call]
  rcases handle_listDue env { world with readings := world.readings + 1 }
    (env.clock world.readings) with ⟨e, hlist⟩ | hlist
  · have hlisted : Handler.logged (fun _ => env.handle) (.listDue (env.clock world.readings))
        ({ world with readings := world.readings + 1 }, [⟨.utcNow, env.clock world.readings⟩]) =
        (.error e, ({ world with readings := world.readings + 1, calls := world.calls + 1 },
          [⟨.utcNow, env.clock world.readings⟩,
            ⟨.listDue (env.clock world.readings), .error e⟩])) := by
      simp only [Handler.logged, hlist]
      rfl
    dsimp only
    rw [hlisted]
    exact TickSpec.of_ticked rfl (hstart.other (.listDue _) rfl (.error e)) List.nodup_nil
      (by simp) (hfrom (.error e))
  · have hlisted : Handler.logged (fun _ => env.handle) (.listDue (env.clock world.readings))
        ({ world with readings := world.readings + 1 }, [⟨.utcNow, env.clock world.readings⟩]) =
        (.ok (world.recurring.rows.filter fun search =>
            search.isDue (env.adapter.timestamp (env.clock world.readings))),
          ({ world with readings := world.readings + 1, calls := world.calls + 1 },
          [⟨.utcNow, env.clock world.readings⟩,
            ⟨.listDue (env.clock world.readings), .ok (world.recurring.rows.filter fun search =>
              search.isDue (env.adapter.timestamp (env.clock world.readings)))⟩])) := by
      simp only [Handler.logged, hlist]
      rfl
    dsimp only
    rw [hlisted]
    dsimp only
    set due := world.recurring.rows.filter fun search =>
      search.isDue (env.adapter.timestamp (env.clock world.readings)) with hdue
    have hticked := (runAll_ticked dailyQuota due 0
      (hstart.other (.listDue (env.clock world.readings)) rfl (.ok due))).logged
        (fun _ => env.handle)
        { world with readings := world.readings + 1, calls := world.calls + 1 }
    have hextends := ((RunDueSearches.runAll dailyQuota (env.clock world.readings) due 0).run.ends_extends
      [⟨.utcNow, env.clock world.readings⟩, ⟨.listDue (env.clock world.readings), .ok due⟩]).logged
        (fun _ => env.handle)
        { world with readings := world.readings + 1, calls := world.calls + 1 }
    have hkeeps := markedFrom_run
      (RunDueSearches.runAll dailyQuota (env.clock world.readings) due 0).run (hfrom (.ok due))
    obtain ⟨rest, hrest⟩ := hextends
    refine TickSpec.of_ticked hrest.symm hticked ?_ ?_ hkeeps
    · exact world.recurring.nodup.sublist (List.filter_sublist.map _)
    · intro other hother
      obtain ⟨search, hsearch, rfl⟩ := List.mem_map.mp (by simpa using hother)
      obtain ⟨hstored, hisDue⟩ := List.mem_filter.mp hsearch
      exact ⟨search, hstored, rfl, hisDue⟩

end JobEnv

section Ticks

variable {env : JobEnv} {world : JobWorld} {search : RecurringSearch}

def launchesOf (id : Uuid) (log : List (List (Event JobPorts))) : List Int :=
  log.flatMap (launchTimes id)

-- Two launches are an interval apart by the times that the adapter keeps of them.
def SpacedBy (adapter : Adapter) (intervalMinutes : Nat) (first second : Int) : Prop :=
  adapter.timestamp first + Duration.minutes intervalMinutes ≤ adapter.timestamp second

instance (adapter : Adapter) (intervalMinutes : Nat) (first second : Int) :
    Decidable (SpacedBy adapter intervalMinutes first second) := inferInstanceAs (Decidable (_ ≤ _))

-- What holds after any number of ticks: the launches so far are an interval
-- apart, and the stored search is marked no earlier than the last of them.
structure Paced (env : JobEnv) (search : RecurringSearch)
    (s : List (List (Event JobPorts)) × JobWorld) : Prop where
  apart : (launchesOf search.id s.1).Pairwise (SpacedBy env.adapter search.intervalMinutes)
  read : ∀ time ∈ launchesOf search.id s.1, ∃ n < s.2.readings, time = env.clock n
  marked : ∀ row ∈ s.2.recurring, row.id = search.id →
    row.intervalMinutes = search.intervalMinutes ∧
      ∀ time ∈ launchesOf search.id s.1,
        ∃ last, row.lastRunAt = some last ∧ env.adapter.timestamp time ≤ last

theorem Paced.step (hclock : Monotone env.clock) (dailyQuota : Nat)
    {s : List (List (Event JobPorts)) × JobWorld} (h : Paced env search s)
    (hkept : MarksKept (env.tick dailyQuota s.2).1) :
    Paced env search (s.1 ++ [(env.tick dailyQuota s.2).1], (env.tick dailyQuota s.2).2) := by
  have htick := JobEnv.tick_spec env dailyQuota s.2 search.id
  have hlaunches : launchesOf search.id (s.1 ++ [(env.tick dailyQuota s.2).1]) =
      launchesOf search.id s.1 ++ launchTimes search.id (env.tick dailyQuota s.2).1 := by
    simp [launchesOf]
  have hbefore : ∀ time ∈ launchesOf search.id s.1, time ≤ env.clock s.2.readings := by
    intro time htime
    obtain ⟨n, hn, rfl⟩ := h.read time htime
    exact hclock (Nat.le_of_lt hn)
  refine ⟨?_, ?_, ?_⟩
  · rw [hlaunches, List.pairwise_append]
    refine ⟨h.apart, ?_, ?_⟩
    · rcases htick.once with hnone | ⟨hone, -⟩
      · simp [hnone]
      · simp [hone]
    · intro first hfirst second hsecond
      rcases htick.once with hnone | ⟨hone, row, hrow, hid, hisDue⟩
      · simp [hnone] at hsecond
      · obtain rfl : second = env.clock s.2.readings := by simpa [hone] using hsecond
        obtain ⟨hinterval, hlast⟩ := h.marked row hrow hid
        obtain ⟨last, hlast, hle⟩ := hlast first hfirst
        simp only [RecurringSearch.isDue, hlast, hinterval, decide_eq_true_eq] at hisDue
        unfold SpacedBy
        omega
  · intro time htime
    rw [hlaunches, List.mem_append] at htime
    rcases htime with hold | hnew
    · obtain ⟨n, hn, heq⟩ := h.read time hold
      exact ⟨n, hn.trans htick.readings, heq⟩
    · rcases htick.once with hnone | ⟨hone, -⟩
      · simp [hnone] at hnew
      · exact ⟨s.2.readings, htick.readings, by simpa [hone] using hnew⟩
  · intro row hrow hid
    obtain ⟨old, hold, holdid, hinterval, hlast⟩ := htick.marked row hrow hid
    obtain ⟨hsame, hmarked⟩ := h.marked old hold holdid
    refine ⟨hinterval.trans hsame, fun time htime => ?_⟩
    rw [hlaunches, List.mem_append] at htime
    rcases hlast with ⟨hlast, hnone⟩ | hlast
    · rw [hnone hkept] at htime
      obtain ⟨last, heq, hle⟩ := hmarked time (by simpa using htime)
      exact ⟨last, hlast.trans heq, hle⟩
    · refine ⟨env.adapter.timestamp (env.clock s.2.readings), hlast, timestamp_mono env.adapter ?_⟩
      rcases htime with hpast | hnew
      · exact hbefore time hpast
      · rcases htick.once with hnone | ⟨hone, -⟩
        · simp [hnone] at hnew
        · exact (by simpa [hone] using hnew : time = env.clock s.2.readings).le

-- In every run of ticks whose marks of a launched search succeed, two launches of
-- one search are at least its interval apart. A launch has the time that its tick
-- reads when it lists the due searches, as the adapter keeps it.
theorem launches_apart (dailyQuota : Nat) (hclock : Monotone env.clock)
    (hsearch : search ∈ world.recurring) (n : Nat)
    (hkept : ∀ events ∈ (env.ticks dailyQuota world n).1, MarksKept events) :
    (launchesOf search.id (env.ticks dailyQuota world n).1).Pairwise
      (SpacedBy env.adapter search.intervalMinutes) := by
  suffices hpaced : Paced env search (env.ticks dailyQuota world n) from hpaced.apart
  induction n with
  | zero =>
      refine ⟨List.Pairwise.nil, by simp [JobEnv.ticks, launchesOf], ?_⟩
      intro row hrow hid
      obtain rfl := world.recurring.eq_of_key hrow hsearch hid
      exact ⟨rfl, by simp [JobEnv.ticks, launchesOf]⟩
  | succ n ih =>
      have hbefore := ih fun events hevents => hkept events (List.mem_append_left _ hevents)
      exact hbefore.step hclock dailyQuota (hkept _ (by simp [JobEnv.ticks]))

end Ticks

-- One search, due every hour, and a tick a minute.
namespace Sample

def recurring : RecurringSearch where
  id := ⟨"c7d1e5a9-0b42-4f68-9d3c-6e8f70a1b254"⟩
  userId := visitor
  keyword := "lean"
  mode := .workflow
  intervalMinutes := 60
  webhookUrl := none
  createdAt := 1767225600000000000
  lastRunAt := none

def scheduled : JobWorld := { world with recurring := Table.empty.insert recurring }

def minutely (fault : Nat → Option PortError) : JobEnv where
  adapter := .inMemory
  collates a b := a ≤ b
  clock n := 1767225660000000000 + Duration.seconds 30 * n
  uuid := uuid
  fault := fault

end Sample

-- The first mark is lost after the dispatch: the search is launched again a
-- minute later.
theorem launched_twice :
    let times := launchesOf Sample.recurring.id
      ((Sample.minutely fun n => if n = 5 then some ⟨"database error: timeout"⟩ else none).ticks 20
        Sample.scheduled 2).1
    times = [1767225660000000000, 1767225660000000000 + Duration.minutes 1] ∧
      ¬ times.Pairwise fun first second =>
        first + Duration.minutes Sample.recurring.intervalMinutes ≤ second := by
  decide +kernel

-- Ticks that launch again, in memory and in a database that cuts each reading.
theorem launches_apart_two_ticks :
    let rarely (adapter : Adapter) : JobEnv :=
      { Sample.minutely fun _ => none with
        adapter := adapter
        clock := fun n => 1767225660000000417 + Duration.minutes 31 * n }
    ∀ adapter ∈ [Adapter.inMemory, .postgres],
      let times := launchesOf Sample.recurring.id ((rarely adapter).ticks 20 Sample.scheduled 3).1
      times.length = 3 ∧ times.Pairwise (SpacedBy adapter 60) := by
  intro rarely adapter hadapter times
  have hclock : Monotone (rarely adapter).clock := by
    intro n m hle
    simp only [rarely, Duration.minutes, Duration.seconds]
    omega
  have hstored : Sample.recurring ∈ Sample.scheduled.recurring := List.mem_singleton_self _
  have hruns : times.length = 3 ∧
      ∀ events ∈ ((rarely adapter).ticks 20 Sample.scheduled 3).1, MarksKept events := by
    simp only [List.mem_cons, List.not_mem_nil, or_false] at hadapter
    rcases hadapter with rfl | rfl <;> decide +kernel
  exact ⟨hruns.1, launches_apart 20 hclock hstored 3 hruns.2⟩

end AgentBoilerplate.Job
