import AgentBoilerplate.Job.Lemmas

namespace AgentBoilerplate.Job

open Effects Collections

-- `RecurringSearch::new` accepts the keyword and stores it trimmed.
def RecurringSearch.ValidKeyword (search : RecurringSearch) : Prop :=
  trim search.keyword = search.keyword ∧ search.keyword.isEmpty = false ∧
    search.keyword.length ≤ maxKeywordLen

-- No repository fails; `refuses` says which dispatches do.
def JobEnv.dispatching (env : JobEnv) (refuses : Nat → Option PortError) :
    Handler JobPorts JobWorld
  | .dispatch job seenUrls, world =>
      { env with fault := refuses }.handle (.dispatch job seenUrls) world
  | request, world => { env with fault := fun _ => none }.handle request world

-- What a job counts for in the quota of its owner.
def createdSince (adapter : Adapter) (userId : Uuid) (since : Int) (row : ResearchJob) : Bool :=
  row.userId = userId ∧ adapter.timestamp since ≤ row.createdAt

theorem countCreatedSince_eq (adapter : Adapter) (jobs : Jobs) (userId : Uuid) (since : Int) :
    jobs.countCreatedSince adapter userId since =
      jobs.rows.countP (createdSince adapter userId since) := by
  cases adapter <;> rfl

namespace Jobs

variable {jobs : Jobs} {job : ResearchJob}

theorem insert_new (hfresh : ∀ row ∈ jobs, row.id ≠ job.id) (husage : job.usage = {})
    (adapter : Adapter) : jobs.insert adapter job = (.ok (), Table.insert jobs job) := by
  cases adapter with
  | inMemory => rfl
  | postgres =>
      have hany : ∀ row ∈ jobs.rows, row.id ≠ job.id := hfresh
      have hsame : { job with usage := {} } = job := by
        rw [← husage]
      simp [insert, hsame]
      exact hany

theorem fail_id (job : ResearchJob) (clock : Int) (error : String) :
    (job.fail clock error).id = job.id := by
  unfold ResearchJob.fail
  split <;> rfl

-- An update of the row that has just been inserted.
theorem update_new (hfresh : ∀ row ∈ jobs, row.id ≠ job.id) (adapter : Adapter) (clock : Int)
    (error : String) :
    Jobs.update adapter (Table.insert jobs job) (job.fail clock error) =
      Table.insert jobs (job.fail clock error) := by
  have hid := fail_id job clock error
  cases adapter with
  | inMemory =>
      have hget : (Table.insert jobs job).get (job.fail clock error).id = some job := by
        rw [Table.get_insert, if_pos hid]
      have husage : (job.fail clock error).usage = job.usage := by
        unfold ResearchJob.fail
        split <;> rfl
      have hsame : { job.fail clock error with
          usage := (((Table.insert jobs job).get (job.fail clock error).id).map
            ResearchJob.usage).getD (job.fail clock error).usage } = job.fail clock error := by
        rw [hget, Option.map_some, Option.getD_some, ← husage]
      rw [update, hsame]
      exact Table.insert_insert jobs hid
  | postgres =>
      apply Table.ext_rows
      have hfailed : ∀ row ∈ jobs, row.id ≠ (job.fail clock error).id := by
        rw [hid]
        exact hfresh
      rw [Table.rows_insert_fresh hfailed]
      simp only [update, Table.modify, Table.rows_insert_fresh hfresh, List.map_append,
        List.map_cons, List.map_nil]
      congr 1
      · exact (List.map_congr_left fun row hrow => if_neg (hfailed row hrow)).trans (List.map_id _)
      · rw [if_pos hid.symm]
        unfold ResearchJob.fail
        split <;> rfl

end Jobs

-- The job that a due search launches, as it is inserted.
def RecurringSearch.job (search : RecurringSearch) (id : Uuid) (clock : Int) : ResearchJob where
  id := id
  userId := search.userId
  keyword := search.keyword
  mode := search.mode
  status := .pending
  error := none
  question := none
  answer := none
  recurringSearchId := some search.id
  usage := {}
  createdAt := truncSubsecs6 clock
  completedAt := none

section RunOne

variable {search : RecurringSearch}

theorem RecurringSearch.ValidKeyword.new (h : search.ValidKeyword) (id : Uuid) (clock : Int) :
    ∃ job, ResearchJob.new id clock search.userId search.keyword = .ok job ∧
      (job.withMode search.mode).withRecurring search.id = search.job id clock := by
  obtain ⟨htrim, hnonempty, hlength⟩ := h
  refine ⟨{ search.job id clock with mode := .workflow, recurringSearchId := none }, ?_, rfl⟩
  unfold ResearchJob.new
  rw [htrim]
  dsimp only
  rw [hnonempty, if_neg (by decide), if_neg (by omega)]
  rfl

-- How a run ends once its job is dispatched.
def finish (now : Int) (search : RecurringSearch) (job : ResearchJob) :
    Except PortError Unit → UseCase PortError Nat
  | .ok () => do
      orFail id (ask (.markRan search.id now))
      return 1
  | .error e => do
      let job ← job.failNow s!"dispatch failed: {e.message}"
      orFail id (ask (.update job))
      orFail id (ask (.markRan search.id now))
      return 0

theorem run_finish_ok (now : Int) (search : RecurringSearch) (job : ResearchJob) :
    (finish now search job (.ok ())).run = .call (.markRan search.id now) fun
      | .error e => .done (.error e)
      | .ok () => .done (.ok 1) := by
  simp only [finish, Fallible.run_orFail_bind, ask, Program.call_bind, Program.done_bind]
  congr 1
  funext answer
  rcases answer with e | _ <;> rfl

theorem run_finish_error (now : Int) (search : RecurringSearch) {job : ResearchJob} (e : PortError)
    (hpending : job.status = .pending) :
    (finish now search job (.error e)).run = .call .utcNow fun clock =>
      .call (.update (job.fail clock s!"dispatch failed: {e.message}")) fun
        | .error e => .done (.error e)
        | .ok () => .call (.markRan search.id now) fun
            | .error e => .done (.error e)
            | .ok () => .done (.ok 0) := by
  have hopen : job.status ≠ .completed := by simp [hpending]
  simp only [finish, ResearchJob.failNow, if_neg hopen, Fallible.run_lift_bind,
    Fallible.run_orFail_bind, ask, Program.call_bind, Program.done_bind, Program.pure_eq]
  congr 1
  funext clock
  congr 1
  funext answer
  rcases answer with e | _
  · rfl
  dsimp only
  congr 1
  funext answer
  rcases answer with e | _ <;> rfl

theorem run_runOne (h : search.ValidKeyword) (dailyQuota : Nat) (now : Int) :
    (RunDueSearches.runOne dailyQuota now search).run =
      .call (.countCreatedSince search.userId (now - Duration.hours 24)) fun
        | .error e => .done (.error e)
        | .ok used =>
            if used ≥ dailyQuota then .call (.markRan search.id now) fun
              | .error e => .done (.error e)
              | .ok () => .done (.ok 0)
            else .call (.recentUrlsForRecurring search.id seenUrlsLimit) fun
              | .error e => .done (.error e)
              | .ok seenUrls => .call .newUuid fun id => .call .utcNow fun clock =>
                  .call (.insert (search.job id clock)) fun
                    | .error e => .done (.error e)
                    | .ok () => .call (.dispatch (search.job id clock) seenUrls) fun answer =>
                        (finish now search (search.job id clock) answer).run := by
  unfold RunDueSearches.runOne
  simp only [Fallible.run_orFail_bind, ask, Program.call_bind, Program.done_bind, id_eq]
  congr 1
  funext answer
  rcases answer with e | used
  · rfl
  dsimp only
  split
  · simp only [Fallible.run_orFail_bind, Program.call_bind, Program.done_bind]
    congr 1
    funext answer
    rcases answer with e | _ <;> rfl
  simp only [Fallible.run_orFail_bind, Fallible.run_lift_bind, Program.call_bind,
    Program.done_bind]
  congr 1
  funext answer
  rcases answer with e | seenUrls
  · rfl
  dsimp only
  have hlength : ¬ (trim search.keyword).length > maxKeywordLen := by
    rw [h.1]
    exact Nat.not_lt.mpr h.2.2
  rw [newNow_bind, h.1, h.2.1, if_neg (by decide), if_neg (h.1 ▸ hlength)]
  congr 1
  funext id
  congr 1
  funext clock
  obtain ⟨job, hnew, hjob⟩ := h.new id clock
  rw [hnew]
  dsimp only
  rw [hjob]
  congr 1
  funext answer
  rcases answer with e | _
  · rfl
  · rfl

variable {env : JobEnv} {refuses : Nat → Option PortError} {world : JobWorld} {dailyQuota : Nat}
  {now : Int}

theorem runOne_skipped (h : search.ValidKeyword)
    (hused : dailyQuota ≤
      world.jobs.countCreatedSince env.adapter search.userId (now - Duration.hours 24)) :
    (RunDueSearches.runOne dailyQuota now search).run.run (env.dispatching refuses) world =
      (.ok 0, { world with
        recurring := world.recurring.modify search.id fun s => s.markRan (env.adapter.timestamp now)
        calls := world.calls + 2 }) := by
  rw [run_runOne h]
  simp [JobEnv.dispatching, JobEnv.handle, JobEnv.attempt, hused]

section Launched

variable (h : search.ValidKeyword)
  (hused : world.jobs.countCreatedSince env.adapter search.userId (now - Duration.hours 24) <
    dailyQuota)
  (hfresh : ∀ row ∈ world.jobs, row.id ≠ env.uuid world.uuids)
include h hused hfresh

theorem runOne_accepted (haccepts : refuses (world.calls + 3) = none) :
    (RunDueSearches.runOne dailyQuota now search).run.run (env.dispatching refuses) world =
      (.ok 1, { world with
        jobs := Table.insert world.jobs
          (search.job (env.uuid world.uuids) (env.clock world.readings))
        recurring := world.recurring.modify search.id fun s => s.markRan (env.adapter.timestamp now)
        dispatched := world.dispatched ++
          [(search.job (env.uuid world.uuids) (env.clock world.readings),
            recentUrlsForRecurring env.adapter env.collates world.jobs world.results search.id
              seenUrlsLimit)]
        calls := world.calls + 5
        readings := world.readings + 1
        uuids := world.uuids + 1 }) := by
  rw [run_runOne h]
  obtain ⟨job, hjob⟩ : ∃ job, search.job (env.uuid world.uuids) (env.clock world.readings) = job :=
    ⟨_, rfl⟩
  have hid : job.id = env.uuid world.uuids := by rw [← hjob]; rfl
  have hinsert := Jobs.insert_new (hid.symm ▸ hfresh) (by rw [← hjob]; rfl) env.adapter
  have hused := Nat.not_le.mpr hused
  simp [JobEnv.dispatching, JobEnv.handle, JobEnv.attempt, hused, hjob, hinsert, haccepts,
    run_finish_ok]

theorem runOne_refused {e : PortError} (hrefuses : refuses (world.calls + 3) = some e) :
    (RunDueSearches.runOne dailyQuota now search).run.run (env.dispatching refuses) world =
      (.ok 0, { world with
        jobs := Table.insert world.jobs
          ((search.job (env.uuid world.uuids) (env.clock world.readings)).fail
            (env.clock (world.readings + 1)) s!"dispatch failed: {e.message}")
        recurring := world.recurring.modify search.id fun s => s.markRan (env.adapter.timestamp now)
        calls := world.calls + 6
        readings := world.readings + 2
        uuids := world.uuids + 1 }) := by
  rw [run_runOne h]
  obtain ⟨job, hjob⟩ : ∃ job, search.job (env.uuid world.uuids) (env.clock world.readings) = job :=
    ⟨_, rfl⟩
  have hid : job.id = env.uuid world.uuids := by rw [← hjob]; rfl
  have hpending : job.status = .pending := by rw [← hjob]; rfl
  have hfresh : ∀ row ∈ world.jobs, row.id ≠ job.id := hid.symm ▸ hfresh
  have hinsert := Jobs.insert_new hfresh (by rw [← hjob]; rfl) env.adapter
  have hupdate := Jobs.update_new hfresh env.adapter (env.clock (world.readings + 1))
    s!"dispatch failed: {e.message}"
  have hused := Nat.not_le.mpr hused
  simp [JobEnv.dispatching, JobEnv.handle, JobEnv.attempt, hused, hjob, hinsert, hrefuses,
    run_finish_error now search e hpending]
  exact hupdate

end Launched

end RunOne

-- One launch of a tick: its search, its job as the tick leaves it, and whether
-- the dispatch succeeded.
structure Launch where
  search : RecurringSearch
  job : ResearchJob
  dispatched : Bool

-- The job is linked to its search; it is pending if its dispatch succeeded.
structure Launch.Linked (launch : Launch) : Prop where
  recurring : launch.job.recurringSearchId = some launch.search.id
  owner : launch.job.userId = launch.search.userId
  keyword : launch.job.keyword = launch.search.keyword
  mode : launch.job.mode = launch.search.mode
  status : launch.job.status = if launch.dispatched then .pending else .failed

-- What the owner of a search has used when its turn comes: the jobs of the last
-- 24 hours, those launched for the searches `before` it included.
def usedAt (env : JobEnv) (world : JobWorld) (now : Int) (launches : List Launch)
    (before : List RecurringSearch) (search : RecurringSearch) : Nat :=
  (world.jobs.rows ++ (launches.filter fun launch => launch.search ∈ before).map Launch.job).countP
    (createdSince env.adapter search.userId (now - Duration.hours 24))

-- What a tick has done once it has handled the searches `handled`.
structure Ran (env : JobEnv) (first : JobWorld) (now : Int) (dailyQuota : Nat)
    (handled : List RecurringSearch) (launches : List Launch) (world : JobWorld) : Prop where
  searches : (launches.map Launch.search).Sublist handled
  linked : ∀ launch ∈ launches, launch.Linked
  launched : ∀ before search after, handled = before ++ search :: after →
    (search ∈ launches.map Launch.search ↔
      usedAt env first now launches before search < dailyQuota)
  jobs : world.jobs.rows = first.jobs.rows ++ launches.map Launch.job
  dispatched : ∃ handed : List (ResearchJob × List String),
    world.dispatched = first.dispatched ++ handed ∧
      handed.map Prod.fst = (launches.filter Launch.dispatched).map Launch.job
  recurring : world.recurring.rows = first.recurring.rows.map fun search =>
    if search ∈ handled then search.markRan (env.adapter.timestamp now) else search
  fresh : ∀ row ∈ world.jobs, ∀ n, world.uuids ≤ n → row.id ≠ env.uuid n

section Loop

variable {env : JobEnv} {first world : JobWorld}
  {dailyQuota : Nat} {now : Int} {handled : List RecurringSearch} {launches : List Launch}
  {search : RecurringSearch}

theorem usedAt_append {before : List RecurringSearch} {new : List Launch}
    (h : ∀ launch ∈ new, launch.search ∉ before) :
    usedAt env first now (launches ++ new) before search =
      usedAt env first now launches before search := by
  have hnone : new.filter (fun launch => launch.search ∈ before) = [] :=
    List.filter_eq_nil_iff.mpr fun launch hlaunch => by simpa using h launch hlaunch
  rw [usedAt, usedAt, List.filter_append, hnone, List.append_nil]

-- At its own turn, all that the tick has launched came before.
theorem Ran.usedAt_turn (h : Ran env first now dailyQuota handled launches world) :
    usedAt env first now launches handled search =
      world.jobs.countCreatedSince env.adapter search.userId (now - Duration.hours 24) := by
  have hall : launches.filter (fun launch => launch.search ∈ handled) = launches :=
    List.filter_eq_self.mpr fun launch hlaunch => by
      simpa using h.searches.subset (List.mem_map_of_mem hlaunch)
  rw [usedAt, hall, countCreatedSince_eq, h.jobs]

theorem Ran.launched_step (h : Ran env first now dailyQuota handled launches world)
    (hnew : search ∉ handled) (new : List Launch) (hof : ∀ launch ∈ new, launch.search = search)
    (hturn : new ≠ [] ↔
      world.jobs.countCreatedSince env.adapter search.userId (now - Duration.hours 24) < dailyQuota)
    (before : List RecurringSearch) (other : RecurringSearch) (after : List RecurringSearch)
    (hsplit : handled ++ [search] = before ++ other :: after) :
    other ∈ (launches ++ new).map Launch.search ↔
      usedAt env first now (launches ++ new) before other < dailyQuota := by
  have hbefore : ∀ earlier : List RecurringSearch, (∀ s ∈ earlier, s ∈ handled) →
      ∀ launch ∈ new, launch.search ∉ earlier := by
    intro earlier hearlier launch hlaunch hmem
    exact hnew (hof launch hlaunch ▸ hearlier _ hmem)
  rcases List.eq_nil_or_concat after with rfl | ⟨rest, last, rfl⟩
  · -- the turn of the search itself
    obtain ⟨rfl, hlast⟩ := List.append_inj' hsplit rfl
    obtain rfl : search = other := List.singleton_inj.mp hlast
    rw [usedAt_append (hbefore handled fun _ hs => hs), h.usedAt_turn, ← hturn]
    constructor
    · intro hmem hempty
      rw [hempty, List.append_nil] at hmem
      exact hnew (h.searches.subset hmem)
    · intro hne
      obtain ⟨launch, hlaunch⟩ := List.exists_mem_of_ne_nil new hne
      exact List.mem_map.mpr ⟨launch, List.mem_append_right _ hlaunch, hof launch hlaunch⟩
  · -- an earlier turn
    have hinit : handled = before ++ other :: rest := by
      have hconcat : handled ++ [search] = (before ++ other :: rest) ++ [last] := by
        simpa using hsplit
      exact (List.append_inj' hconcat rfl).1
    have hother : other ∈ handled := by simp [hinit]
    have hold := h.launched before other rest hinit
    rw [usedAt_append (hbefore before fun s hs => by simp [hinit, hs]), ← hold, List.map_append,
      List.mem_append]
    refine ⟨fun hmem => hmem.resolve_right fun hmem => ?_, Or.inl⟩
    obtain ⟨launch, hlaunch, rfl⟩ := List.mem_map.mp hmem
    exact hnew (hof launch hlaunch ▸ hother)

theorem Ran.recurring_step (h : Ran env first now dailyQuota handled launches world)
    (hsearch : search ∈ first.recurring) :
    (world.recurring.modify search.id fun s => s.markRan (env.adapter.timestamp now)).rows =
      first.recurring.rows.map fun s =>
        if s ∈ handled ++ [search] then s.markRan (env.adapter.timestamp now) else s := by
  simp only [Table.modify, h.recurring, List.map_map]
  refine List.map_congr_left fun s hs => ?_
  have hid : (if s ∈ handled then s.markRan (env.adapter.timestamp now) else s).id = s.id := by
    split <;> rfl
  simp only [Function.comp_apply, hid, List.mem_append, List.mem_singleton]
  by_cases hsame : s.id = search.id
  · obtain rfl : s = search := first.recurring.eq_of_key hs hsearch hsame
    simp only [if_true, or_true]
    split <;> rfl
  · have hne : s ≠ search := fun heq => hsame (congrArg RecurringSearch.id heq)
    simp [hsame, hne]

theorem Ran.skip (h : Ran env first now dailyQuota handled launches world)
    (hsearch : search ∈ first.recurring) (hnew : search ∉ handled)
    (hused : dailyQuota ≤
      world.jobs.countCreatedSince env.adapter search.userId (now - Duration.hours 24))
    {later : JobWorld} (hjobs : later.jobs = world.jobs)
    (hdispatched : later.dispatched = world.dispatched)
    (hrecurring : later.recurring =
      world.recurring.modify search.id fun s => s.markRan (env.adapter.timestamp now))
    (huuids : later.uuids = world.uuids) :
    Ran env first now dailyQuota (handled ++ [search]) launches later where
  searches := h.searches.trans (List.sublist_append_left _ _)
  linked := h.linked
  launched before other after hsplit := by
    have hturn := h.launched_step hnew [] (by simp) (by simpa using hused) before other after hsplit
    simpa using hturn
  jobs := by rw [hjobs, h.jobs]
  dispatched := by
    rw [hdispatched]
    exact h.dispatched
  recurring := by rw [hrecurring, h.recurring_step hsearch]
  fresh := by
    rw [hjobs, huuids]
    exact h.fresh

theorem Ran.launch (h : Ran env first now dailyQuota handled launches world)
    (hsearch : search ∈ first.recurring) (hnew : search ∉ handled)
    (hinjective : Function.Injective env.uuid)
    (hused : world.jobs.countCreatedSince env.adapter search.userId (now - Duration.hours 24) <
      dailyQuota)
    {launch : Launch} (hof : launch.search = search) (hlinked : launch.Linked)
    (hid : launch.job.id = env.uuid world.uuids) {later : JobWorld}
    (hjobs : later.jobs = Table.insert world.jobs launch.job)
    {handed : List (ResearchJob × List String)}
    (hdispatched : later.dispatched = world.dispatched ++ handed)
    (hhanded : handed.map Prod.fst = if launch.dispatched then [launch.job] else [])
    (hrecurring : later.recurring =
      world.recurring.modify search.id fun s => s.markRan (env.adapter.timestamp now))
    (huuids : later.uuids = world.uuids + 1) :
    Ran env first now dailyQuota (handled ++ [search]) (launches ++ [launch]) later where
  searches := by
    rw [List.map_append, List.map_singleton, hof]
    exact h.searches.append (List.Sublist.refl _)
  linked other hother := by
    rcases List.mem_append.mp hother with hold | hlast
    · exact h.linked other hold
    · rw [List.mem_singleton.mp hlast]
      exact hlinked
  launched before other after hsplit := by
    refine h.launched_step hnew [launch] ?_ ?_ before other after hsplit
    · intro other hother
      rw [List.mem_singleton.mp hother, hof]
    · exact iff_of_true (List.cons_ne_nil _ _) hused
  jobs := by
    have hfresh : ∀ row ∈ world.jobs, row.id ≠ launch.job.id := by
      intro row hrow
      rw [hid]
      exact h.fresh row hrow _ (Nat.le_refl _)
    rw [hjobs, Table.rows_insert_fresh hfresh, h.jobs, List.map_append, List.append_assoc]
    rfl
  dispatched := by
    obtain ⟨before, hbefore, hmap⟩ := h.dispatched
    refine ⟨before ++ handed, ?_, ?_⟩
    · rw [hdispatched, hbefore, List.append_assoc]
    · rw [List.map_append, hmap, hhanded, List.filter_append, List.map_append]
      cases hkind : launch.dispatched <;> simp [hkind]
  recurring := by rw [hrecurring, h.recurring_step hsearch]
  fresh row hrow n hn := by
    rw [hjobs] at hrow
    rw [huuids] at hn
    rcases (Table.mem_insert _ _ _).mp hrow with rfl | ⟨hold, -⟩
    · rw [hid]
      exact fun heq => absurd (hinjective heq) (by omega)
    · exact h.fresh row hold n (by omega)

theorem runOne_ran (refuses : Nat → Option PortError) (h : Ran env first now dailyQuota handled launches world)
    (hsearch : search ∈ first.recurring) (hvalid : search.ValidKeyword) (hnew : search ∉ handled)
    (hinjective : Function.Injective env.uuid) :
    ∃ new : List Launch,
      ((RunDueSearches.runOne dailyQuota now search).run.run (env.dispatching refuses) world).1 =
        .ok (new.countP Launch.dispatched) ∧
      Ran env first now dailyQuota (handled ++ [search]) (launches ++ new)
        ((RunDueSearches.runOne dailyQuota now search).run.run (env.dispatching refuses) world).2 := by
  by_cases hused : dailyQuota ≤
    world.jobs.countCreatedSince env.adapter search.userId (now - Duration.hours 24)
  · refine ⟨[], ?_⟩
    rw [runOne_skipped hvalid hused, List.append_nil]
    exact ⟨rfl, h.skip hsearch hnew hused rfl rfl rfl rfl⟩
  have hused := Nat.lt_of_not_le hused
  have hfresh : ∀ row ∈ world.jobs, row.id ≠ env.uuid world.uuids :=
    fun row hrow => h.fresh row hrow _ (Nat.le_refl _)
  cases hrefuses : refuses (world.calls + 3) with
  | none =>
      refine ⟨[⟨search, search.job (env.uuid world.uuids) (env.clock world.readings), true⟩], ?_⟩
      rw [runOne_accepted hvalid hused hfresh hrefuses]
      exact ⟨rfl, h.launch hsearch hnew hinjective hused rfl ⟨rfl, rfl, rfl, rfl, rfl⟩ rfl rfl rfl rfl
        rfl rfl⟩
  | some e =>
      refine ⟨[⟨search, (search.job (env.uuid world.uuids) (env.clock world.readings)).fail
        (env.clock (world.readings + 1)) s!"dispatch failed: {e.message}", false⟩], ?_⟩
      rw [runOne_refused hvalid hused hfresh hrefuses]
      exact ⟨rfl, h.launch hsearch hnew hinjective hused rfl ⟨rfl, rfl, rfl, rfl, rfl⟩ rfl rfl
        (List.append_nil _).symm rfl rfl rfl⟩

theorem runAll_ran (refuses : Nat → Option PortError) (hinjective : Function.Injective env.uuid) (due : List RecurringSearch)
    (count : Nat) (h : Ran env first now dailyQuota handled launches world)
    (hdue : ∀ search ∈ due, search ∈ first.recurring ∧ search.ValidKeyword)
    (hnodup : (handled ++ due).Nodup) :
    ∃ new : List Launch,
      ((RunDueSearches.runAll dailyQuota now due count).run.run (env.dispatching refuses) world).1 =
        .ok (count + new.countP Launch.dispatched) ∧
      Ran env first now dailyQuota (handled ++ due) (launches ++ new)
        ((RunDueSearches.runAll dailyQuota now due count).run.run (env.dispatching refuses) world).2 := by
  induction due generalizing handled launches world count with
  | nil =>
      refine ⟨[], rfl, ?_⟩
      rw [List.append_nil, List.append_nil]
      exact h
  | cons search due ih =>
      obtain ⟨hsearch, hvalid⟩ := hdue search List.mem_cons_self
      have hnew : search ∉ handled := by
        intro hmem
        exact (List.nodup_append.mp hnodup).2.2 search hmem search List.mem_cons_self rfl
      obtain ⟨one, hone, hran⟩ := runOne_ran refuses h hsearch hvalid hnew hinjective
      have hrest : (handled ++ [search] ++ due).Nodup := by
        rwa [List.append_assoc, List.singleton_append]
      obtain ⟨new, hok, hend⟩ := ih (count + one.countP Launch.dispatched) hran
        (fun other hother => hdue other (List.mem_cons_of_mem _ hother)) hrest
      refine ⟨one ++ new, ?_, ?_⟩
      · rw [RunDueSearches.runAll, ExceptT.run_bind, Program.run_bind, hone]
        refine hok.trans ?_
        rw [List.countP_append, Nat.add_assoc]
      · rw [RunDueSearches.runAll, ExceptT.run_bind, Program.run_bind, hone]
        rw [List.append_assoc, List.append_assoc, List.singleton_append] at hend
        exact hend

theorem RecurringSearch.not_due_again (search : RecurringSearch) {at_ t : Int}
    (h : t < at_ + Duration.minutes search.intervalMinutes) :
    (search.markRan at_).isDue t = false := by
  have hearly : ¬ at_ + Duration.minutes search.intervalMinutes ≤ t := by omega
  simp [RecurringSearch.isDue, RecurringSearch.markRan, hearly]

-- One tick. Every due search is marked as ran at the tick's reading and is not
-- due again before its interval has passed; each launches one job exactly if
-- its owner has quota left at its turn; and nothing else is changed.
theorem execute_ran (env : JobEnv) (refuses : Nat → Option PortError) (dailyQuota : Nat)
    (world : JobWorld) (hvalid : ∀ search ∈ world.recurring, search.ValidKeyword)
    (hinjective : Function.Injective env.uuid)
    (hfresh : ∀ row ∈ world.jobs, ∀ n, row.id ≠ env.uuid n) :
    let now := env.clock world.readings
    let due := world.recurring.rows.filter fun search => search.isDue (env.adapter.timestamp now)
    let ran := (RunDueSearches.execute dailyQuota).run.run (env.dispatching refuses) world
    ∃ launches : List Launch,
      ran.1 = .ok (launches.countP Launch.dispatched) ∧
      Ran env world now dailyQuota due launches ran.2 ∧
      ∀ search ∈ due, search.markRan (env.adapter.timestamp now) ∈ ran.2.recurring ∧
        ∀ t, env.adapter.timestamp t <
            env.adapter.timestamp now + Duration.minutes search.intervalMinutes →
          (search.markRan (env.adapter.timestamp now)).isDue (env.adapter.timestamp t) = false := by
  intro now due ran
  have hstart : Ran env world now dailyQuota [] []
      { world with readings := world.readings + 1, calls := world.calls + 1 } :=
    { searches := List.Sublist.refl _
      linked := fun _ h => by cases h
      launched := fun before _ _ h => by simp at h
      jobs := (List.append_nil _).symm
      dispatched := ⟨[], (List.append_nil _).symm, rfl⟩
      recurring := by simp
      fresh := fun row hrow n _ => hfresh row hrow n }
  have hdue : ∀ search ∈ due, search ∈ world.recurring ∧ search.ValidKeyword := fun search hmem =>
    have hstored := List.mem_of_mem_filter hmem
    ⟨hstored, hvalid search hstored⟩
  have hnodup : due.Nodup := (List.Nodup.of_map _ world.recurring.nodup).filter _
  obtain ⟨launches, hcount, hran⟩ := runAll_ran refuses hinjective due 0 hstart hdue hnodup
  have hexecute : ran = (RunDueSearches.runAll dailyQuota now due 0).run.run
      (env.dispatching refuses)
      { world with readings := world.readings + 1, calls := world.calls + 1 } := by
    simp only [ran, run_execute, Program.run_call, JobEnv.dispatching, JobEnv.handle, JobEnv.attempt]
    rfl
  rw [← hexecute, List.nil_append] at hran
  refine ⟨launches, ?_, hran, fun search hmem => ⟨?_, fun t ht => search.not_due_again ht⟩⟩
  · rw [hexecute, hcount, Nat.zero_add]
  · rw [Table.mem_def, hran.recurring]
    exact List.mem_map.mpr ⟨search, (hdue search hmem).1, if_pos hmem⟩

end Loop

-- Two hourly searches are due, and their owner has used one of two.
namespace Sample

def tick : JobWorld :=
  { world with
    recurring := (Table.empty.insert hourly).insert { hourly with id := uuid 99 } }

end Sample

-- The first takes what is left of the quota, and the second is passed over.
theorem execute_ran_hourly :
    ∃ launches : List Launch, launches.length = 1 ∧ launches.countP Launch.dispatched = 1 ∧
      Ran (Sample.env .postgres) Sample.tick (Sample.clock 0) 2
        [Sample.hourly, { Sample.hourly with id := Sample.uuid 99 }] launches
        ((RunDueSearches.execute 2).run.run ((Sample.env .postgres).dispatching fun _ => none)
          Sample.tick).2 := by
  have hvalid : ∀ search ∈ Sample.tick.recurring, search.ValidKeyword := by
    intro search hsearch
    have hsearch : search ∈ [Sample.hourly, { Sample.hourly with id := Sample.uuid 99 }] := hsearch
    simp only [List.mem_cons, List.not_mem_nil, or_false] at hsearch
    rcases hsearch with rfl | rfl <;> exact ⟨by rfl, by rfl, by decide +kernel⟩
  have hfresh : ∀ row ∈ Sample.tick.jobs, ∀ n, row.id ≠ (Sample.env .postgres).uuid n := by
    intro row hrow n
    obtain rfl : row = Sample.job := List.mem_singleton.mp hrow
    exact Sample.job_id_ne_uuid n
  obtain ⟨launches, hcount, hran, -⟩ := execute_ran (Sample.env .postgres) (fun _ => none) 2
    Sample.tick hvalid Sample.uuid_injective hfresh
  have hran : Ran (Sample.env .postgres) Sample.tick (Sample.clock 0) 2
    [Sample.hourly, { Sample.hourly with id := Sample.uuid 99 }] launches
    ((RunDueSearches.execute 2).run.run ((Sample.env .postgres).dispatching fun _ => none)
      Sample.tick).2 := hran
  have hone : ((RunDueSearches.execute 2).run.run ((Sample.env .postgres).dispatching fun _ => none)
    Sample.tick).1.toOption = some 1 := by decide +kernel
  have hjobs : ((RunDueSearches.execute 2).run.run
    ((Sample.env .postgres).dispatching fun _ => none) Sample.tick).2.jobs.rows.length = 2 := by
    decide +kernel
  rw [hcount] at hone
  rw [hran.jobs, List.length_append, List.length_map] at hjobs
  have hstored : Sample.tick.jobs.rows.length = 1 := rfl
  exact ⟨launches, by omega, Option.some.inj hone, hran⟩

end AgentBoilerplate.Job
