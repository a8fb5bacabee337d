import AgentBoilerplate.Job.RecentUrls
import AgentBoilerplate.Job.Scheduling

namespace AgentBoilerplate.Job

open Effects Collections

-- What the retention purge deletes: a finished job without a recurring link that was
-- created before the cutoff.
def Disposable (adapter : Adapter) (cutoff : Int) (job : ResearchJob) : Prop :=
  job.recurringSearchId = none ∧ job.isFinished ∧ job.createdAt < adapter.timestamp cutoff

instance (adapter : Adapter) (cutoff : Int) (job : ResearchJob) :
    Decidable (Disposable adapter cutoff job) := instDecidableAnd

-- The results and the steps of a doomed job go with it: one by one, or by the cascade.
def deleteFinishedBefore (adapter : Adapter) (world : JobWorld) (cutoff : Int) : Nat × JobWorld :=
  let doomed := (world.jobs.rows.filter fun job => Disposable adapter cutoff job).map ResearchJob.id
  (doomed.length, { world with
    jobs := world.jobs.retain fun job => job.id ∉ doomed
    results := world.results.retain fun entry => entry.1 ∉ doomed
    steps := world.steps.retain fun entry => entry.1 ∉ doomed })

-- The cutoff of the retention tick, for a number of days that is configured.
def retentionCutoff (now dataRetentionDays : Int) : Int := now - Duration.days dataRetentionDays

-- The tick runs for a positive number of days.
theorem retentionCutoff_le {now dataRetentionDays : Int} (h : 0 < dataRetentionDays) :
    retentionCutoff now dataRetentionDays ≤ now - Duration.hours 24 := by
  unfold retentionCutoff Duration.days Duration.hours Duration.seconds
  omega

-- What a purge does, and all that it does.
structure Purged (adapter : Adapter) (now cutoff : Int) (before after : JobWorld) (count : Nat) : Prop where
  count_eq : count = before.jobs.rows.countP fun job => Disposable adapter cutoff job
  jobs : ∀ job, job ∈ after.jobs ↔ job ∈ before.jobs ∧ ¬ Disposable adapter cutoff job
  cascaded : ∀ job ∈ before.jobs, Disposable adapter cutoff job →
    after.results.get job.id = none ∧ after.steps.get job.id = none
  spared : ∀ id, (∀ job ∈ before.jobs, job.id = id → ¬ Disposable adapter cutoff job) →
    after.jobs.get id = before.jobs.get id ∧ after.results.get id = before.results.get id ∧
      after.steps.get id = before.steps.get id
  recentUrls : ∀ collates recurringSearchId limit,
    recentUrlsForRecurring adapter collates after.jobs after.results recurringSearchId limit =
      recentUrlsForRecurring adapter collates before.jobs before.results recurringSearchId limit
  quota : ∀ userId, after.jobs.countCreatedSince adapter userId (now - Duration.hours 24) =
    before.jobs.countCreatedSince adapter userId (now - Duration.hours 24)
  rest : after = { before with jobs := after.jobs, results := after.results, steps := after.steps }

section

variable {adapter : Adapter} {world : JobWorld} {now cutoff : Int} {job : ResearchJob}

theorem mem_doomed {id : Uuid} :
    id ∈ (world.jobs.rows.filter fun job => Disposable adapter cutoff job).map ResearchJob.id ↔
      ∃ job ∈ world.jobs, job.id = id ∧ Disposable adapter cutoff job := by
  rw [List.mem_map]
  constructor
  · rintro ⟨job, hjob, hid⟩
    obtain ⟨hmem, hdisposable⟩ := List.mem_filter.mp hjob
    exact ⟨job, hmem, hid, of_decide_eq_true hdisposable⟩
  · rintro ⟨job, hmem, hid, hdisposable⟩
    exact ⟨job, List.mem_filter.mpr ⟨hmem, decide_eq_true hdisposable⟩, hid⟩

-- The identifier of a job is doomed exactly if the job is.
theorem doomed_iff (hjob : job ∈ world.jobs) :
    job.id ∈ (world.jobs.rows.filter fun job => Disposable adapter cutoff job).map ResearchJob.id ↔
      Disposable adapter cutoff job := by
  rw [mem_doomed]
  constructor
  · rintro ⟨other, hother, hid, hdisposable⟩
    rwa [world.jobs.eq_of_key hjob hother hid.symm]
  · exact fun hdisposable => ⟨job, hjob, rfl, hdisposable⟩

-- The rows that a query selects are the same if it selects no disposable one.
theorem filter_purged {p : ResearchJob → Bool}
    (hp : ∀ job ∈ world.jobs, p job → ¬ Disposable adapter cutoff job) :
    (deleteFinishedBefore adapter world cutoff).2.jobs.rows.filter p = world.jobs.rows.filter p := by
  unfold deleteFinishedBefore Table.retain
  dsimp only
  rw [List.filter_filter]
  refine List.filter_congr fun job hjob => ?_
  by_cases hselected : p job
  · have hkept := mt (doomed_iff hjob).mp (hp job hjob hselected)
    simp [hselected, hkept]
  · simp [hselected]

theorem of_purged {α : Type} {entries : PerJob α} {ids : List Uuid} {id : Uuid} (h : id ∉ ids) :
    Table.get (entries.retain fun entry => entry.1 ∉ ids) id = Table.get entries id :=
  Table.get_retain fun entry _ hkey => decide_eq_true (by rwa [hkey])

theorem none_of_purged {α : Type} {entries : PerJob α} {ids : List Uuid} {id : Uuid} (h : id ∈ ids) :
    Table.get (entries.retain fun entry => entry.1 ∉ ids) id = none := by
  refine (Table.get_eq_none _ _).mpr fun entry hentry hkey => ?_
  have hkept := of_decide_eq_true ((Table.mem_retain _ _ entry).mp hentry).2
  exact hkept (by rwa [hkey])

-- The results of the runs of a recurring search stay.
theorem recentUrls_purged (collates : String → String → Bool) (recurringSearchId : Uuid) (limit : Nat) :
    recentUrlsForRecurring adapter collates (deleteFinishedBefore adapter world cutoff).2.jobs
        (deleteFinishedBefore adapter world cutoff).2.results recurringSearchId limit =
      recentUrlsForRecurring adapter collates world.jobs world.results recurringSearchId limit := by
  have hlinked : ∀ job ∈ world.jobs, job.recurringSearchId = some recurringSearchId →
      ¬ Disposable adapter cutoff job := by
    intro job _ hlink hdisposable
    rw [hdisposable.1] at hlink
    cases hlink
  have hruns : (deleteFinishedBefore adapter world cutoff).2.jobs.runsOf recurringSearchId =
      world.jobs.runsOf recurringSearchId := by
    unfold Jobs.runsOf
    rw [filter_purged fun job hjob hselected => hlinked job hjob (of_decide_eq_true hselected)]
  have hurls : ((world.jobs.runsOf recurringSearchId).flatMap fun job =>
        ((deleteFinishedBefore adapter world cutoff).2.results.of job.id).map SearchResult.url) =
      (world.jobs.runsOf recurringSearchId).flatMap fun job =>
        (world.results.of job.id).map SearchResult.url := by
    refine List.flatMap_congr fun job hrun => ?_
    obtain ⟨hjob, hlink⟩ := List.mem_filter.mp ((List.mem_insertionSort _).mp hrun)
    have hkept := mt (doomed_iff hjob).mp (hlinked job hjob (of_decide_eq_true hlink))
    unfold PerJob.of deleteFinishedBefore
    dsimp only
    rw [of_purged hkept]
  unfold recentUrlsForRecurring
  rw [hruns, hurls]

-- A job of the last 24 hours is too young for the purge.
theorem quota_purged (hcutoff : cutoff ≤ now - Duration.hours 24) (userId : Uuid) :
    (deleteFinishedBefore adapter world cutoff).2.jobs.countCreatedSince adapter userId
        (now - Duration.hours 24) =
      world.jobs.countCreatedSince adapter userId (now - Duration.hours 24) := by
  rw [countCreatedSince_eq, countCreatedSince_eq, List.countP_eq_length_filter,
    List.countP_eq_length_filter, filter_purged]
  intro job _ hyoung hdisposable
  obtain ⟨_, hsince⟩ := of_decide_eq_true hyoung
  have hmono := timestamp_mono adapter hcutoff
  have hold := hdisposable.2.2
  omega

-- The purge of a cutoff that is at least 24 hours in the past.
theorem deleteFinishedBefore_purged (adapter : Adapter) (world : JobWorld) (now cutoff : Int)
    (hcutoff : cutoff ≤ now - Duration.hours 24) :
    Purged adapter now cutoff world (deleteFinishedBefore adapter world cutoff).2
      (deleteFinishedBefore adapter world cutoff).1 where
  count_eq := by
    unfold deleteFinishedBefore
    dsimp only
    rw [List.length_map, List.countP_eq_length_filter]
  jobs job := by
    refine (Table.mem_retain _ _ job).trans (and_congr_right fun hjob => ?_)
    rw [decide_eq_true_iff, doomed_iff hjob]
  cascaded job hjob hdisposable := by
    have hdoomed := (doomed_iff hjob).mpr hdisposable
    exact ⟨none_of_purged hdoomed, none_of_purged hdoomed⟩
  spared id hspared := by
    have hkept : id ∉ (world.jobs.rows.filter fun job => Disposable adapter cutoff job).map
        ResearchJob.id := by
      rw [mem_doomed]
      rintro ⟨job, hjob, hid, hdisposable⟩
      exact hspared job hjob hid hdisposable
    refine ⟨?_, of_purged hkept, of_purged hkept⟩
    exact Table.get_retain fun job _ hkey => decide_eq_true (by rwa [hkey])
  recentUrls collates recurringSearchId limit := recentUrls_purged collates recurringSearchId limit
  quota userId := quota_purged hcutoff userId
  rest := rfl

end

-- A finished search and its results, purged by the tick of two months later; a run of a
-- recurring search and a recent search stay.
theorem deleteFinishedBefore_old :
    let finished := { Sample.job with status := .completed }
    let world := { Sample.world with
      jobs := ((Table.empty.insert finished).insert
        { finished with id := Sample.uuid 1, recurringSearchId := some Sample.daily }).insert
          { finished with id := Sample.uuid 2, createdAt := finished.createdAt + Duration.days 40 }
      results := Table.empty.insert (finished.id, [Sample.result "https://a.example/lean"]) }
    let now := finished.createdAt + Duration.days 60
    let purge := deleteFinishedBefore .postgres world (retentionCutoff now 30)
    purge.1 = 1 ∧ purge.2.jobs.rows.map ResearchJob.id = [Sample.uuid 1, Sample.uuid 2] ∧
      Purged .postgres now (retentionCutoff now 30) world purge.2 purge.1 := by
  intro finished world now purge
  refine ⟨by decide +kernel, by decide +kernel, ?_⟩
  exact deleteFinishedBefore_purged .postgres world now _ (retentionCutoff_le (by decide))

end AgentBoilerplate.Job
