import AgentBoilerplate.Tenancy.Sides

namespace AgentBoilerplate.Tenancy

open Effects Collections Job Knowledge Deletion Profile

namespace Tenant

variable (tenant : Tenant)

-- A database of the user alone.
def own (db : Database) : Database where
  jobs := {
    jobs := tenant.jobsOf db
    results := tenant.resultsOf db
    steps := tenant.stepsOf db
    recurring := tenant.recurringOf db
    channels := tenant.channelsOf db
    dispatched := []
    digests := []
    notified := []
    calls := 0
    readings := 0
    uuids := 0 }
  knowledge := {
    store := { documents := tenant.documentsOf db, chunks := tenant.chunksOf db }
    embedded := []
    calls := 0
    readings := 0
    uuids := 0 }
  tokens := tenant.tokensOf db
  users := tenant.usersOf db
  calls := 0

variable {tenant} {db db' : Database}

theorem Same.own_eq (h : tenant.Same db db') : tenant.own db = tenant.own db' := by
  unfold own
  rw [h.jobs, h.results, h.steps, h.recurring, h.channels, h.documents, h.chunks, h.tokens, h.users]

theorem Same.dated (h : tenant.Same db db') (hdated : tenant.Dated db) : tenant.Dated db' where
  jobs := h.jobs ▸ hdated.jobs
  recurring := h.recurring ▸ hdated.recurring
  channels := h.channels ▸ hdated.channels
  documents := h.documents ▸ hdated.documents

theorem Apart.reordered (h : tenant.Apart db) (hreordered : Reordered db db') : tenant.Apart db' where
  jobs job hjob := h.jobs job ((hreordered.jobs.mem_iff job).mpr hjob)
  recurring search hsearch := h.recurring search ((hreordered.recurring.mem_iff search).mpr hsearch)
  channels channel hchannel := h.channels channel ((hreordered.channels.mem_iff channel).mpr hchannel)
  documents document hdocument :=
    h.documents document ((hreordered.documents.mem_iff document).mpr hdocument)
  chunks chunk hchunk := h.chunks chunk (hreordered.chunks ▸ hchunk)

-- A record that has the user for its owner is one of the user's.
theorem picked {α : Type} (owner : α → Uuid) {userId : Uuid} (h : tenant.is userId = true) (a : α)
    (hpick : decide (owner a = userId) = true) : tenant.is (owner a) = true := by
  rw [of_decide_eq_true hpick]
  exact h

end Tenant

variable {tenant : Tenant} {db db' : Database}

theorem of_own {α : Type} {entries entries' : PerJob α} (h : entries.Reordered entries')
    {jobId : Uuid} (howned : tenant.owned jobId = true) :
    entries'.of jobId = PerJob.of (entries.retain fun entry => tenant.owned entry.1) jobId := by
  unfold PerJob.of
  rw [Table.get_retained h fun entry _ hkey => ?_]
  rw [hkey]
  exact howned

theorem recentUrls_own (hreordered : Reordered db db') (hapart : tenant.Apart db)
    (hdated : tenant.Dated db) {rsId : Uuid} (h : tenant.owned rsId = true)
    (collates : String → String → Bool) (limit : Nat) :
    recentUrlsForRecurring .inMemory collates db'.jobs.jobs db'.jobs.results rsId limit =
      recentUrlsForRecurring .inMemory collates (tenant.jobsOf db) (tenant.resultsOf db) rsId
        limit := by
  have hlinked : ∀ job ∈ db.jobs.jobs, decide (job.recurringSearchId = some rsId) = true →
      tenant.is job.userId = true := by
    intro job hjob hlink
    have howned := (hapart.jobs job hjob).2 rsId (of_decide_eq_true hlink)
    rw [← howned, h]
  have hruns : db'.jobs.jobs.runsOf rsId = (tenant.jobsOf db).runsOf rsId :=
    Table.newest_retained ResearchJob.createdAt hreordered.jobs hlinked hdated.jobs
  unfold recentUrlsForRecurring
  rw [hruns]
  refine congrArg (collectUrls limit []) (List.flatMap_congr fun job hjob => ?_)
  obtain ⟨hmem, hlink⟩ := List.mem_filter.mp ((List.mem_insertionSort _).mp hjob)
  obtain ⟨hmem, hmine⟩ := (Table.mem_retain _ _ job).mp hmem
  have howned : tenant.owned job.id = true := by
    rw [(hapart.jobs job hmem).1.2, hmine]
  rw [of_own hreordered.results howned]
  rfl

theorem retrieve_own (hreordered : Reordered db db') {userId : Uuid} (h : tenant.is userId = true)
    (similarity : Embedding → Embedding → Int) (embedding : Embedding) (k : Int) :
    db'.knowledge.store.retrieve .inMemory similarity userId embedding k =
      (tenant.own db).knowledge.store.retrieve .inMemory similarity userId embedding k := by
  have hvisible : db'.knowledge.store.visible .inMemory userId =
      (tenant.own db).knowledge.store.visible .inMemory userId := by
    change db'.knowledge.store.chunks.filter _ =
      (db.knowledge.store.chunks.filter fun chunk => tenant.is chunk.userId).filter _
    rw [← hreordered.chunks, List.filter_filter]
    refine List.filter_congr fun chunk _ => ?_
    by_cases hmine : chunk.userId = userId
    · simp [hmine, h]
    · simp [hmine]
  unfold DocumentStore.retrieve DocumentStore.nearest
  rw [hvisible]
  rfl

-- What the removal of a record by its owner answers.
theorem removed_own {α β : Type} {key : α → Uuid} {t t' : Table key} (h : t.Reordered t')
    (owner : α → Uuid) {userId : Uuid} (huser : tenant.is userId = true) (id : Uuid)
    {found missing found' missing' : β} :
    (if (t'.get id).any fun a => owner a = userId then (true, found) else (false, missing)).1 =
      (if ((t.retain fun a => tenant.is (owner a)).get id).any fun a => owner a = userId then
        (true, found') else (false, missing')).1 := by
  rw [Table.any_retained h fun a _ => Tenant.picked owner huser a]
  split <;> rfl

-- Beside a lookup, what the user is answered depends on the user's records alone.
theorem serve_own (similarity : Embedding → Embedding → Int) (hreordered : Reordered db db')
    (hapart : tenant.Apart db) (hdated : tenant.Dated db) {request : TenantPorts.Call}
    (hallowed : (tenant.boundary.beyond external).allowed true request)
    (hplain : ∀ id, request ≠ .inl (.inl (.find id))) :
    (serve similarity request db').1 = (serve similarity request (tenant.own db)).1 := by
  obtain ⟨hallowed, hexternal⟩ := hallowed
  rcases request with (request | request) | request | request | request
  · cases request with
    | insert job => rfl
    | update job => rfl
    | find id => exact absurd rfl (hplain id)
    | countCreatedSince userId since =>
        refine congrArg Except.ok (Table.countP_retained hreordered.jobs fun job _ hpick => ?_)
        exact tenant.picked ResearchJob.userId hallowed job (decide_eq_true (of_decide_eq_true hpick).1)
    | listUnfinishedOlderThan cutoff => exact hallowed.elim
    | storeResults jobId results => rfl
    | appendStep jobId step => rfl
    | clearSteps jobId => rfl
    | addUsage jobId usage => rfl
    | recentUrlsForRecurring id limit =>
        exact congrArg Except.ok (recentUrls_own hreordered hapart hdated hallowed _ limit)
    | findRecurring id =>
        refine congrArg Except.ok
          (Table.get_retained hreordered.recurring fun search hsearch hkey => ?_)
        rw [← (hapart.recurring search hsearch).2, hkey]
        exact hallowed
    | listDue now => exact hallowed.elim
    | markRan id at_ => exact hallowed.elim
    | listChannels userId =>
        exact congrArg Except.ok (Table.oldest_retained NotificationChannel.createdAt
          hreordered.channels (fun channel _ => tenant.picked _ hallowed channel) hdated.channels)
    | sendDigest url digest => cases hexternal
    | notify channel digest => cases hexternal
    | dispatch job seenUrls => cases hexternal
    | utcNow => cases hexternal
    | newUuid => cases hexternal
  · cases request with
    | listForUser userId =>
        exact congrArg Except.ok (Table.newest_retained ResearchJob.createdAt hreordered.jobs
          (fun job _ => tenant.picked _ hallowed job) hdated.jobs)
    | resultsFor jobId => exact congrArg Except.ok (of_own hreordered.results hallowed)
    | stepsFor jobId => exact congrArg Except.ok (of_own hreordered.steps hallowed)
    | instant => cases hexternal
    | sleep wait => cases hexternal
    | update detail => cases hexternal
  · cases request with
    | insert document => rfl
    | listForUser userId =>
        exact congrArg Except.ok (Table.newest_retained Document.createdAt hreordered.documents
          (fun document _ => tenant.picked _ hallowed document) hdated.documents)
    | find id =>
        refine congrArg Except.ok
          (Table.get_retained hreordered.documents fun document hdocument hkey => ?_)
        rw [← (hapart.documents document hdocument).2, hkey]
        exact hallowed
    | delete userId id =>
        exact congrArg Except.ok (removed_own hreordered.documents Document.userId hallowed id)
    | storeChunks document batch => rfl
    | markFailed id error => rfl
    | retrieve userId embedding k =>
        exact congrArg Except.ok (retrieve_own hreordered hallowed similarity embedding k)
    | deleteAllForUser userId =>
        exact congrArg Except.ok (Table.countP_retained hreordered.documents
          fun document _ => tenant.picked _ hallowed document)
    | dispatchEmbed documentId name content => cases hexternal
    | utcNow => cases hexternal
    | newUuid => cases hexternal
  · cases request with
    | recurring userId =>
        exact congrArg Except.ok (Table.countP_retained hreordered.recurring
          fun search _ => tenant.picked _ hallowed search)
    | jobs userId =>
        exact congrArg Except.ok (Table.countP_retained hreordered.jobs
          fun job _ => tenant.picked _ hallowed job)
    | refreshTokens userId =>
        exact congrArg Except.ok (Table.countP_retained hreordered.tokens
          fun token _ => tenant.picked _ hallowed token)
    | channels userId =>
        exact congrArg Except.ok (Table.countP_retained hreordered.channels
          fun channel _ => tenant.picked _ hallowed channel)
    | documents userId =>
        exact congrArg Except.ok (Table.countP_retained hreordered.documents
          fun document _ => tenant.picked _ hallowed document)
    | user userId => rfl
  · cases request with
    | findUser userId =>
        refine congrArg Except.ok (Table.get_retained hreordered.users fun user _ hkey => ?_)
        rw [hkey]
        exact hallowed
    | insertChannel channel => rfl
    | listChannels userId =>
        exact congrArg Except.ok (Table.oldest_retained NotificationChannel.createdAt
          hreordered.channels (fun channel _ => tenant.picked _ hallowed channel) hdated.channels)
    | deleteChannel userId id =>
        exact congrArg Except.ok
          (removed_own hreordered.channels NotificationChannel.userId hallowed id)
    | insertSearch search => rfl
    | listSearches userId =>
        exact congrArg Except.ok (Table.newest_retained RecurringSearch.createdAt
          hreordered.recurring (fun search _ => tenant.picked _ hallowed search) hdated.recurring)
    | deleteSearch userId id =>
        exact congrArg Except.ok
          (removed_own hreordered.recurring RecurringSearch.userId hallowed id)
    | utcNow => cases hexternal
    | newUuid => cases hexternal

theorem find_alike {db₁ db₁' : Database} (hreordered : Reordered db db₁)
    (hreordered' : Reordered db' db₁') (hapart : tenant.Apart db) (hapart' : tenant.Apart db')
    (hsame : tenant.Same db db') (id : Uuid) :
    tenant.shown (.ok (db₁.jobs.jobs.get id)) = tenant.shown (.ok (db₁'.jobs.jobs.get id)) ∧
      (tenant.owned id = true → db₁.jobs.jobs.get id = db₁'.jobs.jobs.get id) := by
  have howned : ∀ {db : Database}, tenant.Apart db → tenant.owned id = true →
      ∀ job ∈ db.jobs.jobs, job.id = id → tenant.is job.userId = true := by
    intro db hapart hid job hjob hkey
    rw [← (hapart.jobs job hjob).1.2, hkey, hid]
  constructor
  · refine congrArg Except.ok ?_
    exact (Table.find_retained hreordered.jobs).trans
      ((congrArg (Table.get · id) hsame.jobs).trans (Table.find_retained hreordered'.jobs).symm)
  · intro hid
    rw [Table.get_retained hreordered.jobs (howned hapart hid),
      Table.get_retained hreordered'.jobs (howned hapart' hid)]
    exact congrArg (Table.get · id) hsame.jobs

theorem alike_refl (request : TenantPorts.Call) (answer : TenantPorts.Answer request) :
    tenant.boundary.alike request answer answer := by
  rcases request with (request | request) | request | request | request
  · cases request with
    | find id => exact ⟨rfl, fun _ => rfl⟩
    | _ => rfl
  all_goals rfl

theorem serve_alike (similarity : Embedding → Embedding → Int) {db₁ db₁' : Database}
    (hreordered : Reordered db db₁) (hreordered' : Reordered db' db₁') (hapart : tenant.Apart db)
    (hapart' : tenant.Apart db') (hdated : tenant.Dated db) (hsame : tenant.Same db db')
    {request : TenantPorts.Call} (hallowed : (tenant.boundary.beyond external).allowed true request) :
    tenant.boundary.alike request (serve similarity request db₁).1
      (serve similarity request db₁').1 := by
  by_cases hfind : ∃ id, request = .inl (.inl (.find id))
  · obtain ⟨id, rfl⟩ := hfind
    obtain ⟨hshown, hequal⟩ := find_alike hreordered hreordered' hapart hapart' hsame id
    exact ⟨hshown, fun hid => congrArg Except.ok (hequal hid)⟩
  · have hplain := not_exists.mp hfind
    rw [serve_own similarity hreordered hapart hdated hallowed hplain,
      serve_own similarity hreordered' hapart' (hsame.dated hdated) hallowed hplain, hsame.own_eq]
    exact alike_refl request _

-- A record that is found is on the side of its owner.
theorem serve_admits (similarity : Embedding → Embedding → Int) (hapart : tenant.Apart db)
    {side : Bool} {request : TenantPorts.Call}
    (hallowed : (tenant.boundary.beyond external).allowed side request) :
    tenant.boundary.admits side request (serve similarity request db).1 := by
  obtain ⟨hallowed, hexternal⟩ := hallowed
  rcases request with (request | request) | request | request | request
  · cases request with
    | find id =>
        intro job heq
        obtain ⟨hjob, hid⟩ := (Table.get_eq_some _ id job).mp (Except.ok.inj heq)
        exact ⟨hid, hapart.jobs job hjob⟩
    | findRecurring id =>
        intro search heq
        obtain ⟨hsearch, hid⟩ := (Table.get_eq_some _ id search).mp (Except.ok.inj heq)
        rw [← (hapart.recurring search hsearch).2, hid]
        exact hallowed
    | newUuid => cases hexternal
    | _ => trivial
  · trivial
  · cases request with
    | find id =>
        intro document heq
        obtain ⟨hdocument, hid⟩ := (Table.get_eq_some _ id document).mp (Except.ok.inj heq)
        have hholds := hapart.documents document hdocument
        have hside : tenant.is document.userId = side := by
          rw [← hholds.2, hid]
          exact hallowed
        rwa [hside] at hholds
    | newUuid => cases hexternal
    | _ => trivial
  · trivial
  · cases request with
    | newUuid => cases hexternal
    | _ => trivial

end AgentBoilerplate.Tenancy
