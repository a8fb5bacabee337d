import AgentBoilerplate.Tenancy.Stores

namespace AgentBoilerplate.Tenancy

open Effects Collections Job Knowledge Deletion Profile

-- Two databases of users who are kept apart, which hold the same of one of them.
structure Tenant.Related (tenant : Tenant) (db db' : Database) : Prop where
  apart : tenant.Apart db
  apart' : tenant.Apart db'
  same : tenant.Same db db'

section Handlers

variable {tenant : Tenant} {db db' : Database} (memory : Memory)
  (similarity : Embedding → Embedding → Int) {side : Bool} {request : TenantPorts.Call}

theorem handle_admits (hapart : tenant.Apart db)
    (hallowed : (tenant.boundary.beyond external).allowed side request) :
    tenant.boundary.admits side request (memory.handle similarity request db).1 :=
  serve_admits similarity (hapart.reordered (memory.reordered db)) hallowed

-- The count of the calls is of no user.
theorem handle_apart (hapart : tenant.Apart db)
    (hallowed : (tenant.boundary.beyond external).allowed side request) :
    tenant.Apart (memory.handle similarity request db).2 := by
  obtain ⟨hjobs, hrecurring, hchannels, hdocuments, hchunks⟩ :=
    serve_apart similarity hapart hallowed
  exact ⟨hjobs, hrecurring, hchannels, hdocuments, hchunks⟩

theorem handle_other (hapart : tenant.Apart db)
    (hallowed : (tenant.boundary.beyond external).allowed false request) :
    tenant.Same (memory.handle similarity request db).2 db := by
  obtain ⟨hjobs, hresults, hsteps, hrecurring, hchannels, hdocuments, hchunks, htokens, husers⟩ :=
    serve_other similarity hapart hallowed
  exact ⟨hjobs, hresults, hsteps, hrecurring, hchannels, hdocuments, hchunks, htokens, husers⟩

theorem handle_mine (memory' : Memory) (hrelated : tenant.Related db db')
    (hallowed : (tenant.boundary.beyond external).allowed true request) :
    tenant.Same (memory.handle similarity request db).2 (memory'.handle similarity request db').2 := by
  obtain ⟨hjobs, hresults, hsteps, hrecurring, hchannels, hdocuments, hchunks, htokens, husers⟩ :=
    serve_mine similarity hrelated.apart hrelated.apart' hrelated.same hallowed
  exact ⟨hjobs, hresults, hsteps, hrecurring, hchannels, hdocuments, hchunks, htokens, husers⟩

theorem memory_unwinding (memory' : Memory) :
    Unwinding (tenant.boundary.beyond external) tenant.Dated tenant.Related
      (memory.handle similarity) (memory'.handle similarity) where
  both request db db' hallowed hdated hrelated := by
    refine ⟨handle_admits memory similarity hrelated.apart hallowed, ?_,
      handle_apart memory similarity hrelated.apart hallowed,
      handle_apart memory' similarity hrelated.apart' hallowed,
      handle_mine memory similarity memory' hrelated hallowed⟩
    exact serve_alike similarity (memory.reordered db) (memory'.reordered db') hrelated.apart
      hrelated.apart' hdated hrelated.same hallowed
  left request db db' hallowed hrelated :=
    ⟨handle_admits memory similarity hrelated.apart hallowed,
      handle_apart memory similarity hrelated.apart hallowed, hrelated.apart',
      (handle_other memory similarity hrelated.apart hallowed).trans hrelated.same⟩
  right request db db' hallowed hrelated :=
    ⟨handle_admits memory' similarity hrelated.apart' hallowed, hrelated.apart,
      handle_apart memory' similarity hrelated.apart' hallowed,
      hrelated.same.trans (handle_other memory' similarity hrelated.apart' hallowed).symm⟩

end Handlers

-- Two runs that share what the user and the worker on the user's jobs and
-- documents do, between whatever others do: the user is answered the same, and
-- the stores hold the same of the user.
theorem tenants_isolated {ι : Type} [DecidableEq ι] (config : ServiceConfig)
    (similarity : Embedding → Embedding → Int) (memory memory' : Memory) (tenant : Tenant)
    (mine : ι → Bool) {ops ops' : ι → TenantOp} {given given' : ι → Surroundings TenantPorts}
    (hops : ∀ i, mine i = true → ops i = ops' i) (hgiven : ∀ i, mine i = true → given i = given' i)
    (hof : ∀ i, TenantOp.Of tenant (mine i) (ops i))
    (hof' : ∀ i, TenantOp.Of tenant (mine i) (ops' i))
    (hfresh : ∀ i, Fresh tenant (mine i) (given i)) (hfresh' : ∀ i, Fresh tenant (mine i) (given' i))
    {db db' : Database} (hrelated : tenant.Related db db') {schedule schedule' : List ι}
    (hschedule : schedule.filter mine = schedule'.filter mine)
    (hdated : (tenantRuns config db ops given).Respects (memory.handle similarity)
      (fun _ later _ _ => tenant.Dated later) schedule) :
    let last := (tenantRuns config db ops given).run (memory.handle similarity) schedule
    let last' := (tenantRuns config db' ops' given').run (memory'.handle similarity) schedule'
    (∀ i, mine i = true → (last.threads i).rest = (last'.threads i).rest) ∧
      tenant.Same last.store last'.store := by
  have hstart : Separated (tenant.boundary.beyond external) mine tenant.Related
      (tenantRuns config db ops given) (tenantRuns config db' ops' given') := by
    refine ⟨hrelated, fun i hi => ?_, fun i => ?_, fun i => ?_⟩
    · change ((ops i).program config).surrounded external (given i) 0 =
        ((ops' i).program config).surrounded external (given' i) 0
      rw [hops i hi, hgiven i hi]
    · exact thread_confined config (hof i) (hfresh i)
    · exact thread_confined config (hof' i) (hfresh' i)
  have hlast := hstart.run (memory_unwinding memory similarity memory') hschedule hdated
  exact ⟨hlast.same, hlast.store.same⟩

instance (tenant : Tenant) (db : Database) : Decidable (tenant.Dated db) :=
  decidable_of_iff
    (((tenant.jobsOf db).rows.map ResearchJob.createdAt).Nodup ∧
      ((tenant.recurringOf db).rows.map RecurringSearch.createdAt).Nodup ∧
        ((tenant.channelsOf db).rows.map NotificationChannel.createdAt).Nodup ∧
          ((tenant.documentsOf db).rows.map Document.createdAt).Nodup)
    ⟨fun ⟨hjobs, hrecurring, hchannels, hdocuments⟩ => ⟨hjobs, hrecurring, hchannels, hdocuments⟩,
      fun h => ⟨h.jobs, h.recurring, h.channels, h.documents⟩⟩

-- Two users on a new database: one searches and lists, the other uploads a
-- document or tries to answer the job of the first.
namespace Sample

def ada : Tenant := ⟨⟨"ada"⟩, fun id => id = ⟨"first job"⟩⟩

def bob : Uuid := ⟨"bob"⟩

def db : Database where
  jobs := {
    jobs := Table.empty
    results := Table.empty
    steps := Table.empty
    recurring := Table.empty
    channels := Table.empty
    dispatched := []
    digests := []
    notified := []
    calls := 0
    readings := 0
    uuids := 0 }
  knowledge := {
    store := { documents := Table.empty, chunks := [] }
    embedded := []
    calls := 0
    readings := 0
    uuids := 0 }
  tokens := Table.empty
  users := Table.empty
  calls := 0

theorem apart : ada.Apart db where
  jobs _ h := absurd h (Table.notMem_empty _)
  recurring _ h := absurd h (Table.notMem_empty _)
  channels _ h := absurd h (Table.notMem_empty _)
  documents _ h := absurd h (Table.notMem_empty _)
  chunks _ h := absurd h List.not_mem_nil

def memory : Memory where
  order db := db
  reordered _ := ⟨.refl _, .refl _, .refl _, .refl _, .refl _, .refl _, rfl, .refl _, .refl _⟩

def config : ServiceConfig := ⟨⟨20, 3600⟩, true⟩

def similarity (_ _ : Embedding) : Int := 0

-- Every draw is of this identifier, and every message is taken.
def given (id : Uuid) : Surroundings TenantPorts
  | _, .inl (.inl request) => match request with
    | .newUuid => id
    | request => (serve similarity (.inl (.inl request)) db).1
  | _, .inl (.inr request) => (serve similarity (.inl (.inr request)) db).1
  | _, .inr (.inl request) => match request with
    | .newUuid => id
    | request => (serve similarity (.inr (.inl request)) db).1
  | _, .inr (.inr (.inl request)) => (serve similarity (.inr (.inr (.inl request))) db).1
  | _, .inr (.inr (.inr request)) => match request with
    | .newUuid => id
    | request => (serve similarity (.inr (.inr (.inr request))) db).1

def draws (i : Fin 3) : Surroundings TenantPorts :=
  given (if i < 2 then ⟨"first job"⟩ else ⟨"notes"⟩)

def mine (i : Fin 3) : Bool := i < 2

def ops : Fin 3 → TenantOp
  | 0 => .job (.launch ada.user "lean" .workflow)
  | 1 => .list ada.user
  | 2 => .knowledge (.upload bob "notes" "a proof")

def ops' : Fin 3 → TenantOp
  | 0 => .job (.launch ada.user "lean" .workflow)
  | 1 => .list ada.user
  | 2 => .job (.answer bob ⟨"first job"⟩ "4.33")

end Sample

theorem tenants_isolated_two :
    let last := (tenantRuns Sample.config Sample.db Sample.ops Sample.draws).run
      (Sample.memory.handle Sample.similarity) [0, 2, 0, 1]
    let last' := (tenantRuns Sample.config Sample.db Sample.ops' Sample.draws).run
      (Sample.memory.handle Sample.similarity) [0, 0, 2, 1]
    (∀ i, Sample.mine i = true → (last.threads i).rest = (last'.threads i).rest) ∧
      Sample.ada.Same last.store last'.store := by
  have hof : ∀ i, TenantOp.Of Sample.ada (Sample.mine i) (Sample.ops i) := fun
    | 0 => rfl
    | 1 => rfl
    | 2 => rfl
  have hof' : ∀ i, TenantOp.Of Sample.ada (Sample.mine i) (Sample.ops' i) := fun
    | 0 => rfl
    | 1 => rfl
    | 2 => rfl
  have hfresh : ∀ i, Fresh Sample.ada (Sample.mine i) (Sample.draws i) := fun
    | 0 => ⟨fun _ => rfl, fun _ => rfl, fun _ => rfl⟩
    | 1 => ⟨fun _ => rfl, fun _ => rfl, fun _ => rfl⟩
    | 2 => ⟨fun _ => rfl, fun _ => rfl, fun _ => rfl⟩
  have hops : ∀ i, Sample.mine i = true → Sample.ops i = Sample.ops' i := by decide +kernel
  have hdated : (tenantRuns Sample.config Sample.db Sample.ops Sample.draws).Respects
      (Sample.memory.handle Sample.similarity) (fun _ later _ _ => Sample.ada.Dated later)
      [0, 2, 0, 1] := by
    decide +kernel
  exact tenants_isolated Sample.config Sample.similarity Sample.memory Sample.memory Sample.ada
    Sample.mine hops (fun _ _ => rfl) hof hof' hfresh hfresh
    ⟨Sample.apart, Sample.apart, Tenant.Same.refl _⟩ (by decide) hdated

end AgentBoilerplate.Tenancy
