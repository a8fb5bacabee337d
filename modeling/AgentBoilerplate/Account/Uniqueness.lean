import AgentBoilerplate.Account
import AgentBoilerplate.Effects.Runs
import AgentBoilerplate.Session.Lemmas

namespace AgentBoilerplate.Account

open Effects Collections Session

def DistinctEmails (users : Users) : Prop := (users.rows.map User.email).Nodup

instance (users : Users) : Decidable (DistinctEmails users) :=
  inferInstanceAs (Decidable (users.rows.map User.email).Nodup)

namespace Users

variable {adapter : Adapter} {users : Users} {user row : User}

theorem distinct_insert (h : DistinctEmails users) (hemail : ∀ row ∈ users, row.email ≠ user.email) :
    DistinctEmails (Table.insert users user) := by
  unfold DistinctEmails Table.insert
  rw [List.map_append, List.nodup_append]
  refine ⟨h.sublist (List.filter_sublist.map _), List.nodup_singleton _, ?_⟩
  intro email hemail' other hother heq
  obtain ⟨row, hrow, rfl⟩ := List.mem_map.mp hemail'
  obtain rfl : other = user.email := by simpa using hother
  exact hemail row (List.mem_of_mem_filter hrow) heq

-- A row of another key stays, so two rows of one email are stored.
theorem not_distinct_insert (hrow : row ∈ users) (hid : row.id ≠ user.id)
    (hemail : row.email = user.email) : ¬ DistinctEmails (Table.insert users user) := by
  intro h
  have hold : row ∈ Table.insert users user := (Table.mem_insert _ _ _).mpr (Or.inr ⟨hrow, hid⟩)
  have hnew : user ∈ Table.insert users user := (Table.mem_insert _ _ _).mpr (Or.inl rfl)
  exact hid (congrArg User.id (List.inj_on_of_nodup_map h hold hnew hemail))

-- What an insert that is answered `ok` did, and that a refused one did nothing.
theorem insert_ok (h : (users.insert adapter user).1 = .ok ()) :
    (users.insert adapter user).2 = Table.insert users user ∧
      (adapter = .postgres → ∀ row ∈ users, row.email ≠ user.email) := by
  unfold insert at h ⊢
  cases adapter with
  | inMemory => exact ⟨rfl, by simp⟩
  | postgres =>
      dsimp only at h ⊢
      split at h
      · cases h
      · rename_i hany
        rw [if_neg hany]
        refine ⟨rfl, fun _ row hrow hemail => hany ?_⟩
        exact List.any_eq_true.mpr ⟨row, hrow, by simp [hemail]⟩

theorem insert_error {e : PortError} (h : (users.insert adapter user).1 = .error e) :
    (users.insert adapter user).2 = users := by
  unfold insert at h ⊢
  cases adapter with
  | inMemory => cases h
  | postgres =>
      dsimp only at h ⊢
      split at h
      · rename_i hany
        rw [if_pos hany]
      · cases h

end Users

namespace AccountEnv

variable {env : AccountEnv} {world : AccountWorld}

-- Only an insert that is answered `ok` changes the stored users.
theorem handle_users (env : AccountEnv) (world : AccountWorld) (request : AccountCall) :
    ((env.handle request world).2.users = world.users ∧
      ∀ user, (⟨request, (env.handle request world).1⟩ : Event AccountPorts) ≠
        ⟨.insert user, .ok ()⟩) ∨
    ∃ user, (⟨request, (env.handle request world).1⟩ : Event AccountPorts) =
        ⟨.insert user, .ok ()⟩ ∧
      (env.handle request world).2.users = Table.insert world.users user ∧
      env.fault world.calls = none ∧
      (env.adapter = .postgres → ∀ row ∈ world.users, row.email ≠ user.email) := by
  cases request with
  | findByEmail email =>
      left
      simp only [handle, attempt]
      split <;> simp
  | insert user =>
      simp only [handle, attempt]
      split
      · exact Or.inl ⟨rfl, by simp⟩
      · rename_i hfault
        cases hanswer : (world.users.insert env.adapter user).1 with
        | error e => exact Or.inl ⟨Users.insert_error hanswer, by simp⟩
        | ok _ =>
            obtain ⟨husers, hpostgres⟩ := Users.insert_ok hanswer
            exact Or.inr ⟨user, rfl, husers, hfault, hpostgres⟩
  | hash password => exact Or.inl ⟨rfl, by simp⟩
  | utcNow => exact Or.inl ⟨rfl, by simp⟩
  | newUuid => exact Or.inl ⟨rfl, by simp⟩

theorem handle_uuids_le (request : AccountCall) :
    world.uuids ≤ (env.handle request world).2.uuids := by
  cases request with
  | findByEmail email | insert user =>
      simp only [handle, attempt]
      split <;> exact Nat.le_refl _
  | hash password | utcNow => exact Nat.le_refl _
  | newUuid => exact Nat.le_succ _

end AccountEnv

section Registration

variable (toLowercase : String → String) (credentials : Credentials)

def Drawn (past : List (Event AccountPorts)) (id : Uuid) : Prop :=
  (⟨.newUuid, id⟩ : Event AccountPorts) ∈ past

def Inserted (past : List (Event AccountPorts)) (user : User) : Prop :=
  (⟨.insert user, .ok ()⟩ : Event AccountPorts) ∈ past

-- A registration inserts one user, under an identifier it has drawn and the
-- email it was asked for, and answers with the user it has inserted.
structure RegisterShape (past : List (Event AccountPorts))
    (p : Program AccountPorts (Except RegisterError User)) : Prop where
  insert : ∀ user next, p = .call (.insert user) next →
    Drawn past user.id ∧ user.email = normalize toLowercase credentials.email ∧
      ∀ other, ¬ Inserted past other
  success : ∀ user, p = .done (.ok user) →
    Drawn past user.id ∧ user.email = normalize toLowercase credentials.email ∧
      Inserted past user

theorem registerShape_call {past : List (Event AccountPorts)} {request : AccountCall}
    {next : request.Answer → Program AccountPorts (Except RegisterError User)}
    (h : ∀ user, request ≠ .insert user) :
    RegisterShape toLowercase credentials past (.call request next) where
  insert user next hcall := by
    cases hcall
    exact absurd rfl (h user)
  success user hdone := by cases hdone

theorem register_shape :
    (register toLowercase credentials.email credentials.password).run.Along
      (RegisterShape toLowercase credentials) [] := by
  have herror : ∀ past e, RegisterShape toLowercase credentials past (.done (.error e)) :=
    fun _ _ => ⟨by simp, by simp⟩
  unfold register
  dsimp only
  split
  · exact herror _ _
  split
  · exact herror _ _
  simp only [Fallible.run_orFail_bind, ask, Program.call_bind, Program.done_bind,
    Program.along_call]
  refine ⟨registerShape_call _ _ (by simp), ?_⟩
  rintro (e | _ | _)
  · exact herror _ _
  · simp only [Fallible.run_orFail_bind, Fallible.run_lift_bind, ask, User.new, Program.call_bind,
      Program.done_bind, Program.along_call, Program.pure_eq]
    refine ⟨registerShape_call _ _ (by simp), ?_⟩
    rintro (e | passwordHash)
    · exact herror _ _
    refine ⟨registerShape_call _ _ (by simp), fun id =>
      ⟨registerShape_call _ _ (by simp), fun now => ⟨⟨?_, by simp⟩, ?_⟩⟩⟩
    · intro user next hcall
      cases hcall
      exact ⟨by simp [Drawn], rfl, by simp [Inserted]⟩
    rintro (e | _)
    · exact herror _ _
    refine ⟨by simp, ?_⟩
    intro user hdone
    cases hdone
    exact ⟨by simp [Drawn], rfl, by simp [Inserted]⟩
  · exact herror _ _

end Registration

theorem registered_eq_some (thread : Thread AccountPorts (Except RegisterError User)) (user : User) :
    registered thread = some user ↔ thread.rest = .done (.ok user) := by
  unfold registered
  rcases thread.rest with (e | stored) | _ <;> simp

-- An insert into the map, if it takes place, finds no user of its email.
def EmailFree (env : AccountEnv) (world : AccountWorld) : AccountCall → Prop
  | .insert user => env.adapter = .inMemory → env.fault world.calls = none →
      ∀ row ∈ world.users, row.email ≠ user.email
  | _ => True

instance (env : AccountEnv) (world : AccountWorld) :
    (request : AccountCall) → Decidable (EmailFree env world request)
  | .insert user => inferInstanceAs (Decidable (env.adapter = .inMemory →
      env.fault world.calls = none → ∀ row ∈ world.users.rows, row.email ≠ user.email))
  | .findByEmail _ | .hash _ | .utcNow | .newUuid => isTrue trivial

def InsertsFree {ι : Type} (env : AccountEnv) (c : Registrations ι) (i : ι) : Prop :=
  (c.threads i).rest.Asks (EmailFree env c.store)

instance {ι : Type} (env : AccountEnv) (c : Registrations ι) (i : ι) :
    Decidable (InsertsFree env c i) := Program.decidableAsks _

section Uniqueness

variable {toLowercase : String → String} {env : AccountEnv} {ι : Type} {requests : ι → Credentials}

-- No two stored users have one email, and of the registrations for one email
-- at most one has succeeded.
structure OneAccount (toLowercase : String → String) (requests : ι → Credentials)
    (c : Registrations ι) : Prop where
  distinct : DistinctEmails c.store.users
  one : ∀ i j user user', registered (c.threads i) = some user →
    registered (c.threads j) = some user' →
    normalize toLowercase (requests i).email = normalize toLowercase (requests j).email → i = j

-- What holds between any two calls: an identifier is drawn once, and is stored
-- only by the registration that drew it, whose user then stays.
structure Registered (toLowercase : String → String) (env : AccountEnv)
    (requests : ι → Credentials) (c : Registrations ι) : Prop where
  distinct : DistinctEmails c.store.users
  undrawn : ∀ n, c.store.uuids ≤ n → ∀ row ∈ c.store.users, env.uuid n ≠ row.id
  drawn : ∀ i id, Drawn (c.threads i).past id → ∃ n < c.store.uuids, id = env.uuid n
  apart : ∀ i j id, Drawn (c.threads i).past id → Drawn (c.threads j).past id → i = j
  stored : ∀ i user, Inserted (c.threads i).past user → user ∈ c.store.users
  own : ∀ i id, Drawn (c.threads i).past id → ∀ row ∈ c.store.users, row.id = id →
    Inserted (c.threads i).past row
  threaded : c.Threaded fun i => RegisterShape toLowercase (requests i)

theorem Registered.oneAccount {c : Registrations ι} (h : Registered toLowercase env requests c) :
    OneAccount toLowercase requests c where
  distinct := h.distinct
  one i j user user' hi hj hemail := by
    rw [registered_eq_some] at hi hj
    obtain ⟨hdrawn, huser, hinserted⟩ := (h.threaded.here hi).success user rfl
    obtain ⟨hdrawn', huser', hinserted'⟩ := (h.threaded.here hj).success user' rfl
    have hsame : user = user' := List.inj_on_of_nodup_map h.distinct (h.stored i user hinserted)
      (h.stored j user' hinserted') (by rw [huser, huser', hemail])
    exact h.apart i j user.id hdrawn (hsame ▸ hdrawn')

theorem Registered.start {world : AccountWorld} (hdistinct : DistinctEmails world.users)
    (hstored : ∀ n, ∀ row ∈ world.users, env.uuid n ≠ row.id) :
    Registered toLowercase env requests (registrations toLowercase world requests) where
  distinct := hdistinct
  undrawn n _ := hstored n
  drawn := by simp [registrations, Config.start, Drawn]
  apart := by simp [registrations, Config.start, Drawn]
  stored := by simp [registrations, Config.start, Inserted]
  own := by simp [registrations, Config.start, Drawn]
  threaded := Config.threaded_start (fun i => register_shape toLowercase (requests i)) world

variable [DecidableEq ι]

-- An identifier that is drawn has not been drawn before.
theorem Registered.advance_drawn (huuid : Function.Injective env.uuid) {c : Registrations ι}
    (h : Registered toLowercase env requests c) (i : ι) (request : AccountCall)
    (next : request.Answer → Program AccountPorts (Except RegisterError User)) :
    (∀ j id, Drawn ((c.advance env.handle i request next).threads j).past id →
      ∃ n < (c.advance env.handle i request next).store.uuids, id = env.uuid n) ∧
    (∀ j k id, Drawn ((c.advance env.handle i request next).threads j).past id →
      Drawn ((c.advance env.handle i request next).threads k).past id → j = k) := by
  have huuids := @AccountEnv.handle_uuids_le env c.store request
  have hdrawn : ∀ j id, Drawn ((c.advance env.handle i request next).threads j).past id →
      Drawn (c.threads j).past id ∨
        j = i ∧ request = .newUuid ∧ id = env.uuid c.store.uuids := by
    intro j id hid
    rcases (Config.mem_advance_past _ _ _ _ _ _ _).mp hid with hid | ⟨hj, hevent⟩
    · exact Or.inl hid
    · cases request with
      | newUuid =>
          cases hevent
          exact Or.inr ⟨hj, rfl, rfl⟩
      | findByEmail | insert | hash | utcNow => cases congrArg Event.call hevent
  have hnew : ∀ j, ¬ Drawn (c.threads j).past (env.uuid c.store.uuids) := by
    intro j hid
    obtain ⟨n, hn, heq⟩ := h.drawn j _ hid
    have := huuid heq
    omega
  constructor
  · intro j id hid
    rcases hdrawn j id hid with hid | ⟨-, rfl, rfl⟩
    · obtain ⟨n, hn, heq⟩ := h.drawn j id hid
      exact ⟨n, Nat.lt_of_lt_of_le hn huuids, heq⟩
    · exact ⟨c.store.uuids, Nat.lt_succ_self _, rfl⟩
  · intro j k id hj hk
    rcases hdrawn j id hj with hold | ⟨rfl, -, rfl⟩
    · rcases hdrawn k id hk with hold' | ⟨rfl, -, rfl⟩
      · exact h.apart j k id hold hold'
      · exact absurd hold (hnew j)
    · rcases hdrawn k _ hk with hold' | ⟨rfl, -⟩
      · exact absurd hold' (hnew k)
      · rfl

theorem Registered.advance {c : Registrations ι} (huuid : Function.Injective env.uuid)
    (h : Registered toLowercase env requests c) {i : ι} {request : AccountCall}
    {next : request.Answer → Program AccountPorts (Except RegisterError User)}
    (hrest : (c.threads i).rest = .call request next) (hfree : EmailFree env c.store request) :
    Registered toLowercase env requests (c.advance env.handle i request next) := by
  obtain ⟨hdrawn, hapart⟩ := h.advance_drawn huuid i request next
  have huuids := @AccountEnv.handle_uuids_le env c.store request
  have hpast := fun j event => Config.mem_advance_past env.handle c i j request next event
  -- an identifier is drawn before this turn, unless this turn draws it
  have hearlier : ∀ j id, Drawn ((c.advance env.handle i request next).threads j).past id →
      Drawn (c.threads j).past id ∨ ∀ row ∈ c.store.users, row.id ≠ id := by
    intro j id hid
    rcases (hpast j _).mp hid with hid | ⟨-, hevent⟩
    · exact Or.inl hid
    · cases congrArg Event.call hevent
      cases hevent
      exact Or.inr fun row hrow heq => h.undrawn _ (Nat.le_refl _) row hrow heq.symm
  rcases AccountEnv.handle_users env c.store request with ⟨husers, hother⟩ |
    ⟨user, hevent, husers, hfault, hpostgres⟩
  · -- no user is inserted
    have hinserted : ∀ j row, Inserted ((c.advance env.handle i request next).threads j).past row ↔
        Inserted (c.threads j).past row := fun j row =>
      (hpast j _).trans (or_iff_left fun hnew => hother row hnew.2.symm)
    have hstore : (c.advance env.handle i request next).store.users = c.store.users := husers
    refine ⟨hstore ▸ h.distinct, ?_, hdrawn, hapart, ?_, ?_, h.threaded.advance hrest⟩
    · intro n hn
      rw [hstore]
      exact h.undrawn n (Nat.le_trans huuids hn)
    · intro j row hrow
      rw [hstore]
      exact h.stored j row ((hinserted j row).mp hrow)
    · intro j id hid row hrow hrowid
      rw [hstore] at hrow
      rcases hearlier j id hid with hid | hfresh
      · exact (hinserted j row).mpr (h.own j id hid row hrow hrowid)
      · exact absurd hrowid (hfresh row hrow)
  · -- the inserted user is new to the store, under an identifier only `i` has drawn
    cases congrArg Event.call hevent
    obtain ⟨hid, -, hfirst⟩ := (h.threaded.here hrest).insert user next rfl
    have hunstored : ∀ row ∈ c.store.users, row.id ≠ user.id := fun row hrow heq =>
      hfirst row (h.own i user.id hid row hrow heq)
    have hemail : ∀ row ∈ c.store.users, row.email ≠ user.email := by
      cases hadapter : env.adapter with
      | inMemory => exact hfree hadapter hfault
      | postgres => exact hpostgres hadapter
    have hmem : ∀ row, row ∈ (c.advance env.handle i (.insert user) next).store.users ↔
        row = user ∨ row ∈ c.store.users := by
      intro row
      rw [Config.advance_store, husers, Table.mem_insert]
      exact or_congr_right (and_iff_left_of_imp (hunstored row))
    refine ⟨?_, ?_, hdrawn, hapart, ?_, ?_, h.threaded.advance hrest⟩
    · rw [Config.advance_store, husers]
      exact Users.distinct_insert h.distinct hemail
    · intro n hn row hrow
      rcases (hmem row).mp hrow with rfl | hold
      · obtain ⟨m, hm, heq⟩ := h.drawn i _ hid
        rw [heq]
        intro hsame
        have := huuid hsame
        have := Nat.le_trans huuids hn
        omega
      · exact h.undrawn n (Nat.le_trans huuids hn) row hold
    · intro j row hrow
      rcases (hpast j _).mp hrow with hold | ⟨-, hnew⟩
      · exact (hmem row).mpr (Or.inr (h.stored j row hold))
      · rw [hevent] at hnew
        cases hnew
        exact (hmem user).mpr (Or.inl rfl)
    · intro j id hjd row hrow hrowid
      rcases hearlier j id hjd with hjd' | hfresh
      · rcases (hmem row).mp hrow with rfl | hold
        · obtain rfl := h.apart i j row.id hid (hrowid ▸ hjd')
          exact (hpast i _).mpr (Or.inr ⟨rfl, hevent.symm⟩)
        · exact (hpast j _).mpr (Or.inl (h.own j id hjd' row hold hrowid))
      · rcases (hmem row).mp hrow with rfl | hold
        · obtain rfl := hapart i j row.id ((hpast i _).mpr (Or.inl hid)) (hrowid ▸ hjd)
          exact (hpast i _).mpr (Or.inr ⟨rfl, hevent.symm⟩)
        · exact absurd hrowid (hfresh row hold)

-- An insert that the map takes beside a user of the same email breaks the
-- property at once.
theorem Registered.breaks {c : Registrations ι} (h : Registered toLowercase env requests c) {i : ι}
    {request : AccountCall}
    {next : request.Answer → Program AccountPorts (Except RegisterError User)}
    (hrest : (c.threads i).rest = .call request next) (hfree : ¬ EmailFree env c.store request) :
    ¬ DistinctEmails (c.advance env.handle i request next).store.users := by
  cases request with
  | insert user =>
      simp only [EmailFree] at hfree
      push Not at hfree
      obtain ⟨hadapter, hfault, row, hrow, hemail⟩ := hfree
      obtain ⟨hid, -, hfirst⟩ := (h.threaded.here hrest).insert user next rfl
      have hunstored : row.id ≠ user.id := fun heq =>
        hfirst row (h.own i user.id hid row hrow heq)
      rw [Config.advance_store, AccountEnv.handle, AccountEnv.attempt, hfault]
      simp only [Users.insert, hadapter]
      exact Users.not_distinct_insert hrow hunstored hemail
  | findByEmail | hash | utcNow | newUuid => exact absurd trivial hfree

-- The store keeps one user an email, and one registration an email succeeds, in
-- exactly the runs whose inserts into the map each find the email free.
theorem one_account (toLowercase : String → String) (requests : ι → Credentials)
    {world : AccountWorld} (hdistinct : DistinctEmails world.users)
    (hstored : ∀ n, ∀ row ∈ world.users, env.uuid n ≠ row.id)
    (huuid : Function.Injective env.uuid) (schedule : List ι) :
    Always (Config.step env.handle) (OneAccount toLowercase requests)
        (registrations toLowercase world requests) schedule ↔
      Permits (Config.step env.handle) (InsertsFree env)
        (registrations toLowercase world requests) schedule := by
  refine always_iff_permits (fun c (h : Registered toLowercase env requests c) => h.oneAccount)
    ?_ ?_ (Registered.start hdistinct hstored) (always_true _ _)
  · intro c i h _ hallowed
    cases hrest : (c.threads i).rest with
    | done value => rwa [Config.step_done _ _ _ _ hrest]
    | call request next =>
        rw [InsertsFree, hrest] at hallowed
        rw [Config.step_call _ _ _ _ _ hrest]
        exact h.advance huuid hrest hallowed
  · intro c i h _ hallowed
    cases hrest : (c.threads i).rest with
    | done value =>
        rw [InsertsFree, hrest] at hallowed
        exact absurd trivial hallowed
    | call request next =>
        rw [InsertsFree, hrest] at hallowed
        rw [Config.step_call _ _ _ _ _ hrest]
        exact fun hone => h.breaks hrest hallowed hone.distinct

end Uniqueness

-- An empty store, and two spellings of one email.
namespace Sample

def env (adapter : Adapter) : AccountEnv where
  adapter := adapter
  clock := Session.Sample.clock
  uuid := Session.Sample.uuid
  hashed n password := .ok ("$argon2id$" ++ toString n ++ "$" ++ password)
  fault _ := none

def world : AccountWorld where
  users := Table.empty
  calls := 0
  readings := 0
  uuids := 0
  hashes := 0

def requests : Bool → Credentials
  | false => ⟨"Ada@example.org ", "correct horse"⟩
  | true => ⟨"ada@example.org", "battery staple"⟩

end Sample

-- Both look the email up before either inserts.
theorem registered_twice :
    let raced := (registrations Session.Sample.prims.toLowercase Sample.world Sample.requests).run
      (Sample.env .inMemory).handle ([false, true] ++ List.replicate 4 false ++ List.replicate 4 true)
    ¬ DistinctEmails raced.store.users ∧ (registered (raced.threads false)).isSome ∧
      (registered (raced.threads true)).isSome := by
  decide +kernel

-- One after the other, the second finds the email taken.
theorem one_account_in_turn :
    Always (Config.step (Sample.env .inMemory).handle) (OneAccount Session.Sample.prims.toLowercase Sample.requests)
      (registrations Session.Sample.prims.toLowercase Sample.world Sample.requests)
      (List.replicate 5 false ++ [true]) := by
  refine (one_account Session.Sample.prims.toLowercase Sample.requests ?_ ?_
    Session.Sample.uuid_injective _).mpr (by decide +kernel)
  · exact List.nodup_nil
  · exact fun n row hrow => absurd hrow (Table.notMem_empty row)

end AgentBoilerplate.Account
