import AgentBoilerplate.Session.Sequential

namespace AgentBoilerplate.Session

open Effects Collections

variable {prims : Primitives} {env : SessionEnv} {ttlDays : Int} {presented : String}
  {world : SessionWorld} {stored : RefreshToken}

namespace RefreshTokens

theorem findByHash_markConsumed {tokens : RefreshTokens} {hash : String} {id : Uuid} {at_ : Int}
    (h : tokens.findByHash hash = some stored) (hid : stored.id = id) :
    (tokens.markConsumed id at_).findByHash hash = some { stored with consumedAt := some at_ } := by
  unfold findByHash at h
  have hsame : (fun row : RefreshToken => decide (row.tokenHash = hash)) ∘
      (fun row => if row.id = id then { row with consumedAt := some at_ } else row) =
      fun row => decide (row.tokenHash = hash) := by
    funext row
    simp only [Function.comp_apply]
    split <;> rfl
  simp only [findByHash, markConsumed, Table.modify, List.find?_map, hsame, h, Option.map_some, hid,
    if_true]

-- A row in front of the found one that the insertion replaces did not carry the hash.
theorem findByHash_tableInsert {tokens : RefreshTokens} {hash : String} {record : RefreshToken}
    (h : tokens.findByHash hash = some stored) (hne : stored.id ≠ record.id) :
    RefreshTokens.findByHash (Table.insert tokens record) hash = some stored := by
  have hfilter : ∀ rows : List RefreshToken,
      (rows.find? fun row => decide (row.tokenHash = hash)) = some stored →
      ((rows.filter fun row => row.id ≠ record.id).find? fun row =>
        decide (row.tokenHash = hash)) = some stored := by
    intro rows
    induction rows with
    | nil => exact id
    | cons row rows ih =>
        intro hfind
        by_cases hhash : row.tokenHash = hash
        · obtain rfl : row = stored := by simpa [hhash] using hfind
          simp [hne, hhash]
        · have hrest : (rows.find? fun row => decide (row.tokenHash = hash)) = some stored := by
            simpa [hhash] using hfind
          by_cases hid : row.id = record.id
          · simpa [hid] using ih hrest
          · simpa [hid, hhash] using ih hrest
  simp only [findByHash, Table.insert, List.find?_append, hfilter _ h, Option.some_or]

-- Marking and inserting in a family take no row of it away.
theorem mem_family_markConsumed {tokens : RefreshTokens} {row : RefreshToken} (h : row ∈ tokens)
    (id : Uuid) (at_ : Int) :
    ∃ row' ∈ tokens.markConsumed id at_, row'.id = row.id ∧ row'.familyId = row.familyId := by
  refine ⟨_, mem_markConsumed.mpr ⟨row, h, rfl⟩, ?_⟩
  split <;> exact ⟨rfl, rfl⟩

theorem mem_family_insert {tokens : RefreshTokens} {row record : RefreshToken} (h : row ∈ tokens)
    (hfamily : row.familyId = record.familyId) (adapter : Adapter) :
    ∃ row' ∈ (tokens.insert adapter record).2, row'.id = row.id ∧ row'.familyId = row.familyId := by
  have hreplaced : ∃ row' ∈ Table.insert tokens record,
      row'.id = row.id ∧ row'.familyId = row.familyId := by
    by_cases hid : row.id = record.id
    · exact ⟨record, (Table.mem_insert _ _ _).mpr (Or.inl rfl), hid.symm, hfamily.symm⟩
    · exact ⟨row, (Table.mem_insert _ _ _).mpr (Or.inr ⟨h, hid⟩), rfl, rfl⟩
  cases adapter with
  | inMemory => exact hreplaced
  | postgres =>
      simp only [insert]
      split
      · exact ⟨row, h, rfl, rfl⟩
      · exact hreplaced

end RefreshTokens

-- A rotate of a live token, call by call: the lookup or the mark fails and
-- nothing changes, or the token is marked and the rest can fail or not.
section Live

variable (hfound : world.tokens.findByHash (RefreshToken.hash prims presented) = some stored)
  (hconsumed : stored.isConsumed = false)
  (hlive : stored.isExpired (env.clock world.readings) = false)

theorem serve_rotate_unread {e : PortError} (ttlDays : Int) (presented : String)
    (hfault : env.fault world.calls = some e) :
    env.serve prims ttlDays world (.rotate presented) =
      (.rotate (.error (.infrastructure e)), { world with calls := world.calls + 1 }) := by
  simp [SessionEnv.serve, SessionOp.program, rotate, SessionEnv.handle, SessionEnv.attempt, hfault]

include hfound hconsumed hlive

theorem serve_rotate_unmarked {e : PortError} (ttlDays : Int)
    (hread : env.fault world.calls = none) (hmark : env.fault (world.calls + 1) = some e) :
    env.serve prims ttlDays world (.rotate presented) =
      (.rotate (.error (.infrastructure e)), { world with
        calls := world.calls + 2
        readings := world.readings + 2 }) := by
  simp [SessionEnv.serve, SessionOp.program, rotate, SessionEnv.handle, SessionEnv.attempt, hread,
    hmark, hfound, hconsumed, hlive]

theorem serve_rotate_marked (ttlDays : Int)
    (hread : env.fault world.calls = none) (hmark : env.fault (world.calls + 1) = none) :
    ∃ record : RefreshToken, record.id = env.uuid world.uuids ∧ record.familyId = stored.familyId ∧
      ((env.serve prims ttlDays world (.rotate presented)).2.tokens =
          world.tokens.markConsumed stored.id (env.clock (world.readings + 1)) ∨
        (env.serve prims ttlDays world (.rotate presented)).2.tokens =
          ((world.tokens.markConsumed stored.id (env.clock (world.readings + 1))).insert
            env.adapter record).2) ∧
      (env.serve prims ttlDays world (.rotate presented)).2.events = world.events := by
  obtain ⟨record, hrecord⟩ : ∃ record, record = RefreshToken.issued prims ttlDays stored.userId
    stored.familyId (env.uuid world.uuids) (env.plaintext world.plaintexts)
    (env.clock (world.readings + 2)) := ⟨_, rfl⟩
  refine ⟨record, by rw [hrecord]; rfl, by rw [hrecord]; rfl, ?_⟩
  unfold RefreshToken.issued at hrecord
  cases hinsert : env.fault (world.calls + 2) with
  | some e =>
      simp [SessionEnv.serve, SessionOp.program, rotate, SessionEnv.handle, SessionEnv.attempt,
        hread, hmark, hinsert, hfound, hconsumed, hlive]
  | none =>
      obtain ⟨tokens, htokens⟩ : ∃ tokens, tokens =
        world.tokens.markConsumed stored.id (env.clock (world.readings + 1)) := ⟨_, rfl⟩
      rcases hrow : tokens.insert env.adapter record with ⟨e | _, rows⟩
      · subst hrecord htokens
        simp [SessionEnv.serve, SessionOp.program, rotate, SessionEnv.handle, SessionEnv.attempt,
          hread, hmark, hinsert, hfound, hconsumed, hlive, hrow]
      · subst hrecord htokens
        cases hissue : env.fault (world.calls + 3) <;>
          simp [SessionEnv.serve, SessionOp.program, rotate, SessionEnv.handle, SessionEnv.attempt,
            hread, hmark, hinsert, hissue, hfound, hconsumed, hlive, hrow]

end Live

-- The family of `stored` survives one more presentation of its token, in any
-- surroundings of the same database, before the token expires.
def Retryable (prims : Primitives) (ttlDays : Int) (presented : String) (adapter : Adapter)
    (stored : RefreshToken) (world : SessionWorld) : Prop :=
  ∀ env : SessionEnv, env.adapter = adapter →
    stored.isExpired (env.clock world.readings) = false →
    (env.serve prims ttlDays world (.rotate presented)).2.events = world.events ∧
      ∀ row ∈ world.tokens, row.familyId = stored.familyId →
        ∃ row' ∈ (env.serve prims ttlDays world (.rotate presented)).2.tokens,
          row'.id = row.id ∧ row'.familyId = stored.familyId

theorem Retryable.of_live (adapter : Adapter)
    (hfound : world.tokens.findByHash (RefreshToken.hash prims presented) = some stored)
    (hconsumed : stored.isConsumed = false) :
    Retryable prims ttlDays presented adapter stored world := by
  intro env _ hlive
  cases hread : env.fault world.calls with
  | some e =>
      rw [serve_rotate_unread ttlDays presented hread]
      exact ⟨rfl, fun row hrow hfamily => ⟨row, hrow, rfl, hfamily⟩⟩
  | none =>
    cases hmark : env.fault (world.calls + 1) with
    | some e =>
        rw [serve_rotate_unmarked hfound hconsumed hlive ttlDays hread hmark]
        exact ⟨rfl, fun row hrow hfamily => ⟨row, hrow, rfl, hfamily⟩⟩
    | none =>
        obtain ⟨record, -, hrecord, htokens, hevents⟩ :=
          serve_rotate_marked hfound hconsumed hlive ttlDays hread hmark
        refine ⟨hevents, fun row hrow hfamily => ?_⟩
        obtain ⟨marked, hmarked, hid, hkept⟩ := RefreshTokens.mem_family_markConsumed hrow
          stored.id (env.clock (world.readings + 1))
        rcases htokens with htokens | htokens
        · rw [htokens]
          exact ⟨marked, hmarked, hid, hkept.trans hfamily⟩
        · rw [htokens]
          obtain ⟨row', hrow', hid', hkept'⟩ := RefreshTokens.mem_family_insert hmarked
            ((hkept.trans hfamily).trans hrecord.symm) env.adapter
          exact ⟨row', hrow', hid'.trans hid, hkept'.trans (hkept.trans hfamily)⟩

-- Where no port fails, a consumed token takes its own row away with the family.
theorem not_retryable_of_consumed {adapter : Adapter} {consumed : RefreshToken}
    (hfound : world.tokens.findByHash (RefreshToken.hash prims presented) = some consumed)
    (hfamily : consumed.familyId = stored.familyId) (hconsumed : consumed.isConsumed = true) :
    ¬ Retryable prims ttlDays presented adapter stored world := by
  intro h
  obtain ⟨env, hadapter, hclock, hfault⟩ : ∃ env : SessionEnv, env.adapter = adapter ∧
      (∀ n, env.clock n = stored.expiresAt - 1) ∧ ∀ n, env.fault n = none :=
    ⟨{ adapter, clock := fun _ => stored.expiresAt - 1, uuid := fun _ => stored.id,
       plaintext := fun _ => presented, accessToken := fun _ => presented,
       fault := fun _ => none }, rfl, fun _ => rfl, fun _ => rfl⟩
  have hlive : stored.isExpired (env.clock world.readings) = false := by
    have hbefore : ¬ stored.expiresAt ≤ stored.expiresAt - 1 := by omega
    simp [RefreshToken.isExpired, hclock, hbefore]
  obtain ⟨-, hkept⟩ := h env hadapter hlive
  obtain ⟨events, hreuse⟩ := serve_rotate_reuse hfault ttlDays hfound hconsumed
  obtain ⟨row, hrow, -, hmem⟩ := hkept consumed (RefreshTokens.findByHash_eq_some hfound).1 hfamily
  rw [hreuse] at hrow
  exact (RefreshTokens.mem_deleteFamily.mp hrow).2 (hmem.trans hfamily.symm)

-- An infrastructure error leaves the token retryable exactly where the lookup
-- or the mark failed: past the mark the token is consumed, and no successor
-- has reached the client.
theorem retryable_iff
    (hfound : world.tokens.findByHash (RefreshToken.hash prims presented) = some stored)
    (hconsumed : stored.isConsumed = false)
    (hlive : stored.isExpired (env.clock world.readings) = false)
    (hfresh : env.uuid world.uuids ≠ stored.id) (e : PortError)
    (_ : (env.serve prims ttlDays world (.rotate presented)).1 =
      .rotate (.error (.infrastructure e))) :
    Retryable prims ttlDays presented env.adapter stored
        (env.serve prims ttlDays world (.rotate presented)).2 ↔
      (env.fault world.calls).isSome ∨ (env.fault (world.calls + 1)).isSome := by
  cases hread : env.fault world.calls with
  | some e =>
      rw [serve_rotate_unread ttlDays presented hread]
      exact ⟨fun _ => Or.inl rfl, fun _ => Retryable.of_live _ hfound hconsumed⟩
  | none =>
    cases hmark : env.fault (world.calls + 1) with
    | some e =>
        rw [serve_rotate_unmarked hfound hconsumed hlive ttlDays hread hmark]
        exact ⟨fun _ => Or.inr rfl, fun _ => Retryable.of_live _ hfound hconsumed⟩
    | none =>
        refine ⟨fun h => ?_, fun h => by simp at h⟩
        exfalso
        obtain ⟨record, hid, -, htokens, -⟩ :=
          serve_rotate_marked hfound hconsumed hlive ttlDays hread hmark
        obtain ⟨marked, hconsumed', hfamily, hmarked⟩ : ∃ marked : RefreshToken,
            marked.isConsumed = true ∧ marked.familyId = stored.familyId ∧
            (world.tokens.markConsumed stored.id (env.clock (world.readings + 1))).findByHash
              (RefreshToken.hash prims presented) = some marked ∧ marked.id = stored.id :=
          ⟨{ stored with consumedAt := some (env.clock (world.readings + 1)) }, rfl, rfl,
            RefreshTokens.findByHash_markConsumed hfound rfl, rfl⟩
        have hne : marked.id ≠ record.id := fun h => hfresh ((hmarked.2.symm.trans h).trans hid).symm
        refine not_retryable_of_consumed ?_ hfamily hconsumed' h
        rcases htokens with htokens | htokens
        · rw [htokens]
          exact hmarked.1
        · rw [htokens]
          cases hadapter : env.adapter with
          | inMemory => exact RefreshTokens.findByHash_tableInsert hmarked.1 hne
          | postgres =>
              simp only [RefreshTokens.insert]
              split
              · exact hmarked.1
              · exact RefreshTokens.findByHash_tableInsert hmarked.1 hne

-- An outage at the access token, or at the insertion of the successor: the
-- client has no new token, and its next try revokes the login.
def Sample.outage (adapter : Adapter) (call : Nat) : SessionEnv :=
  { Sample.env adapter with fault := fun n => if n = call then some ⟨"connection refused"⟩ else none }

theorem outage_revokes_family :
    ((Sample.outage .postgres 3).serve Sample.prims 30 Sample.world (.rotate Sample.presented)).1 =
        .rotate (.error (.infrastructure ⟨"connection refused"⟩)) ∧
      ¬ Retryable Sample.prims 30 Sample.presented .postgres Sample.token
        ((Sample.outage .postgres 3).serve Sample.prims 30 Sample.world
          (.rotate Sample.presented)).2 := by
  refine ⟨by rfl, fun h => ?_⟩
  obtain ⟨row, hrow, hfamily⟩ : ∃ row ∈ ((Sample.outage .postgres 3).serve Sample.prims 30
      Sample.world (.rotate Sample.presented)).2.tokens.rows,
      row.familyId = Sample.token.familyId := by decide +kernel
  obtain ⟨-, hkept⟩ := h (Sample.env .postgres) rfl (by decide +kernel)
  obtain ⟨row', hrow', -⟩ := hkept row hrow hfamily
  have hrevoked : ((Sample.env .postgres).serve Sample.prims 30
      ((Sample.outage .postgres 3).serve Sample.prims 30 Sample.world (.rotate Sample.presented)).2
      (.rotate Sample.presented)).2.tokens.rows = [] := by rfl
  rw [Table.mem_def, hrevoked] at hrow'
  exact List.not_mem_nil hrow'

theorem outage_retryable :
    Retryable Sample.prims 30 Sample.presented .postgres Sample.token
      ((Sample.outage .postgres 1).serve Sample.prims 30 Sample.world
        (.rotate Sample.presented)).2 := by
  refine (@retryable_iff Sample.prims (Sample.outage .postgres 1) 30 Sample.presented Sample.world
    Sample.token (by rfl) (by rfl) (by decide +kernel) ?_ ⟨"connection refused"⟩ (by rfl)).mpr
    (Or.inr rfl)
  exact Sample.uuid_ne_token _

end AgentBoilerplate.Session
