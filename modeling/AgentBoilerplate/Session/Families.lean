import AgentBoilerplate.Session.Sequential

namespace AgentBoilerplate.Session

open Effects Collections

-- Surroundings in which nothing fails and nothing is drawn twice.
structure SessionEnv.Faithful (env : SessionEnv) (prims : Primitives) : Prop where
  fault : ∀ n, env.fault n = none
  sha256 : Function.Injective prims.sha256
  uuid : Function.Injective env.uuid
  plaintext : Function.Injective env.plaintext

theorem SessionEnv.Faithful.hash_index {env : SessionEnv} {prims : Primitives}
    (henv : env.Faithful prims) {m n : Nat} {hash : String}
    (hm : hash = RefreshToken.hash prims (env.plaintext m))
    (hn : hash = RefreshToken.hash prims (env.plaintext n)) : m = n :=
  henv.plaintext (henv.sha256 (hm.symm.trans hn))

-- What holds between any two requests: a family has one user and at most one
-- live token, and all that is stored was drawn before.
structure Families (prims : Primitives) (env : SessionEnv) (tokens : RefreshTokens)
    (uuids plaintexts : Nat) : Prop where
  id : ∀ row ∈ tokens, ∃ n, n < uuids ∧ row.id = env.uuid n
  family : ∀ row ∈ tokens, ∃ n, n < uuids ∧ row.familyId = env.uuid n
  hash : ∀ row ∈ tokens, ∃ n, n < plaintexts ∧
    row.tokenHash = RefreshToken.hash prims (env.plaintext n)
  unique : ∀ a ∈ tokens, ∀ b ∈ tokens, a.tokenHash = b.tokenHash → a = b
  user : ∀ a ∈ tokens, ∀ b ∈ tokens, a.familyId = b.familyId → a.userId = b.userId
  live : ∀ a ∈ tokens, ∀ b ∈ tokens, a.familyId = b.familyId →
    a.consumedAt = none → b.consumedAt = none → a = b

namespace Families

variable {prims : Primitives} {env : SessionEnv} {tokens tokens' : RefreshTokens}
  {uuids uuids' plaintexts plaintexts' : Nat}

theorem empty : Families prims env Table.empty uuids plaintexts := by
  constructor <;> simp

theorem kept (h : Families prims env tokens uuids plaintexts)
    (hrows : ∀ row ∈ tokens', row ∈ tokens) (huuids : uuids ≤ uuids')
    (hplaintexts : plaintexts ≤ plaintexts') : Families prims env tokens' uuids' plaintexts' where
  id row hrow := by
    obtain ⟨n, hn, hid⟩ := h.id row (hrows row hrow)
    exact ⟨n, by omega, hid⟩
  family row hrow := by
    obtain ⟨n, hn, hfamily⟩ := h.family row (hrows row hrow)
    exact ⟨n, by omega, hfamily⟩
  hash row hrow := by
    obtain ⟨n, hn, hhash⟩ := h.hash row (hrows row hrow)
    exact ⟨n, by omega, hhash⟩
  unique a ha b hb := h.unique a (hrows a ha) b (hrows b hb)
  user a ha b hb := h.user a (hrows a ha) b (hrows b hb)
  live a ha b hb := h.live a (hrows a ha) b (hrows b hb)

theorem marked (h : Families prims env tokens uuids plaintexts) (id : Uuid) (at_ : Int) :
    Families prims env (tokens.markConsumed id at_) uuids plaintexts := by
  -- a row is an old one up to its mark
  have hold : ∀ row ∈ tokens.markConsumed id at_, ∃ old ∈ tokens,
      row = if old.id = id then { old with consumedAt := some at_ } else old :=
    fun row hrow => RefreshTokens.mem_markConsumed.mp hrow
  refine ⟨?_, ?_, ?_, ?_, ?_, ?_⟩
  · intro row hrow
    obtain ⟨old, hmem, rfl⟩ := hold row hrow
    simpa [apply_ite RefreshToken.id] using h.id old hmem
  · intro row hrow
    obtain ⟨old, hmem, rfl⟩ := hold row hrow
    simpa [apply_ite RefreshToken.familyId] using h.family old hmem
  · intro row hrow
    obtain ⟨old, hmem, rfl⟩ := hold row hrow
    simpa [apply_ite RefreshToken.tokenHash] using h.hash old hmem
  · intro a ha b hb heq
    obtain ⟨old, hmem, rfl⟩ := hold a ha
    obtain ⟨old', hmem', rfl⟩ := hold b hb
    rw [h.unique old hmem old' hmem' (by simpa [apply_ite RefreshToken.tokenHash] using heq)]
  · intro a ha b hb heq
    obtain ⟨old, hmem, rfl⟩ := hold a ha
    obtain ⟨old', hmem', rfl⟩ := hold b hb
    simpa [apply_ite RefreshToken.userId] using
      h.user old hmem old' hmem' (by simpa [apply_ite RefreshToken.familyId] using heq)
  · intro a ha b hb heq hlive hlive'
    rcases RefreshTokens.mem_markConsumed_cases ha with ⟨ha, -⟩ | ⟨_, -, -, rfl⟩
    · rcases RefreshTokens.mem_markConsumed_cases hb with ⟨hb, -⟩ | ⟨_, -, -, rfl⟩
      · exact h.live a ha b hb heq hlive hlive'
      · cases hlive'
    · cases hlive

-- A fresh record may join where its family has no live token left.
theorem inserted (henv : env.Faithful prims) (h : Families prims env tokens uuids plaintexts)
    {record : RefreshToken} {i : Nat} (hle : uuids ≤ i) (hlt : i < uuids')
    (hid : record.id = env.uuid i)
    (hhash : record.tokenHash = RefreshToken.hash prims (env.plaintext plaintexts))
    (hfamily : ∃ n, n < uuids' ∧ record.familyId = env.uuid n)
    (hjoin : ∀ row ∈ tokens, row.familyId = record.familyId →
      row.userId = record.userId ∧ row.consumedAt ≠ none) :
    Families prims env (Table.insert tokens record) uuids' (plaintexts + 1) := by
  have hrows : ∀ row ∈ Table.insert tokens record, row = record ∨ row ∈ tokens :=
    fun row hrow => (Table.mem_insert tokens record row).mp hrow |>.imp_right And.left
  have hfresh : ∀ row ∈ tokens, row.tokenHash ≠ record.tokenHash := by
    intro row hrow heq
    obtain ⟨n, hn, hrowhash⟩ := h.hash row hrow
    have := henv.hash_index hrowhash (heq.trans hhash)
    omega
  refine ⟨?_, ?_, ?_, ?_, ?_, ?_⟩
  · intro row hrow
    rcases hrows row hrow with rfl | hold
    · exact ⟨i, hlt, hid⟩
    · obtain ⟨n, hn, hrowid⟩ := h.id row hold
      exact ⟨n, by omega, hrowid⟩
  · intro row hrow
    rcases hrows row hrow with rfl | hold
    · exact hfamily
    · obtain ⟨n, hn, hrowfamily⟩ := h.family row hold
      exact ⟨n, by omega, hrowfamily⟩
  · intro row hrow
    rcases hrows row hrow with rfl | hold
    · exact ⟨plaintexts, by omega, hhash⟩
    · obtain ⟨n, hn, hrowhash⟩ := h.hash row hold
      exact ⟨n, by omega, hrowhash⟩
  · intro a ha b hb heq
    rcases hrows a ha with rfl | hold
    · rcases hrows b hb with rfl | hold
      · rfl
      · exact absurd heq.symm (hfresh b hold)
    · rcases hrows b hb with rfl | hold'
      · exact absurd heq (hfresh a hold)
      · exact h.unique a hold b hold' heq
  · intro a ha b hb heq
    rcases hrows a ha with rfl | hold
    · rcases hrows b hb with rfl | hold
      · rfl
      · exact (hjoin b hold heq.symm).1.symm
    · rcases hrows b hb with rfl | hold'
      · exact (hjoin a hold heq).1
      · exact h.user a hold b hold' heq
  · intro a ha b hb heq hlive hlive'
    rcases hrows a ha with rfl | hold
    · rcases hrows b hb with rfl | hold
      · rfl
      · exact absurd hlive' (hjoin b hold heq.symm).2
    · rcases hrows b hb with rfl | hold'
      · exact absurd hlive (hjoin a hold heq).2
      · exact h.live a hold b hold' heq hlive hlive'

theorem id_ne (henv : env.Faithful prims) (h : Families prims env tokens uuids plaintexts) {i : Nat}
    (hle : uuids ≤ i) {row : RefreshToken} (hrow : row ∈ tokens) : row.id ≠ env.uuid i := by
  intro heq
  obtain ⟨n, hn, hid⟩ := h.id row hrow
  have := henv.uuid (hid.symm.trans heq)
  omega

theorem family_ne (henv : env.Faithful prims) (h : Families prims env tokens uuids plaintexts)
    {i : Nat} (hle : uuids ≤ i) {row : RefreshToken} (hrow : row ∈ tokens) :
    row.familyId ≠ env.uuid i := by
  intro heq
  obtain ⟨n, hn, hfamily⟩ := h.family row hrow
  have := henv.uuid (hfamily.symm.trans heq)
  omega

theorem hash_ne (henv : env.Faithful prims) (h : Families prims env tokens uuids plaintexts)
    {i : Nat} (hle : plaintexts ≤ i) {row : RefreshToken} (hrow : row ∈ tokens) :
    row.tokenHash ≠ RefreshToken.hash prims (env.plaintext i) := by
  intro heq
  obtain ⟨n, hn, hhash⟩ := h.hash row hrow
  have := henv.hash_index hhash heq
  omega

end Families

-- Where the rows of a later state come from: an old row of the same hash and
-- family, or a hash drawn since, in a family drawn since or still stored then.
structure Follows (prims : Primitives) (env : SessionEnv) (world next : SessionWorld) : Prop where
  uuids : world.uuids ≤ next.uuids
  plaintexts : world.plaintexts ≤ next.plaintexts
  rows : ∀ row ∈ next.tokens,
    (∃ old ∈ world.tokens, old.tokenHash = row.tokenHash ∧ old.familyId = row.familyId) ∨
      (∃ n, world.plaintexts ≤ n ∧ row.tokenHash = RefreshToken.hash prims (env.plaintext n)) ∧
        ((∃ n, world.uuids ≤ n ∧ row.familyId = env.uuid n) ∨
          ∃ old ∈ world.tokens, old.familyId = row.familyId)

section Runs

variable {prims : Primitives} {env : SessionEnv} {ttlDays : Int} {world next last : SessionWorld}

theorem Follows.refl (world : SessionWorld) : Follows prims env world world where
  uuids := Nat.le_refl _
  plaintexts := Nat.le_refl _
  rows row hrow := Or.inl ⟨row, hrow, rfl, rfl⟩

theorem Follows.kept (huuids : world.uuids ≤ next.uuids)
    (hplaintexts : world.plaintexts ≤ next.plaintexts)
    (hrows : ∀ row ∈ next.tokens, row ∈ world.tokens) : Follows prims env world next where
  uuids := huuids
  plaintexts := hplaintexts
  rows row hrow := Or.inl ⟨row, hrows row hrow, rfl, rfl⟩

theorem Follows.trans (h : Follows prims env world next) (h' : Follows prims env next last) :
    Follows prims env world last where
  uuids := Nat.le_trans h.uuids h'.uuids
  plaintexts := Nat.le_trans h.plaintexts h'.plaintexts
  rows row hrow := by
    have hmid := h.plaintexts
    have hmid' := h.uuids
    -- the family of a row of the middle state is drawn since or stored before
    have hfamily : ∀ old ∈ next.tokens, old.familyId = row.familyId →
        (∃ n, world.uuids ≤ n ∧ row.familyId = env.uuid n) ∨
          ∃ old ∈ world.tokens, old.familyId = row.familyId := by
      intro old hold heq
      rcases h.rows old hold with ⟨first, hfirst, -, hfam⟩ | ⟨-, hfam⟩
      · exact Or.inr ⟨first, hfirst, hfam.trans heq⟩
      · rwa [heq] at hfam
    rcases h'.rows row hrow with ⟨old, hold, hhash, heq⟩ | ⟨⟨n, hn, hhash⟩, ⟨m, hm, hfam⟩ | hfam⟩
    · rcases h.rows old hold with ⟨first, hfirst, hhash', hfam⟩ | ⟨⟨n, hn, hhash'⟩, -⟩
      · exact Or.inl ⟨first, hfirst, hhash'.trans hhash, hfam.trans heq⟩
      · exact Or.inr ⟨⟨n, hn, hhash.symm.trans hhash'⟩, hfamily old hold heq⟩
    · exact Or.inr ⟨⟨n, by omega, hhash⟩, Or.inl ⟨m, by omega, hfam⟩⟩
    · obtain ⟨old, hold, heq⟩ := hfam
      exact Or.inr ⟨⟨n, by omega, hhash⟩, hfamily old hold heq⟩

def SessionWorld.Families (prims : Primitives) (env : SessionEnv) (world : SessionWorld) : Prop :=
  Session.Families prims env world.tokens world.uuids world.plaintexts

-- A world that keeps no other rows than before.
theorem serve_kept (h : world.Families prims env) (huuids : world.uuids ≤ next.uuids)
    (hplaintexts : world.plaintexts ≤ next.plaintexts)
    (hrows : ∀ row ∈ next.tokens, row ∈ world.tokens) :
    next.Families prims env ∧ Follows prims env world next :=
  ⟨Families.kept h hrows huuids hplaintexts, Follows.kept huuids hplaintexts hrows⟩

theorem serve_login (henv : env.Faithful prims) (h : world.Families prims env)
    (email password : String) :
    (env.serve prims ttlDays world (.login email password)).2.Families prims env ∧
      Follows prims env world (env.serve prims ttlDays world (.login email password)).2 := by
  cases huser : world.users.rows.find? (fun user => user.email = prims.toLowercase (trim email)) with
  | none =>
      rw [serve_login_stranger henv.fault huser]
      exact serve_kept h (Nat.le_refl _) (Nat.le_refl _) fun row hrow => hrow
  | some user =>
      cases hverify : prims.verify password user.passwordHash with
      | false =>
          rw [serve_login_wrong henv.fault huser hverify]
          exact serve_kept h (Nat.le_refl _) (Nat.le_refl _) fun row hrow => hrow
      | true =>
          have hfamily : ∀ row ∈ world.tokens, row.familyId ≠ env.uuid world.uuids :=
            fun row hrow => h.family_ne henv (Nat.le_refl _) hrow
          rw [serve_login_ok henv.fault huser hverify rfl
            fun row hrow => ⟨h.id_ne henv (Nat.le_succ _) hrow, h.hash_ne henv (Nat.le_refl _) hrow⟩]
          refine ⟨Families.inserted henv h (Nat.le_succ _) (Nat.lt_succ_self _) rfl rfl
            ⟨world.uuids, by simp, rfl⟩ fun row hrow heq => absurd heq (hfamily row hrow), ?_⟩
          refine ⟨by simp, by simp, fun row hrow => ?_⟩
          rcases (Table.mem_insert _ _ _).mp hrow with rfl | ⟨hold, -⟩
          · exact Or.inr ⟨⟨_, Nat.le_refl _, rfl⟩, Or.inl ⟨_, Nat.le_refl _, rfl⟩⟩
          · exact Or.inl ⟨row, hold, rfl, rfl⟩

theorem serve_rotate (henv : env.Faithful prims) (h : world.Families prims env)
    (presented : String) :
    (env.serve prims ttlDays world (.rotate presented)).2.Families prims env ∧
      Follows prims env world (env.serve prims ttlDays world (.rotate presented)).2 := by
  cases hfound : world.tokens.findByHash (RefreshToken.hash prims presented) with
  | none =>
      rw [serve_rotate_unknown henv.fault hfound]
      exact serve_kept h (Nat.le_refl _) (Nat.le_refl _) fun row hrow => hrow
  | some stored =>
      cases hconsumed : stored.isConsumed with
      | true =>
          obtain ⟨events, hserve⟩ := serve_rotate_reuse henv.fault ttlDays hfound
            hconsumed
          rw [hserve]
          exact serve_kept h (Nat.le_succ _) (Nat.le_refl _)
            fun row hrow => (RefreshTokens.mem_deleteFamily.mp hrow).1
      | false =>
          cases hexpired : stored.isExpired (env.clock world.readings) with
          | true =>
              rw [serve_rotate_expired henv.fault hfound hconsumed hexpired]
              exact serve_kept h (Nat.le_refl _) (Nat.le_refl _)
                fun row hrow => (RefreshTokens.mem_delete.mp hrow).1
          | false =>
              have hstored := (RefreshTokens.findByHash_eq_some hfound).1
              have hlive : stored.consumedAt = none := by
                simpa [RefreshToken.isConsumed] using hconsumed
              rw [serve_rotate_live henv.fault hfound hconsumed hexpired rfl
                fun row hrow => ⟨h.id_ne henv (Nat.le_refl _) hrow,
                  h.hash_ne henv (Nat.le_refl _) hrow⟩]
              obtain ⟨n, hn, hfamily⟩ := h.family stored hstored
              refine ⟨Families.inserted henv (h.marked _ _) (Nat.le_refl _) (Nat.lt_succ_self _)
                rfl rfl ⟨n, Nat.lt_succ_of_lt hn, hfamily⟩ ?_, ?_⟩
              · -- the marked token was the live one of the family
                intro row hrow heq
                rcases RefreshTokens.mem_markConsumed_cases hrow with
                  ⟨hold, hne⟩ | ⟨old, hold, -, rfl⟩
                · refine ⟨h.user row hold stored hstored heq, fun hnone => hne ?_⟩
                  rw [h.live row hold stored hstored heq hnone hlive]
                · exact ⟨h.user old hold stored hstored heq, by simp⟩
              · refine ⟨by simp, by simp, fun row hrow => ?_⟩
                rcases (Table.mem_insert _ _ _).mp hrow with rfl | ⟨hmarked, -⟩
                · exact Or.inr ⟨⟨_, Nat.le_refl _, rfl⟩, Or.inr ⟨stored, hstored, rfl⟩⟩
                · rcases RefreshTokens.mem_markConsumed_cases hmarked with
                    ⟨hold, -⟩ | ⟨old, hold, -, rfl⟩
                  · exact Or.inl ⟨row, hold, rfl, rfl⟩
                  · exact Or.inl ⟨old, hold, rfl, rfl⟩

-- What one request keeps.
theorem serve_step (ttlDays : Int) (henv : env.Faithful prims) (h : world.Families prims env) (op : SessionOp) :
    (env.serve prims ttlDays world op).2.Families prims env ∧
      Follows prims env world (env.serve prims ttlDays world op).2 := by
  cases op with
  | login email password => exact serve_login henv h email password
  | rotate presented => exact serve_rotate henv h presented
  | revoke presented =>
      cases hfound : world.tokens.findByHash (RefreshToken.hash prims presented) with
      | none =>
          rw [serve_revoke_unknown henv.fault hfound]
          exact serve_kept h (Nat.le_refl _) (Nat.le_refl _) fun row hrow => hrow
      | some stored =>
          rw [serve_revoke_stored henv.fault hfound]
          exact serve_kept h (Nat.le_refl _) (Nat.le_refl _)
            fun row hrow => (RefreshTokens.mem_deleteFamily.mp hrow).1
  | purgeExpired =>
      obtain ⟨count, hserve⟩ := serve_purgeExpired henv.fault prims ttlDays world
      rw [hserve]
      exact serve_kept h (Nat.le_refl _) (Nat.le_refl _)
        fun row hrow => (RefreshTokens.mem_deleteExpired.mp hrow).1

-- What a run of requests keeps.
theorem served_run (ttlDays : Int) (henv : env.Faithful prims) (h : world.Families prims env)
    (ops : List SessionOp) :
    (env.served prims ttlDays world ops).Families prims env ∧
      Follows prims env world (env.served prims ttlDays world ops) := by
  induction ops generalizing world with
  | nil => exact ⟨h, Follows.refl world⟩
  | cons op ops ih =>
      obtain ⟨hfamilies, hfollows⟩ := serve_step ttlDays henv h op
      obtain ⟨hlast, hrest⟩ := ih hfamilies
      exact ⟨hlast, hfollows.trans hrest⟩

end Runs

end AgentBoilerplate.Session
