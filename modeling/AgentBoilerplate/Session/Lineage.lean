import AgentBoilerplate.Session.Families

namespace AgentBoilerplate.Session

open Effects Collections

section Lineage

variable {prims : Primitives} {env : SessionEnv} {ttlDays : Int} {world next : SessionWorld}

-- The presented token is the only row with its hash, so it is the one found.
theorem finds (h : world.Families prims env) {presented : String} {token : RefreshToken}
    (htoken : token ∈ world.tokens) (hhash : token.tokenHash = RefreshToken.hash prims presented) :
    world.tokens.findByHash (RefreshToken.hash prims presented) = some token := by
  cases hfound : world.tokens.findByHash (RefreshToken.hash prims presented) with
  | none =>
      exact absurd hhash ((RefreshTokens.findByHash_eq_none _ _).mp hfound token htoken)
  | some stored =>
      obtain ⟨hstored, hhash'⟩ := RefreshTokens.findByHash_eq_some hfound
      rw [h.unique stored hstored token htoken (hhash'.trans hhash.symm)]

theorem rotate_succeeds_iff (henv : env.Faithful prims) (h : world.Families prims env)
    (presented : String) :
    (env.serve prims ttlDays world (.rotate presented)).1.rotated = true ↔
      ∃ token ∈ world.tokens, token.tokenHash = RefreshToken.hash prims presented ∧
        token.consumedAt = none ∧ env.clock world.readings < token.expiresAt := by
  constructor
  · intro hrotated
    cases hfound : world.tokens.findByHash (RefreshToken.hash prims presented) with
    | none =>
        rw [serve_rotate_unknown henv.fault hfound] at hrotated
        cases hrotated
    | some stored =>
        cases hconsumed : stored.isConsumed with
        | true =>
            obtain ⟨events, hserve⟩ := serve_rotate_reuse henv.fault ttlDays hfound
              hconsumed
            rw [hserve] at hrotated
            cases hrotated
        | false =>
            cases hexpired : stored.isExpired (env.clock world.readings) with
            | true =>
                rw [serve_rotate_expired henv.fault hfound hconsumed hexpired] at hrotated
                cases hrotated
            | false =>
                obtain ⟨hstored, hhash⟩ := RefreshTokens.findByHash_eq_some hfound
                exact ⟨stored, hstored, hhash, by simpa [RefreshToken.isConsumed] using hconsumed,
                  by simpa [RefreshToken.isExpired] using hexpired⟩
  · rintro ⟨token, htoken, hhash, hlive, hunexpired⟩
    rw [serve_rotate_live henv.fault (finds h htoken hhash) (by simp [RefreshToken.isConsumed, hlive])
      (by simpa [RefreshToken.isExpired] using hunexpired) rfl
      fun row hrow => ⟨h.id_ne henv (Nat.le_refl _) hrow, h.hash_ne henv (Nat.le_refl _) hrow⟩]
    rfl

theorem rotate_consumed (henv : env.Faithful prims) (h : world.Families prims env)
    {presented : String} {token : RefreshToken} (htoken : token ∈ world.tokens)
    (hhash : token.tokenHash = RefreshToken.hash prims presented)
    (hconsumed : token.consumedAt ≠ none) :
    (env.serve prims ttlDays world (.rotate presented)).1 = .rotate (.error .invalidToken) ∧
      ∀ row, row ∈ (env.serve prims ttlDays world (.rotate presented)).2.tokens ↔
        row ∈ world.tokens ∧ row.familyId ≠ token.familyId := by
  obtain ⟨events, hserve⟩ := serve_rotate_reuse henv.fault ttlDays
    (finds h htoken hhash) (by simpa [RefreshToken.isConsumed, Option.isSome_iff_ne_none])
  rw [hserve]
  exact ⟨rfl, fun row => RefreshTokens.mem_deleteFamily⟩

-- A logout with any token of a family, or the reuse of a consumed one.
def Closes (prims : Primitives) (token : RefreshToken) (op : SessionOp) : Prop :=
  ∃ presented, token.tokenHash = RefreshToken.hash prims presented ∧
    (op = .revoke presented ∨ op = .rotate presented ∧ token.consumedAt ≠ none)

-- The family was drawn, and none of its tokens is stored.
def Gone (env : SessionEnv) (familyId : Uuid) (world : SessionWorld) : Prop :=
  (∃ n, n < world.uuids ∧ familyId = env.uuid n) ∧ ∀ row ∈ world.tokens, row.familyId ≠ familyId

theorem Closes.gone (henv : env.Faithful prims) (h : world.Families prims env)
    {token : RefreshToken} (htoken : token ∈ world.tokens) {op : SessionOp}
    (hcloses : Closes prims token op) :
    Gone env token.familyId (env.serve prims ttlDays world op).2 := by
  obtain ⟨n, hn, hfamily⟩ := h.family token htoken
  refine ⟨⟨n, Nat.lt_of_lt_of_le hn (serve_step ttlDays henv h op).2.uuids, hfamily⟩, ?_⟩
  obtain ⟨presented, hhash, rfl | ⟨rfl, hconsumed⟩⟩ := hcloses
  · rw [serve_revoke_stored henv.fault (finds h htoken hhash)]
    exact fun row hrow => (RefreshTokens.mem_deleteFamily.mp hrow).2
  · exact fun row hrow => (((rotate_consumed henv h htoken hhash hconsumed).2 row).mp hrow).2

theorem Gone.follows (henv : env.Faithful prims) {familyId : Uuid} (h : Gone env familyId world)
    (hfollows : Follows prims env world next) : Gone env familyId next := by
  obtain ⟨⟨n, hn, rfl⟩, hgone⟩ := h
  refine ⟨⟨n, Nat.lt_of_lt_of_le hn hfollows.uuids, rfl⟩, fun row hrow heq => ?_⟩
  rcases hfollows.rows row hrow with ⟨old, hold, -, hfam⟩ | ⟨-, ⟨m, hm, hfam⟩ | ⟨old, hold, hfam⟩⟩
  · exact hgone old hold (hfam.trans heq)
  · have := henv.uuid (heq.symm.trans hfam)
    omega
  · exact hgone old hold (hfam.trans heq)

-- A token issued in a family that is gone is not stored, under any family.
theorem Gone.rotate_fails (henv : env.Faithful prims) {issued : SessionWorld}
    (hissued : issued.Families prims env) (h : world.Families prims env)
    (hfollows : Follows prims env issued world) {row : RefreshToken} (hrow : row ∈ issued.tokens)
    (hgone : Gone env row.familyId world) {presented : String}
    (hhash : row.tokenHash = RefreshToken.hash prims presented) :
    (env.serve prims ttlDays world (.rotate presented)).1.rotated = false := by
  rw [Bool.eq_false_iff, Ne, rotate_succeeds_iff henv h]
  rintro ⟨token, htoken, htokenhash, -, -⟩
  rcases hfollows.rows token htoken with ⟨old, hold, heq, hfam⟩ | ⟨⟨n, hn, hindex⟩, -⟩
  · obtain rfl := hissued.unique old hold row hrow (heq.trans (htokenhash.trans hhash.symm))
    exact hgone.2 token htoken hfam.symm
  · exact hissued.hash_ne henv hn hrow (hhash.trans (htokenhash.symm.trans hindex))

end Lineage

theorem served_append (env : SessionEnv) (prims : Primitives) (ttlDays : Int)
    (world : SessionWorld) (before after : List SessionOp) :
    env.served prims ttlDays world (before ++ after) =
      env.served prims ttlDays (env.served prims ttlDays world before) after :=
  List.foldl_append

-- Token families over whole runs of requests, from a store without tokens.
theorem refresh_families {prims : Primitives} {env : SessionEnv} (henv : env.Faithful prims)
    (ttlDays : Int) {start : SessionWorld} (hstart : start.tokens = Table.empty)
    (before : List SessionOp) :
    let now := env.served prims ttlDays start before
    (∀ a ∈ now.tokens, ∀ b ∈ now.tokens, a.familyId = b.familyId →
      a.userId = b.userId ∧ (a.consumedAt = none → b.consumedAt = none → a = b)) ∧
    (∀ presented, (env.serve prims ttlDays now (.rotate presented)).1.rotated = true ↔
      ∃ token ∈ now.tokens, token.tokenHash = RefreshToken.hash prims presented ∧
        token.consumedAt = none ∧ env.clock now.readings < token.expiresAt) ∧
    (∀ presented, ∀ token ∈ now.tokens, token.tokenHash = RefreshToken.hash prims presented →
      token.consumedAt ≠ none →
        (env.serve prims ttlDays now (.rotate presented)).1 = .rotate (.error .invalidToken) ∧
        ∀ row, row ∈ (env.serve prims ttlDays now (.rotate presented)).2.tokens ↔
          row ∈ now.tokens ∧ row.familyId ≠ token.familyId) ∧
    ∀ token ∈ now.tokens, ∀ op after, Closes prims token op →
      ∀ issued, issued <+: before ++ op :: after →
        ∀ row ∈ (env.served prims ttlDays start issued).tokens, row.familyId = token.familyId →
          ∀ presented, row.tokenHash = RefreshToken.hash prims presented →
            (env.serve prims ttlDays (env.served prims ttlDays start (before ++ op :: after))
              (.rotate presented)).1.rotated = false := by
  intro now
  have hempty : start.Families prims env := by
    unfold SessionWorld.Families
    rw [hstart]
    exact Families.empty
  have hnow : now.Families prims env := (served_run ttlDays henv hempty before).1
  refine ⟨fun a ha b hb heq => ⟨hnow.user a ha b hb heq, hnow.live a ha b hb heq⟩,
    rotate_succeeds_iff henv hnow, fun presented token htoken => rotate_consumed henv hnow htoken,
    ?_⟩
  rintro token htoken op after hcloses issued ⟨rest, hrest⟩ row hrow hfamily presented hhash
  -- the deletion, and then the run from it to the end
  have hgone : Gone env token.familyId (env.served prims ttlDays start (before ++ op :: after)) := by
    have hop := serve_step ttlDays henv hnow op
    rw [served_append]
    exact (hcloses.gone henv hnow htoken).follows henv (served_run ttlDays henv hop.1 after).2
  -- the run from the moment the token was issued to the end
  have hissued := (served_run ttlDays henv hempty issued).1
  have hlast := served_run ttlDays henv hissued rest
  rw [← served_append, hrest] at hlast
  exact Gone.rotate_fails henv hissued hlast.1 hlast.2 hrow (hfamily ▸ hgone) hhash

theorem Sample.faithful (adapter : Adapter) : (Sample.env adapter).Faithful Sample.prims where
  fault _ := rfl
  sha256 := Sample.sha256_injective
  uuid := Sample.uuid_injective
  plaintext := Sample.plaintext_injective

-- A login, a rotate, and the stolen first token: the successor dies too.
theorem refresh_families_reuse :
    let requests : List SessionOp :=
      [.login "Ada@example.org " "correct horse", .rotate (Sample.plaintext 0)]
    let start := { Sample.world with tokens := Table.empty }
    let serve := (Sample.env .inMemory).serve Sample.prims 30
    let now := (Sample.env .inMemory).served Sample.prims 30 start requests
    now.tokens.rows.length = 2 ∧
      (serve now (.rotate (Sample.plaintext 0))).1 = .rotate (.error .invalidToken) ∧
      (serve now (.rotate (Sample.plaintext 0))).2.tokens.rows = [] ∧
      ∀ a ∈ now.tokens, ∀ b ∈ now.tokens, a.familyId = b.familyId →
        a.userId = b.userId ∧ (a.consumedAt = none → b.consumedAt = none → a = b) :=
  ⟨by decide, rfl, by decide, (refresh_families (Sample.faithful .inMemory) 30 rfl _).1⟩

end AgentBoilerplate.Session
