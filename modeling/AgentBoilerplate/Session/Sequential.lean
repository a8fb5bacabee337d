import AgentBoilerplate.Session.Shape

namespace AgentBoilerplate.Session

open Effects Collections

variable {prims : Primitives} {env : SessionEnv} {ttlDays : Int} {presented : String}
  {world : SessionWorld}

-- The record that `issue_in_family` builds.
def RefreshToken.issued (prims : Primitives) (ttlDays : Int) (userId familyId id : Uuid)
    (plaintext : String) (now : Int) : RefreshToken where
  id := id
  userId := userId
  familyId := familyId
  tokenHash := RefreshToken.hash prims plaintext
  expiresAt := truncSubsecs6 now + Duration.days ttlDays
  createdAt := truncSubsecs6 now
  consumedAt := none

section Requests

variable (hfault : ∀ n, env.fault n = none)
include hfault

theorem attempt_ok {α : Type} (world : SessionWorld)
    (effect : SessionWorld → Except PortError α × SessionWorld) :
    env.attempt world effect = effect { world with calls := world.calls + 1 } := by
  simp [SessionEnv.attempt, hfault]

theorem serve_rotate_unknown
    (h : world.tokens.findByHash (RefreshToken.hash prims presented) = none) :
    env.serve prims ttlDays world (.rotate presented) =
      (.rotate (.error .invalidToken), { world with calls := world.calls + 1 }) := by
  simp [SessionEnv.serve, SessionOp.program, rotate, SessionEnv.handle, attempt_ok hfault, h]

theorem serve_rotate_reuse (ttlDays : Int) {stored : RefreshToken}
    (h : world.tokens.findByHash (RefreshToken.hash prims presented) = some stored)
    (hconsumed : stored.isConsumed = true) :
    ∃ events, env.serve prims ttlDays world (.rotate presented) =
      (.rotate (.error .invalidToken), { world with
        tokens := world.tokens.deleteFamily stored.familyId
        events := events
        calls := world.calls + 3
        readings := world.readings + 1
        uuids := world.uuids + 1 }) := by
  simp [SessionEnv.serve, SessionOp.program, rotate, SessionEnv.handle, attempt_ok hfault, h,
    hconsumed]

theorem serve_rotate_expired {stored : RefreshToken}
    (h : world.tokens.findByHash (RefreshToken.hash prims presented) = some stored)
    (hconsumed : stored.isConsumed = false)
    (hexpired : stored.isExpired (env.clock world.readings) = true) :
    env.serve prims ttlDays world (.rotate presented) =
      (.rotate (.error .invalidToken), { world with
        tokens := world.tokens.delete stored.id
        calls := world.calls + 2
        readings := world.readings + 1 }) := by
  simp [SessionEnv.serve, SessionOp.program, rotate, SessionEnv.handle, attempt_ok hfault, h,
    hconsumed, hexpired]

theorem serve_rotate_live {stored record : RefreshToken}
    (h : world.tokens.findByHash (RefreshToken.hash prims presented) = some stored)
    (hconsumed : stored.isConsumed = false)
    (hexpired : stored.isExpired (env.clock world.readings) = false)
    (hrecord : record = RefreshToken.issued prims ttlDays stored.userId stored.familyId
      (env.uuid world.uuids) (env.plaintext world.plaintexts) (env.clock (world.readings + 2)))
    (hfresh : ∀ row ∈ world.tokens, row.id ≠ record.id ∧ row.tokenHash ≠ record.tokenHash) :
    env.serve prims ttlDays world (.rotate presented) =
      (.rotate (.ok ⟨env.accessToken stored.userId, env.plaintext world.plaintexts⟩), { world with
        tokens := Table.insert
          (world.tokens.markConsumed stored.id (env.clock (world.readings + 1))) record
        calls := world.calls + 4
        readings := world.readings + 3
        uuids := world.uuids + 1
        plaintexts := world.plaintexts + 1 }) := by
  have hinsert : (world.tokens.markConsumed stored.id (env.clock (world.readings + 1))).insert
      env.adapter record = (.ok (), Table.insert (world.tokens.markConsumed stored.id
        (env.clock (world.readings + 1))) record) := by
    refine RefreshTokens.insert_fresh (fun row hrow => ?_) _
    rcases RefreshTokens.mem_markConsumed_cases hrow with ⟨hold, -⟩ | ⟨old, hold, -, rfl⟩
    · exact hfresh row hold
    · exact hfresh old hold
  subst hrecord
  unfold RefreshToken.issued at hinsert
  simp [SessionEnv.serve, SessionOp.program, rotate, SessionEnv.handle, attempt_ok hfault, h,
    hconsumed, hexpired, hinsert, RefreshToken.issued, Except.map]

theorem serve_login_stranger {email password : String}
    (h : world.users.rows.find? (fun user => user.email = prims.toLowercase (trim email)) = none) :
    env.serve prims ttlDays world (.login email password) =
      (.login (.error .invalidCredentials), { world with calls := world.calls + 1 }) := by
  simp [SessionEnv.serve, SessionOp.program, login, SessionEnv.handle, attempt_ok hfault, h]

theorem serve_login_wrong {email password : String} {user : User}
    (h : world.users.rows.find? (fun user => user.email = prims.toLowercase (trim email)) =
      some user)
    (hverify : prims.verify password user.passwordHash = false) :
    env.serve prims ttlDays world (.login email password) =
      (.login (.error .invalidCredentials), { world with calls := world.calls + 1 }) := by
  simp [SessionEnv.serve, SessionOp.program, login, SessionEnv.handle, attempt_ok hfault, h,
    hverify]

theorem serve_login_ok {email password : String} {user : User} {record : RefreshToken}
    (h : world.users.rows.find? (fun user => user.email = prims.toLowercase (trim email)) =
      some user)
    (hverify : prims.verify password user.passwordHash = true)
    (hrecord : record = RefreshToken.issued prims ttlDays user.id (env.uuid world.uuids)
      (env.uuid (world.uuids + 1)) (env.plaintext world.plaintexts) (env.clock world.readings))
    (hfresh : ∀ row ∈ world.tokens, row.id ≠ record.id ∧ row.tokenHash ≠ record.tokenHash) :
    env.serve prims ttlDays world (.login email password) =
      (.login (.ok ⟨env.accessToken user.id, env.plaintext world.plaintexts⟩), { world with
        tokens := Table.insert world.tokens record
        calls := world.calls + 3
        readings := world.readings + 1
        uuids := world.uuids + 2
        plaintexts := world.plaintexts + 1 }) := by
  have hinsert := RefreshTokens.insert_fresh hfresh env.adapter
  subst hrecord
  unfold RefreshToken.issued at hinsert
  simp [SessionEnv.serve, SessionOp.program, login, SessionEnv.handle, attempt_ok hfault, h,
    hverify, hinsert, RefreshToken.issued, Except.map]

theorem serve_revoke_unknown
    (h : world.tokens.findByHash (RefreshToken.hash prims presented) = none) :
    env.serve prims ttlDays world (.revoke presented) =
      (.revoke (.ok ()), { world with calls := world.calls + 1 }) := by
  simp [SessionEnv.serve, SessionOp.program, revoke, SessionEnv.handle, attempt_ok hfault, h]

theorem serve_revoke_stored {stored : RefreshToken}
    (h : world.tokens.findByHash (RefreshToken.hash prims presented) = some stored) :
    env.serve prims ttlDays world (.revoke presented) =
      (.revoke (.ok ()), { world with
        tokens := world.tokens.deleteFamily stored.familyId
        calls := world.calls + 2 }) := by
  simp [SessionEnv.serve, SessionOp.program, revoke, SessionEnv.handle, attempt_ok hfault, h]

theorem serve_purgeExpired (prims : Primitives) (ttlDays : Int) (world : SessionWorld) :
    ∃ count, env.serve prims ttlDays world .purgeExpired =
      (.purgeExpired (.ok count), { world with
        tokens := world.tokens.deleteExpired (env.clock world.readings)
        calls := world.calls + 1
        readings := world.readings + 1 }) := by
  simp [SessionEnv.serve, SessionOp.program, purgeExpired, SessionEnv.handle, attempt_ok hfault]

end Requests

end AgentBoilerplate.Session
