import AgentBoilerplate.Basic
import AgentBoilerplate.Collections.Table
import AgentBoilerplate.Effects.Interleaving

namespace AgentBoilerplate.Session

open Effects Collections

structure User where
  id : Uuid
  email : String
  passwordHash : String
  createdAt : Int
deriving DecidableEq, Repr

structure RefreshToken where
  id : Uuid
  userId : Uuid
  familyId : Uuid
  tokenHash : String
  expiresAt : Int
  createdAt : Int
  consumedAt : Option Int
deriving DecidableEq, Repr

namespace RefreshToken

def isConsumed (token : RefreshToken) : Bool := token.consumedAt.isSome

def isExpired (token : RefreshToken) (now : Int) : Bool := token.expiresAt ≤ now

end RefreshToken

inductive SecurityEventKind where
  | loginFailed
  | loginThrottled
  | refreshReuseDetected
  | quotaExceeded
deriving DecidableEq, Repr

def SecurityEventKind.asStr : SecurityEventKind → String
  | .loginFailed => "login_failed"
  | .loginThrottled => "login_throttled"
  | .refreshReuseDetected => "refresh_reuse_detected"
  | .quotaExceeded => "quota_exceeded"

structure SecurityEvent where
  id : Uuid
  kind : String
  userId : Option Uuid
  clientIp : Option String
  detail : String
  createdAt : Int
deriving DecidableEq, Repr

-- What the use cases of a session ask of their ports, of the clock and of the
-- random generator.
inductive SessionCall where
  | findUserByEmail (email : String)
  | findByHash (hash : String)
  | insert (token : RefreshToken)
  | markConsumed (id : Uuid) (at_ : Int)
  | delete (id : Uuid)
  | deleteFamily (familyId : Uuid)
  | deleteExpired (now : Int)
  | recordEvent (event : SecurityEvent)
  | issueToken (userId : Uuid)
  | utcNow
  | newUuid
  | newPlaintext
deriving DecidableEq, Repr

@[reducible] def SessionCall.Answer : SessionCall → Type
  | .findUserByEmail _ => Except PortError (Option User)
  | .findByHash _ => Except PortError (Option RefreshToken)
  | .insert _ => Except PortError Unit
  | .markConsumed _ _ => Except PortError Unit
  | .delete _ => Except PortError Unit
  | .deleteFamily _ => Except PortError Unit
  | .deleteExpired _ => Except PortError Nat
  | .recordEvent _ => Except PortError Unit
  | .issueToken _ => Except PortError String
  | .utcNow => Int
  | .newUuid => Uuid
  | .newPlaintext => String

@[reducible] def SessionPorts : Interface := ⟨SessionCall, SessionCall.Answer⟩

abbrev UseCase (ε : Type) := Fallible SessionPorts ε

@[simp] def findUserByEmail (email : String) : Program SessionPorts (Except PortError (Option User)) :=
  .call (.findUserByEmail email) .done

@[simp] def findByHash (hash : String) : Program SessionPorts (Except PortError (Option RefreshToken)) :=
  .call (.findByHash hash) .done

@[simp] def insert (token : RefreshToken) : Program SessionPorts (Except PortError Unit) :=
  .call (.insert token) .done

@[simp] def markConsumed (id : Uuid) (at_ : Int) : Program SessionPorts (Except PortError Unit) :=
  .call (.markConsumed id at_) .done

@[simp] def delete (id : Uuid) : Program SessionPorts (Except PortError Unit) := .call (.delete id) .done

@[simp] def deleteFamily (familyId : Uuid) : Program SessionPorts (Except PortError Unit) :=
  .call (.deleteFamily familyId) .done

@[simp] def deleteExpired (now : Int) : Program SessionPorts (Except PortError Nat) :=
  .call (.deleteExpired now) .done

@[simp] def recordEvent (event : SecurityEvent) : Program SessionPorts (Except PortError Unit) :=
  .call (.recordEvent event) .done

@[simp] def issueToken (userId : Uuid) : Program SessionPorts (Except PortError String) :=
  .call (.issueToken userId) .done

@[simp] def utcNow : Program SessionPorts Int := .call .utcNow .done

@[simp] def newUuid : Program SessionPorts Uuid := .call .newUuid .done

-- `format!("{}{}", Uuid::new_v4().simple(), Uuid::new_v4().simple())`.
@[simp] def newPlaintext : Program SessionPorts String := .call .newPlaintext .done

-- `domain::now_utc`.
@[simp] def nowUtc : Program SessionPorts Int := do
  return truncSubsecs6 (← utcNow)

-- The code the use cases call and that is not in the repository: `Sha256` in
-- hexadecimal, the password hasher, and `str::to_lowercase`.
structure Primitives where
  sha256 : String → String
  verify : String → String → Bool
  toLowercase : String → String

@[simp] def SecurityEvent.new (kind : SecurityEventKind) (userId : Option Uuid)
    (clientIp : Option String) (detail : String) : Program SessionPorts SecurityEvent := do
  let id ← newUuid
  let createdAt ← nowUtc
  return { id, kind := kind.asStr, userId, clientIp, detail, createdAt }

section UseCases

variable (prims : Primitives)

def RefreshToken.hash (plaintext : String) : String := prims.sha256 plaintext

@[simp] def RefreshToken.issueInFamily (userId familyId : Uuid) (ttlDays : Int) :
    Program SessionPorts (RefreshToken × String) := do
  let plaintext ← newPlaintext
  let now ← nowUtc
  let id ← newUuid
  let record : RefreshToken :=
    { id, userId, familyId, tokenHash := RefreshToken.hash prims plaintext,
      expiresAt := now + Duration.days ttlDays, createdAt := now, consumedAt := none }
  return (record, plaintext)

@[simp] def RefreshToken.issue (userId : Uuid) (ttlDays : Int) :
    Program SessionPorts (RefreshToken × String) := do
  let familyId ← newUuid
  issueInFamily prims userId familyId ttlDays

structure SessionTokens where
  accessToken : String
  refreshToken : String
deriving DecidableEq, Repr

inductive LoginError where
  | invalidCredentials
  | infrastructure (e : PortError)
deriving DecidableEq, Repr

inductive RefreshError where
  | invalidToken
  | infrastructure (e : PortError)
deriving DecidableEq, Repr

-- `LoginUser::execute`.
def login (ttlDays : Int) (email password : String) : UseCase LoginError SessionTokens := do
  let email := prims.toLowercase (trim email)
  let some user ← orFail .infrastructure (findUserByEmail email) | throw .invalidCredentials
  if prims.verify password user.passwordHash then
    let (record, plaintext) ← RefreshToken.issue prims user.id ttlDays
    orFail .infrastructure (insert record)
    let accessToken ← orFail .infrastructure (issueToken user.id)
    return { accessToken, refreshToken := plaintext }
  else
    throw .invalidCredentials

-- `RefreshSession::rotate`.
def rotate (ttlDays : Int) (presented : String) : UseCase RefreshError SessionTokens := do
  let some stored ← orFail .infrastructure (findByHash (RefreshToken.hash prims presented))
    | throw .invalidToken
  if stored.isConsumed then
    orFail .infrastructure (deleteFamily stored.familyId)
    let event ← SecurityEvent.new .refreshReuseDetected (some stored.userId) none
      s!"family {stored.familyId}"
    -- The audit is best effort: its answer is dropped.
    let _ ← recordEvent event
    throw .invalidToken
  else if stored.isExpired (← utcNow) then
    orFail .infrastructure (delete stored.id)
    throw .invalidToken
  else
    orFail .infrastructure (markConsumed stored.id (← utcNow))
    let (record, plaintext) ←
      RefreshToken.issueInFamily prims stored.userId stored.familyId ttlDays
    orFail .infrastructure (insert record)
    let accessToken ← orFail .infrastructure (issueToken stored.userId)
    return { accessToken, refreshToken := plaintext }

-- `RefreshSession::revoke`.
def revoke (presented : String) : UseCase PortError Unit := do
  if let some stored ← orFail id (findByHash (RefreshToken.hash prims presented)) then
    orFail id (deleteFamily stored.familyId)

-- The purge of the background loop.
def purgeExpired : UseCase PortError Nat := do
  orFail id (deleteExpired (← utcNow))

-- The requests that reach a session, each a program with its own outcome.
inductive SessionOp where
  | login (email password : String)
  | rotate (presented : String)
  | revoke (presented : String)
  | purgeExpired
deriving DecidableEq, Repr

inductive SessionOutcome where
  | login (result : Except LoginError SessionTokens)
  | rotate (result : Except RefreshError SessionTokens)
  | revoke (result : Except PortError Unit)
  | purgeExpired (result : Except PortError Nat)

def SessionOp.program (ttlDays : Int) : SessionOp → Program SessionPorts SessionOutcome
  | .login email password => do return .login (← (Session.login prims ttlDays email password).run)
  | .rotate presented => do return .rotate (← (Session.rotate prims ttlDays presented).run)
  | .revoke presented => do return .revoke (← (Session.revoke prims presented).run)
  | .purgeExpired => do return .purgeExpired (← Session.purgeExpired.run)

-- The token a request presents.
def SessionOp.presented? : SessionOp → Option String
  | .rotate presented | .revoke presented => some presented
  | .login _ _ | .purgeExpired => none

end UseCases

-- `tokens: Mutex<HashMap<Uuid, RefreshToken>>`, or the rows of `refresh_tokens`.
abbrev RefreshTokens := Table RefreshToken.id

namespace RefreshTokens

def findByHash (tokens : RefreshTokens) (hash : String) : Option RefreshToken :=
  tokens.rows.find? fun token => token.tokenHash = hash

-- The table's primary key and its UNIQUE `token_hash` reject a row; the map
-- replaces one.
def insert (adapter : Adapter) (tokens : RefreshTokens) (token : RefreshToken) :
    Except PortError Unit × RefreshTokens :=
  match adapter with
  | .inMemory => (.ok (), Table.insert tokens token)
  | .postgres =>
      if tokens.rows.any fun row => row.id = token.id ∨ row.tokenHash = token.tokenHash then
        (.error ⟨"database error: duplicate key value violates unique constraint"⟩, tokens)
      else
        (.ok (), Table.insert tokens token)

def markConsumed (tokens : RefreshTokens) (id : Uuid) (at_ : Int) : RefreshTokens :=
  tokens.modify id fun token => { token with consumedAt := some at_ }

def delete (tokens : RefreshTokens) (id : Uuid) : RefreshTokens := tokens.remove id

def deleteFamily (tokens : RefreshTokens) (familyId : Uuid) : RefreshTokens :=
  tokens.retain fun token => token.familyId ≠ familyId

def deleteExpired (tokens : RefreshTokens) (now : Int) : RefreshTokens :=
  tokens.retain fun token => !token.isExpired now

end RefreshTokens

-- What the surroundings decide: the readings of the clock, the identifiers and
-- plaintexts drawn, the access tokens issued, and which port call fails (a
-- failing call has no effect).
structure SessionEnv where
  adapter : Adapter
  clock : Nat → Int
  uuid : Nat → Uuid
  plaintext : Nat → String
  accessToken : Uuid → String
  fault : Nat → Option PortError

-- The stores, and how far each supply of the surroundings is used up.
structure SessionWorld where
  users : Table User.id
  tokens : RefreshTokens
  events : List SecurityEvent
  calls : Nat
  readings : Nat
  uuids : Nat
  plaintexts : Nat

def SessionEnv.attempt {α : Type} (env : SessionEnv) (world : SessionWorld)
    (effect : SessionWorld → Except PortError α × SessionWorld) :
    Except PortError α × SessionWorld :=
  match env.fault world.calls with
  | some e => (.error e, { world with calls := world.calls + 1 })
  | none => effect { world with calls := world.calls + 1 }

def SessionEnv.handle (env : SessionEnv) : Handler SessionPorts SessionWorld
  | .findUserByEmail email, world => env.attempt world fun world =>
      (.ok (world.users.rows.find? fun user => user.email = email), world)
  | .findByHash hash, world => env.attempt world fun world =>
      (.ok (world.tokens.findByHash hash), world)
  | .insert token, world => env.attempt world fun world =>
      ((world.tokens.insert env.adapter token).1,
        { world with tokens := (world.tokens.insert env.adapter token).2 })
  | .markConsumed id at_, world => env.attempt world fun world =>
      (.ok (), { world with tokens := world.tokens.markConsumed id at_ })
  | .delete id, world => env.attempt world fun world =>
      (.ok (), { world with tokens := world.tokens.delete id })
  | .deleteFamily familyId, world => env.attempt world fun world =>
      (.ok (), { world with tokens := world.tokens.deleteFamily familyId })
  | .deleteExpired now, world => env.attempt world fun world =>
      (.ok (world.tokens.rows.length - (world.tokens.deleteExpired now).rows.length),
        { world with tokens := world.tokens.deleteExpired now })
  | .recordEvent event, world => env.attempt world fun world =>
      (.ok (), { world with events := world.events ++ [event] })
  | .issueToken userId, world => env.attempt world fun world =>
      (.ok (env.accessToken userId), world)
  | .utcNow, world => (env.clock world.readings, { world with readings := world.readings + 1 })
  | .newUuid, world => (env.uuid world.uuids, { world with uuids := world.uuids + 1 })
  | .newPlaintext, world =>
      (env.plaintext world.plaintexts, { world with plaintexts := world.plaintexts + 1 })

-- The request was a rotate that returned a new token pair.
def SessionOutcome.rotated : SessionOutcome → Bool
  | .rotate (.ok _) => true
  | _ => false

-- One request served alone, and requests served one after another.
def SessionEnv.serve (env : SessionEnv) (prims : Primitives) (ttlDays : Int)
    (world : SessionWorld) (op : SessionOp) : SessionOutcome × SessionWorld :=
  (op.program prims ttlDays).run env.handle world

def SessionEnv.served (env : SessionEnv) (prims : Primitives) (ttlDays : Int)
    (world : SessionWorld) (ops : List SessionOp) : SessionWorld :=
  ops.foldl (fun world op => (env.serve prims ttlDays world op).2) world

-- Requests in flight on one database, none of which has made a call yet.
abbrev Sessions (ι : Type) := Config SessionPorts SessionWorld ι SessionOutcome

def sessions {ι : Type} (prims : Primitives) (ttlDays : Int) (world : SessionWorld)
    (ops : ι → SessionOp) : Sessions ι :=
  .start world fun i => (ops i).program prims ttlDays

def rotated (thread : Thread SessionPorts SessionOutcome) : Bool :=
  match thread.rest with
  | .done outcome => outcome.rotated
  | .call _ _ => false

end AgentBoilerplate.Session
