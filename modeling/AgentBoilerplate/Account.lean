import AgentBoilerplate.Session

namespace AgentBoilerplate.Account

open Effects Collections Session

-- `users: Mutex<HashMap<Uuid, User>>`, or the rows of `users`.
abbrev Users := Table User.id

namespace Users

-- The table's primary key and its UNIQUE `email` reject a row; the map replaces
-- the row of the same key and does not look at the email.
def insert (adapter : Adapter) (users : Users) (user : User) : Except PortError Unit × Users :=
  match adapter with
  | .inMemory => (.ok (), Table.insert users user)
  | .postgres =>
      if users.rows.any fun row => row.id = user.id ∨ row.email = user.email then
        (.error ⟨"database error: duplicate key value violates unique constraint"⟩, users)
      else
        (.ok (), Table.insert users user)

def findByEmail (users : Users) (email : String) : Option User :=
  users.rows.find? fun user => user.email = email

end Users

-- What a registration asks of its ports, of the clock and of the random
-- generator. A hash is drawn with a fresh salt, so two hashes of one password
-- may differ.
inductive AccountCall where
  | findByEmail (email : String)
  | insert (user : User)
  | hash (password : String)
  | utcNow
  | newUuid
deriving DecidableEq

@[reducible] def AccountCall.Answer : AccountCall → Type
  | .findByEmail _ => Except PortError (Option User)
  | .insert _ => Except PortError Unit
  | .hash _ => Except PortError String
  | .utcNow => Int
  | .newUuid => Uuid

@[reducible] def AccountPorts : Interface := ⟨AccountCall, AccountCall.Answer⟩

abbrev UseCase (ε : Type) := Fallible AccountPorts ε

@[simp] def ask (request : AccountCall) : Program AccountPorts request.Answer :=
  .call request .done

-- `User::new`.
@[simp] def User.new (email passwordHash : String) : Program AccountPorts User := do
  let id ← ask .newUuid
  let now ← ask .utcNow
  return { id, email, passwordHash, createdAt := truncSubsecs6 now }

inductive RegisterError where
  | emailTaken
  | invalidEmail
  | passwordTooShort
  | infrastructure (e : PortError)
deriving DecidableEq, Repr

-- The spelling of an email that a registration looks up and stores;
-- `toLowercase` is `str::to_lowercase`.
def normalize (toLowercase : String → String) (email : String) : String :=
  toLowercase (trim email)

-- `RegisterUser::execute`; `len` counts the bytes of the text.
def register (toLowercase : String → String) (email password : String) :
    UseCase RegisterError User := do
  let email := normalize toLowercase email
  if '@' ∉ email.toList ∨ email.utf8ByteSize < 3 then
    throw .invalidEmail
  else if password.utf8ByteSize < 8 then
    throw .passwordTooShort
  else
    match ← orFail .infrastructure (ask (.findByEmail email)) with
    | some _ => throw .emailTaken
    | none =>
        let passwordHash ← orFail .infrastructure (ask (.hash password))
        let user ← User.new email passwordHash
        orFail .infrastructure (ask (.insert user))
        return user

-- What the surroundings decide: the readings of the clock, the identifiers
-- drawn, the hashes computed, and which port call fails (a failing call has no
-- effect).
structure AccountEnv where
  adapter : Adapter
  clock : Nat → Int
  uuid : Nat → Uuid
  hashed : Nat → String → Except PortError String
  fault : Nat → Option PortError

-- The store, and how far each supply of the surroundings is used up.
structure AccountWorld where
  users : Users
  calls : Nat
  readings : Nat
  uuids : Nat
  hashes : Nat

def AccountEnv.attempt {α : Type} (env : AccountEnv) (world : AccountWorld)
    (effect : AccountWorld → Except PortError α × AccountWorld) :
    Except PortError α × AccountWorld :=
  match env.fault world.calls with
  | some e => (.error e, { world with calls := world.calls + 1 })
  | none => effect { world with calls := world.calls + 1 }

def AccountEnv.handle (env : AccountEnv) : Handler AccountPorts AccountWorld
  | .findByEmail email, world => env.attempt world fun world =>
      (.ok (world.users.findByEmail email), world)
  | .insert user, world => env.attempt world fun world =>
      ((world.users.insert env.adapter user).1,
        { world with users := (world.users.insert env.adapter user).2 })
  | .hash password, world =>
      (env.hashed world.hashes password, { world with hashes := world.hashes + 1 })
  | .utcNow, world => (env.clock world.readings, { world with readings := world.readings + 1 })
  | .newUuid, world => (env.uuid world.uuids, { world with uuids := world.uuids + 1 })

-- The body of a request to register.
structure Credentials where
  email : String
  password : String
deriving DecidableEq, Repr

-- Registrations in flight on one database, none of which has made a call yet.
abbrev Registrations (ι : Type) := Config AccountPorts AccountWorld ι (Except RegisterError User)

def registrations {ι : Type} (toLowercase : String → String) (world : AccountWorld)
    (requests : ι → Credentials) : Registrations ι :=
  .start world fun i => (register toLowercase (requests i).email (requests i).password).run

-- The user a finished registration answers with.
def registered (thread : Thread AccountPorts (Except RegisterError User)) : Option User :=
  match thread.rest with
  | .done (.ok user) => some user
  | _ => none

end AgentBoilerplate.Account
