import AgentBoilerplate.Effects.Turns

-- The auth store of the frontend, with all that a user can ask of it.
namespace AgentBoilerplate.Browser.AuthStore

open Effects

-- An `ApiError`, or any other exception.
inductive Failure where
  | apiError (status : Nat)
  | other
deriving DecidableEq, Repr

-- The token of the store is read and written at once.
inductive StoreCall where
  | token
  | setToken (value : Option String)
deriving DecidableEq, Repr

@[reducible] def StoreCall.Answer : StoreCall → Type
  | .token => Option String
  | .setToken _ => Unit

@[reducible] def StorePorts : Interface := ⟨StoreCall, StoreCall.Answer⟩

-- What the store awaits: a response of the server, or its turn to go on once a
-- call that it awaited has returned. A call of `withAuth` is known by its name.
inductive ApiCall where
  | login (email password : String)
  | register (email password : String)
  | refresh
  | logout
  | authorized (call : String) (token : Option String)
  | resume
deriving DecidableEq, Repr

-- The access token of a session, and the payload of a call.
@[reducible] def ApiCall.Answer : ApiCall → Type
  | .login _ _ => Except Failure String
  | .register _ _ => Except Failure Unit
  | .refresh => Except Failure String
  | .logout => Except Failure Unit
  | .authorized _ _ => Except Failure String
  | .resume => Unit

@[reducible] def ApiPorts : Interface := ⟨ApiCall, ApiCall.Answer⟩

@[reducible] def AuthPorts : Interface := StorePorts.sum ApiPorts

abbrev Async := Fallible AuthPorts Failure

@[simp] def token : Program AuthPorts (Option String) := .call (.inl .token) .done

@[simp] def setToken (value : Option String) : Program AuthPorts Unit :=
  .call (.inl (.setToken value)) .done

@[simp] def await (request : ApiCall) : Program AuthPorts request.Answer :=
  .call (.inr request) .done

def login (email password : String) : Async Unit := do
  let accessToken ← raising (await (.login email password))
  setToken (some accessToken)

def register (email password : String) : Async Unit := do
  raising (await (.register email password))
  login email password
  await .resume

-- The response is not looked at.
def logout : Async Unit := do
  setToken none
  let _response : Except Failure Unit ← await .logout

def tryRefresh : Program AuthPorts Bool := do
  let response : Except Failure String ← await .refresh
  match response with
  | .ok accessToken =>
      setToken (some accessToken)
      return true
  | .error _ =>
      setToken none
      return false

def withAuth (call : String) : Async String := do
  match ← token with
  | none => throw (.apiError 401)
  | some current =>
      let response : Except Failure String ← await (.authorized call (some current))
      match response with
      | .ok payload => return payload
      | .error failure =>
          if failure = .apiError 401 then
            let restored ← tryRefresh
            await .resume
            if restored then
              let current ← token
              raising (await (.authorized call current))
            else
              setToken none
              throw failure
          else
            throw failure

def deleteAccount : Async Unit := do
  let _ ← withAuth "deleteAccount"
  await .resume
  setToken none

-- What the user asks of the store.
inductive StoreOp where
  | login (email password : String)
  | register (email password : String)
  | logout
  | deleteAccount
  | tryRefresh
  | withAuth (call : String)
deriving DecidableEq, Repr

inductive StoreOutcome where
  | settled (result : Except Failure Unit)
  | restored (active : Bool)
  | payload (result : Except Failure String)
deriving DecidableEq

def StoreOp.program : StoreOp → Program AuthPorts StoreOutcome
  | .login email password => do return .settled (← (AuthStore.login email password).run)
  | .register email password => do return .settled (← (AuthStore.register email password).run)
  | .logout => do return .settled (← AuthStore.logout.run)
  | .deleteAccount => do return .settled (← AuthStore.deleteAccount.run)
  | .tryRefresh => do return .restored (← AuthStore.tryRefresh)
  | .withAuth call => do return .payload (← (AuthStore.withAuth call).run)

def tokenHandler : Handler StorePorts (Option String)
  | .token, current => (current, current)
  | .setToken value, _ => ((), value)

-- A page: the token of its store, and the calls that were made so far. A call
-- is not interrupted before it awaits something.
structure Page (ι : Type) where
  token : Option String
  calls : ι → Option (Program AuthPorts StoreOutcome)

-- The user makes a call, or what a call awaits arrives.
inductive PageStep (ι : Type) where
  | begin_ (i : ι) (op : StoreOp)
  | arrive (i : ι) (event : Event ApiPorts)

namespace Page

variable {ι : Type}

def loaded : Page ι := ⟨none, fun _ => none⟩

variable [DecidableEq ι]

def goOn (page : Page ι) (i : ι) (p : Program AuthPorts StoreOutcome) : Page ι where
  token := (p.settle tokenHandler page.token).2
  calls := Function.update page.calls i (some (p.settle tokenHandler page.token).1)

-- A step that does not apply changes nothing.
def step (page : Page ι) : PageStep ι → Page ι
  | .begin_ i op =>
      match page.calls i with
      | none => page.goOn i op.program
      | some _ => page
  | .arrive i event =>
      match page.calls i with
      | some (.call (.inr request) next) =>
          match event.answerTo request with
          | some answer => page.goOn i (next answer)
          | none => page
      | _ => page

end Page

end AgentBoilerplate.Browser.AuthStore
