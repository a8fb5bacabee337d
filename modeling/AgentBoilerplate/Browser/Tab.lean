import AgentBoilerplate.Session

namespace AgentBoilerplate.Browser

open Effects Collections Session

-- What a response of the refresh endpoint carries. Its cookie header sets the
-- refresh cookie, or clears it.
structure RefreshResponse where
  status : Nat
  setCookie : Option (Option String)
  accessToken : Option String
deriving DecidableEq, Repr

-- The handler `refresh`, with what `read_refresh_cookie` finds.
def refresh (prims : Primitives) (ttlDays : Int) (cookie : Option String) :
    Program SessionPorts RefreshResponse :=
  match cookie.filter fun value => value ≠ "" with
  | none => return ⟨401, none, none⟩
  | some presented => do
      match ← (rotate prims ttlDays presented).run with
      | .ok tokens => return ⟨200, some (some tokens.refreshToken), some tokens.accessToken⟩
      | .error .invalidToken => return ⟨401, some none, none⟩
      | .error (.infrastructure _) => return ⟨500, none, none⟩

-- How an API call ends: with a payload, with an `ApiError`, or with any other
-- exception.
inductive ApiAnswer where
  | ok
  | apiError (status : Nat)
  | failed
deriving DecidableEq, Repr

-- Where a call of `withAuth` is. Between the response to its refresh and its
-- continuation, other calls may run.
inductive AuthCall where
  | idle
  | calling (token : String)
  | unauthorized
  | refreshing
  | restored
  | refused
  | retrying (token : Option String)
  | settled (answer : ApiAnswer)
deriving DecidableEq, Repr

-- A tab: the token of the store, the cookie of the browser, the calls of
-- `withAuth`, and the refresh requests of these calls on the server.
structure Tab (ι : Type) where
  token : Option String
  cookie : Option String
  calls : ι → AuthCall
  server : Config SessionPorts SessionWorld ι RefreshResponse

-- A call begins, an API response arrives, `tryRefresh` sends its request, the
-- server makes the next port call of that request, its response arrives, and
-- the call goes on.
inductive TabStep (ι : Type) where
  | begin_ (i : ι)
  | answer (i : ι) (answer : ApiAnswer)
  | send (i : ι)
  | handle (i : ι)
  | deliver (i : ι)
  | resume (i : ι)
deriving DecidableEq, Repr

namespace Tab

variable {ι : Type}

-- A tab with a session and no call yet.
def opened (access presented : String) (world : SessionWorld) : Tab ι where
  token := some access
  cookie := some presented
  calls _ := .idle
  server := .start world fun _ => .done ⟨401, none, none⟩

variable [DecidableEq ι]

def goTo (tab : Tab ι) (i : ι) (call : AuthCall) : Tab ι :=
  { tab with calls := Function.update tab.calls i call }

-- The browser stores the cookie before the script sees the response.
def receive (tab : Tab ι) (i : ι) (response : RefreshResponse) : Tab ι :=
  let cookie := response.setCookie.getD tab.cookie
  if response.status = 200 then
    { tab with cookie := cookie, token := response.accessToken }.goTo i .restored
  else
    { tab with cookie := cookie, token := none }.goTo i .refused

-- The cookie is attached when the request is sent.
def request (prims : Primitives) (ttlDays : Int) (tab : Tab ι) (i : ι) : Tab ι :=
  let sent : Thread SessionPorts RefreshResponse := ⟨[], refresh prims ttlDays tab.cookie⟩
  { tab with server := ⟨tab.server.store, Function.update tab.server.threads i sent⟩ }.goTo i
    .refreshing

-- A step that does not apply changes nothing.
def step (env : SessionEnv) (prims : Primitives) (ttlDays : Int) (tab : Tab ι) :
    TabStep ι → Tab ι
  | .begin_ i =>
      match tab.calls i, tab.token with
      | .idle, none => tab.goTo i (.settled (.apiError 401))
      | .idle, some token => tab.goTo i (.calling token)
      | _, _ => tab
  | .answer i answer =>
      match tab.calls i with
      | .calling _ =>
          if answer = .apiError 401 then tab.goTo i .unauthorized else tab.goTo i (.settled answer)
      | .retrying _ => tab.goTo i (.settled answer)
      | _ => tab
  | .send i =>
      match tab.calls i with
      | .unauthorized => tab.request prims ttlDays i
      | _ => tab
  | .handle i => { tab with server := tab.server.step env.handle i }
  | .deliver i =>
      match tab.calls i, (tab.server.threads i).rest with
      | .refreshing, .done response => tab.receive i response
      | _, _ => tab
  | .resume i =>
      match tab.calls i with
      | .restored => tab.goTo i (.retrying tab.token)
      | .refused => { tab with token := none }.goTo i (.settled (.apiError 401))
      | _ => tab

end Tab

end AgentBoilerplate.Browser
