import AgentBoilerplate.Account
import AgentBoilerplate.Tenancy

-- The inbound adapter: the routes, what stands before them, and what each makes of
-- the outcome of its use case.
namespace AgentBoilerplate.Http

open Effects Job Knowledge Profile

-- What the adapter asks of the limiters, of the access tokens and of the readiness
-- probe, beside what the use cases ask.
inductive LimiterScope where
  | auth
  | api
  | login
deriving DecidableEq, Repr

inductive HttpCall where
  | allow (scope : LimiterScope) (key : String)
  | verifyToken (token : String)
  | ready
deriving DecidableEq

@[reducible] def HttpCall.Answer : HttpCall → Type
  | .allow _ _ => Bool
  | .verifyToken _ => Option Uuid
  | .ready => Bool

@[reducible] def HttpPorts : Interface := ⟨HttpCall, HttpCall.Answer⟩

@[reducible] def GatewayPorts : Interface :=
  Tenancy.TenantPorts.sum (Session.SessionPorts.sum (Account.AccountPorts.sum HttpPorts))

section Ports

variable {α : Type}

@[simp] def onSearch (p : Program SearchPorts α) : Program GatewayPorts α := p.inl.inl
@[simp] def onJobs (p : Program JobPorts α) : Program GatewayPorts α := onSearch p.inl
@[simp] def onKnowledge (p : Program KnowledgePorts α) : Program GatewayPorts α := p.inl.inr.inl
@[simp] def onDeletion (p : Program Deletion.DeletionPorts α) : Program GatewayPorts α :=
  p.inl.inr.inr.inl
@[simp] def onProfile (p : Program ProfilePorts α) : Program GatewayPorts α := p.inr.inr.inr.inl
@[simp] def onSession (p : Program Session.SessionPorts α) : Program GatewayPorts α := p.inl.inr
@[simp] def onAccount (p : Program Account.AccountPorts α) : Program GatewayPorts α := p.inl.inr.inr

@[simp] def askHttp (request : HttpCall) : Program GatewayPorts request.Answer :=
  .call (.inr (.inr (.inr request))) .done

end Ports

-- A header value is bytes; it is a text if they are visible ASCII.
abbrev HeaderValue := List UInt8

def HeaderValue.toStr (value : HeaderValue) : Option String :=
  if value.all fun b => (32 ≤ b ∧ b < 127) ∨ b = 9 then
    some (String.ofList (value.map fun b => Char.ofNat b.toNat))
  else
    none

-- The names are in lower case; a name may occur more than once.
abbrev HeaderMap := List (String × HeaderValue)

def HeaderMap.get (headers : HeaderMap) (name : String) : Option HeaderValue :=
  (headers.find? fun header => header.1 = name).map Prod.snd

def splitText (separator : Char) (text : String) : List String :=
  (text.toList.splitOn separator).map String.ofList

-- The first entry of `X-Forwarded-For`.
def forwarded (headers : HeaderMap) : Option String :=
  (((headers.get "x-forwarded-for").bind HeaderValue.toStr).bind fun value =>
    (splitText ',' value).head?).map trim

def clientIp (headers : HeaderMap) : Option String := (forwarded headers).filter fun ip => ip ≠ ""

-- `peer` is the address of the socket.
def clientKey (headers : HeaderMap) (peer : Option String) : String :=
  ((forwarded headers).orElse fun _ => peer).getD "unknown"

-- `str::strip_prefix`.
def stripPrefix (front : String) (text : String) : Option String :=
  if front.toList.isPrefixOf text.toList then
    some (String.ofList (text.toList.drop front.length))
  else
    none

-- `str::split_once`.
def splitOnce (separator : Char) (text : String) : Option (String × String) :=
  match text.toList.span fun c => c ≠ separator with
  | (_, []) => none
  | (before, _ :: after) => some (String.ofList before, String.ofList after)

def bearer (headers : HeaderMap) : Option String :=
  ((headers.get "authorization").bind HeaderValue.toStr).bind (stripPrefix "Bearer ")

def refreshCookieName : String := "refresh_token"

def refreshCookie (value : String) (maxAgeSeconds : Int) : String :=
  s!"{refreshCookieName}={value}; HttpOnly; Secure; SameSite=Strict; Path=/api/auth; " ++
    s!"Max-Age={maxAgeSeconds}"

def clearRefreshCookie : String := refreshCookie "" 0

def readRefreshCookie (headers : HeaderMap) : Option String :=
  ((headers.get "cookie").bind HeaderValue.toStr).bind fun cookies =>
    ((((splitText ';' cookies).filterMap fun pair => splitOnce '=' (trim pair)).find? fun pair =>
      pair.1 = refreshCookieName).map Prod.snd).filter fun value => value ≠ ""

-- The comparison looks at every byte.
def constantTimeEq (a b : List UInt8) : Bool :=
  if a.length ≠ b.length then
    false
  else
    (a.zip b).foldl (fun diff pair => diff ||| (pair.1 ^^^ pair.2)) 0 = 0

-- What the extractors make of a path or a body that they refuse.
structure Rejection where
  status : Nat
  text : String
  refuses : 400 ≤ status ∧ status < 500
deriving DecidableEq, Repr

abbrev Extracted (α : Type) := Except Rejection α

structure CreateSearchRequest where
  keyword : String
  mode : JobMode
deriving DecidableEq, Repr

structure CreateRecurringRequest where
  keyword : String
  mode : JobMode
  intervalMinutes : Nat
  webhookUrl : Option String
deriving DecidableEq, Repr

structure CreateChannelRequest where
  kind : String
  target : String
  secret : Option String
deriving DecidableEq, Repr

structure CreateDocumentRequest where
  name : String
  content : String
deriving DecidableEq, Repr

structure RetrieveRequest where
  jobId : Uuid
  embedding : Embedding
  k : Int
deriving DecidableEq

-- The routes, with what the extractors make of their paths and bodies. A stream is
-- read for a number of times.
inductive Route where
  | readyz
  | register (body : Extracted Account.Credentials)
  | login (body : Extracted Account.Credentials)
  | refresh
  | logout
  | createSearch (body : Extracted CreateSearchRequest)
  | listSearches
  | getSearch (id : Extracted Uuid)
  | answerSearch (id : Extracted Uuid) (answer : Extracted String)
  | searchEvents (id : Extracted Uuid) (polls : Nat)
  | createRecurring (body : Extracted CreateRecurringRequest)
  | listRecurring
  | deleteRecurring (id : Extracted Uuid)
  | getProfile
  | deleteAccount
  | createChannel (body : Extracted CreateChannelRequest)
  | deleteChannel (id : Extracted Uuid)
  | createDocument (body : Extracted CreateDocumentRequest)
  | listDocuments
  | deleteDocument (id : Extracted Uuid)
  | internalStarted (id : Extracted Uuid)
  | internalResults (id : Extracted Uuid) (results : Extracted (List SearchResult))
  | internalStep (id : Extracted Uuid) (step : Extracted AgentStep)
  | internalQuestion (id : Extracted Uuid) (question : Extracted String)
  | internalUsage (id : Extracted Uuid) (usage : Extracted JobUsage)
  | internalFailure (id : Extracted Uuid) (error : Extracted String)
  | internalStoreChunks (id : Extracted Uuid) (chunks : Extracted (List NewChunk))
  | internalDocumentFailure (id : Extracted Uuid) (error : Extracted String)
  | internalRetrieve (body : Extracted RetrieveRequest)

structure Request where
  headers : HeaderMap
  peer : Option String
  route : Route

-- What a client is shown of a channel and of a document: not the secret.
structure ChannelView where
  id : Uuid
  kind : String
  target : String
  createdAt : Int
deriving DecidableEq, Repr

structure DocumentView where
  id : Uuid
  name : String
  status : String
  error : Option String
  createdAt : Int
deriving DecidableEq, Repr

structure RecurringView where
  id : Uuid
  keyword : String
  mode : JobMode
  intervalMinutes : Nat
  webhookUrl : Option String
  createdAt : Int
  lastRunAt : Option Int
deriving DecidableEq, Repr

inductive Body where
  | empty
  | text (content : String)
  | error (message : String)
  | account (id : Uuid) (email : String)
  | accessToken (token : String)
  | job (id : Uuid)
  | jobs (views : List JobView)
  | detail (view : JobDetailView)
  | events
  | recurring (view : RecurringView)
  | recurrings (views : List RecurringView)
  | profile (email : String) (createdAt : Int) (channels : List ChannelView) (emailEnabled : Bool)
  | channel (view : ChannelView)
  | document (view : DocumentView)
  | documents (views : List DocumentView)
  | chunks (chunks : List RetrievedChunk)
deriving DecidableEq

structure Response where
  status : Nat
  setCookie : Option String := none
  body : Body := .empty
deriving DecidableEq

def errorBody (status : Nat) (message : String) : Response := { status, body := .error message }

def internalError : Response := errorBody 500 "internal error"

def noContent : Response := { status := 204 }

def Rejection.response (rejection : Rejection) : Response :=
  { status := rejection.status, body := .text rejection.text }

-- The texts of the errors that a client is shown.
def registerMessage : Account.RegisterError → String
  | .emailTaken => "email already registered"
  | .invalidEmail => "invalid email address"
  | .passwordTooShort => "password must be at least 8 characters"
  | .infrastructure e => e.message

def channelMessage : Notify.ChannelError → String
  | .emptyTarget => "target must not be empty"
  | .targetTooLong => "target is too long"
  | .secretTooLong => "secret is too long"
  | .invalidSlackUrl => "slack target must be an https:// incoming webhook URL"
  | .missingTelegramToken => "telegram requires a bot token"
  | .invalidEmail => "email target must be a valid address"

def documentMessage : DocumentError → String
  | .emptyName => "document name must not be empty"
  | .nameTooLong => "document name must be at most 200 characters"
  | .emptyContent => "document content must not be empty"
  | .contentTooLong => "document content must be at most 100000 characters"

def quotaMessage (quota : Nat) : String :=
  s!"daily search quota reached ({quota} searches per 24h)"

def tooManyMessage (max : Nat) : String := s!"too many recurring searches ({max} max)"

-- `ChannelKind::as_str` and `parse`.
def channelKindText : ChannelKind → String
  | .slack => "slack"
  | .telegram => "telegram"
  | .email => "email"

def parseChannelKind (value : String) : Option ChannelKind :=
  if value = "slack" then some .slack
  else if value = "telegram" then some .telegram
  else if value = "email" then some .email
  else none

def documentStatusText : DocumentStatus → String
  | .pending => "pending"
  | .ready => "ready"
  | .failed => "failed"

def channelView (channel : NotificationChannel) : ChannelView where
  id := channel.id
  kind := channelKindText channel.kind
  target := channel.target
  createdAt := channel.createdAt

def documentView (document : Document) : DocumentView where
  id := document.id
  name := document.name
  status := documentStatusText document.status
  error := document.error
  createdAt := document.createdAt

def recurringSearchJson (search : RecurringSearch) : RecurringView where
  id := search.id
  keyword := search.keyword
  mode := search.mode
  intervalMinutes := search.intervalMinutes
  webhookUrl := search.webhookUrl
  createdAt := search.createdAt
  lastRunAt := search.lastRunAt

structure AppState where
  service : Tenancy.ServiceConfig
  prims : Session.Primitives
  stream : StreamConfig
  refreshTtlDays : Int
  internalToken : List UInt8

def sessionResponse (state : AppState) (tokens : Session.SessionTokens) : Response where
  status := 200
  setCookie := some (refreshCookie tokens.refreshToken (state.refreshTtlDays * 86400))
  body := .accessToken tokens.accessToken

-- The record is best effort.
def recordSecurityEvent (kind : Session.SecurityEventKind) (userId : Option Uuid)
    (clientIp : Option String) (detail : String) : Program GatewayPorts Unit := do
  let _ ← onSession (do
    let event ← Session.SecurityEvent.new kind userId clientIp detail
    Session.recordEvent event)

def checkInternalToken (state : AppState) (headers : HeaderMap) : Bool :=
  ((headers.get "x-internal-token").map fun value =>
    constantTimeEq value state.internalToken).getD false

section Extractors

variable {α : Type}

def extracted (part : Extracted α) (handler : α → Program GatewayPorts Response) :
    Program GatewayPorts Response :=
  match part with
  | .ok value => handler value
  | .error rejection => return rejection.response

-- `AuthUser`.
def authUser (headers : HeaderMap) (handler : Uuid → Program GatewayPorts Response) :
    Program GatewayPorts Response :=
  match bearer headers with
  | none => return errorBody 401 "invalid or missing access token"
  | some token => do
      match ← askHttp (.verifyToken token) with
      | none => return errorBody 401 "invalid or missing access token"
      | some userId => handler userId

-- The handlers of the worker's routes check the token first.
def internal (state : AppState) (headers : HeaderMap) (handler : Program GatewayPorts Response) :
    Program GatewayPorts Response :=
  if checkInternalToken state headers then
    handler
  else
    return errorBody 401 "invalid or missing internal token"

def rateLimit (scope : LimiterScope) (request : Request) (next : Program GatewayPorts Response) :
    Program GatewayPorts Response := do
  if ← askHttp (.allow scope (clientKey request.headers request.peer)) then
    next
  else
    return errorBody 429 "too many requests, slow down"

end Extractors

section Handlers

variable (state : AppState) (headers : HeaderMap) (userId : Uuid)

def readyz : Program GatewayPorts Response := do
  if ← askHttp .ready then
    return { status := 200, body := .text "ready" }
  else
    return { status := 503, body := .text "not ready" }

def register (body : Account.Credentials) : Program GatewayPorts Response := do
  match ← onAccount (Account.register state.prims.toLowercase body.email body.password).run with
  | .ok user => return { status := 201, body := .account user.id user.email }
  | .error .emailTaken => return errorBody 409 "email already registered"
  | .error .invalidEmail => return errorBody 422 (registerMessage .invalidEmail)
  | .error .passwordTooShort => return errorBody 422 (registerMessage .passwordTooShort)
  | .error (.infrastructure _) => return internalError

def login (body : Account.Credentials) : Program GatewayPorts Response := do
  let emailKey := state.prims.toLowercase (trim body.email)
  let ip := clientIp headers
  if ← askHttp (.allow .login emailKey) then
    match ← onSession
        (Session.login state.prims state.refreshTtlDays body.email body.password).run with
    | .ok tokens => return sessionResponse state tokens
    | .error .invalidCredentials =>
        recordSecurityEvent .loginFailed none ip emailKey
        return errorBody 401 "invalid credentials"
    | .error (.infrastructure _) => return internalError
  else
    recordSecurityEvent .loginThrottled none ip emailKey
    return errorBody 429 "too many login attempts, slow down"

def refresh : Program GatewayPorts Response :=
  match readRefreshCookie headers with
  | none => return errorBody 401 "missing refresh token"
  | some presented => do
      match ← onSession (Session.rotate state.prims state.refreshTtlDays presented).run with
      | .ok tokens => return sessionResponse state tokens
      | .error .invalidToken =>
          return { errorBody 401 "invalid or expired refresh token" with
            setCookie := some clearRefreshCookie }
      | .error (.infrastructure _) => return internalError

def logout : Program GatewayPorts Response := do
  match readRefreshCookie headers with
  | some presented => let _ ← onSession (Session.revoke state.prims presented).run
  | none => pure ()
  return { noContent with setCookie := some clearRefreshCookie }

def deleteAccount : Program GatewayPorts Response := do
  match ← onDeletion (Deletion.deleteAccount userId).run with
  | .ok () => return { noContent with setCookie := some clearRefreshCookie }
  | .error _ => return internalError

def getProfile : Program GatewayPorts Response := do
  match ← onProfile (Profile.view userId).run with
  | .ok (user, channels) =>
      return {
        status := 200
        body := .profile user.email user.createdAt (channels.map channelView)
          state.service.emailEnabled }
  | .error .notFound => return errorBody 404 "account not found"
  | .error _ => return internalError

def createChannel (body : CreateChannelRequest) : Program GatewayPorts Response :=
  match parseChannelKind body.kind with
  | none => return errorBody 422 "unknown channel kind"
  | some kind => do
      match ← onProfile
          (Profile.addChannel state.service.emailEnabled userId kind body.target body.secret).run with
      | .ok channel => return { status := 201, body := .channel (channelView channel) }
      | .error (.invalidChannel e) => return errorBody 422 (channelMessage e)
      | .error .emailNotConfigured =>
          return errorBody 422 "email delivery is not configured on this server"
      | .error _ => return internalError

-- The answer to a deletion that says whether there was something to delete.
def deleted (what : String) : Except PortError Bool → Response
  | .ok true => noContent
  | .ok false => errorBody 404 (what ++ " not found")
  | .error _ => internalError

def deleteChannel (id : Uuid) : Program GatewayPorts Response := do
  return deleted "channel" (← onProfile (Profile.removeChannel userId id).run)

def listDocuments : Program GatewayPorts Response := do
  match ← onKnowledge (Knowledge.list userId).run with
  | .ok documents => return { status := 200, body := .documents (documents.map documentView) }
  | .error _ => return internalError

def createDocument (body : CreateDocumentRequest) : Program GatewayPorts Response := do
  match ← onKnowledge (Knowledge.upload userId body.name body.content).run with
  | .ok document => return { status := 201, body := .document (documentView document) }
  | .error (.invalid e) => return errorBody 422 (documentMessage e)
  | .error _ => return internalError

def deleteDocument (id : Uuid) : Program GatewayPorts Response := do
  return deleted "document" (← onKnowledge (Knowledge.delete userId id).run)

def createSearch (body : CreateSearchRequest) : Program GatewayPorts Response := do
  match ← onJobs
      (launchSearch state.service.jobs.dailyQuota userId body.keyword body.mode).run with
  | .ok job => return { status := 202, body := .job job.id }
  | .error (.invalidJob e) => return errorBody 422 e.message
  | .error (.quotaExceeded quota) =>
      recordSecurityEvent .quotaExceeded (some userId) (clientIp headers) "daily search quota"
      return errorBody 429 (quotaMessage quota)
  | .error .dispatchFailed => return errorBody 502 "failed to reach the agent"
  | .error (.infrastructure _) => return internalError

def listSearches : Program GatewayPorts Response := do
  match ← onSearch (SearchQueries.list userId).run with
  | .ok jobs => return { status := 200, body := .jobs (jobs.map JobView.ofJob) }
  | .error _ => return internalError

def createRecurring (body : CreateRecurringRequest) : Program GatewayPorts Response := do
  match ← onProfile (RecurringSearches.create userId body.keyword body.mode body.intervalMinutes
      body.webhookUrl).run with
  | .ok search => return { status := 201, body := .recurring (recurringSearchJson search) }
  | .error (.invalid e) => return errorBody 422 e.message
  | .error (.tooMany max) => return errorBody 429 (tooManyMessage max)
  | .error .notFound => return errorBody 404 "not found"
  | .error (.infrastructure _) => return internalError

def listRecurring : Program GatewayPorts Response := do
  match ← onProfile (RecurringSearches.list userId).run with
  | .ok searches => return { status := 200, body := .recurrings (searches.map recurringSearchJson) }
  | .error _ => return internalError

def deleteRecurring (id : Uuid) : Program GatewayPorts Response := do
  match ← onProfile (RecurringSearches.delete userId id).run with
  | .ok () => return noContent
  | .error .notFound => return errorBody 404 "recurring search not found"
  | .error _ => return internalError

def answerSearch (jobId : Uuid) (answer : String) : Program GatewayPorts Response := do
  match ← onJobs (answerClarification userId jobId answer).run with
  | .ok _ => return noContent
  | .error .notFound => return errorBody 404 "search not found"
  | .error (.invalidAnswer .notAwaitingInput) =>
      return errorBody 409 "search is not awaiting an answer"
  | .error (.invalidAnswer e) => return errorBody 422 e.message
  | .error .dispatchFailed => return errorBody 502 "failed to reach the agent"
  | .error (.infrastructure _) => return internalError

def getSearch (jobId : Uuid) : Program GatewayPorts Response := do
  match ← onSearch (SearchQueries.get userId jobId).run with
  | .ok (some snapshot) => return { status := 200, body := .detail (jobDetailJson snapshot) }
  | .ok none => return errorBody 404 "search not found"
  | .error _ => return internalError

def searchEvents (jobId : Uuid) (polls : Nat) : Program GatewayPorts Response := do
  match ← onSearch (SearchQueries.get userId jobId).run with
  | .ok (some _) =>
      onSearch (jobUpdatesWith state.stream userId jobId polls)
      return { status := 200, body := .events }
  | .ok none => return errorBody 404 "search not found"
  | .error _ => return internalError

-- The answer to a notification of the worker about a job.
def ingested : Except IngestError Unit → Response
  | .ok () => noContent
  | .error .jobNotFound => errorBody 404 "job not found"
  | .error (.infrastructure _) => internalError

def internalStarted (jobId : Uuid) : Program GatewayPorts Response := do
  return ingested (← onJobs (IngestResults.start jobId).run)

def internalResults (jobId : Uuid) (results : List SearchResult) :
    Program GatewayPorts Response := do
  return ingested (← onJobs (IngestResults.complete jobId results).run)

def internalStep (jobId : Uuid) (step : AgentStep) : Program GatewayPorts Response := do
  return ingested (← onJobs (IngestResults.recordStep jobId step).run)

def internalQuestion (jobId : Uuid) (question : String) : Program GatewayPorts Response := do
  return ingested (← onJobs (IngestResults.requestInput jobId question).run)

def internalUsage (jobId : Uuid) (usage : JobUsage) : Program GatewayPorts Response := do
  return ingested (← onJobs (IngestResults.recordUsage jobId usage).run)

def internalFailure (jobId : Uuid) (error : String) : Program GatewayPorts Response := do
  return ingested (← onJobs (IngestResults.fail jobId error).run)

def internalStoreChunks (documentId : Uuid) (chunks : List NewChunk) :
    Program GatewayPorts Response := do
  match ← onKnowledge (Knowledge.storeChunks documentId chunks).run with
  | .ok () => return noContent
  | .error .documentNotFound => return errorBody 404 "document not found"
  | .error _ => return internalError

def internalDocumentFailure (documentId : Uuid) (error : String) :
    Program GatewayPorts Response := do
  match ← onKnowledge (Knowledge.markFailed documentId error).run with
  | .ok () => return noContent
  | .error _ => return internalError

def internalRetrieve (body : RetrieveRequest) : Program GatewayPorts Response := do
  match ← (Tenancy.retrieveForJob body.jobId body.embedding body.k).run.inl with
  | .ok chunks => return { status := 200, body := .chunks chunks }
  | .error .jobNotFound => return errorBody 404 "job not found"
  | .error _ => return internalError

end Handlers

-- `router_with_limits`: a request, once its route is found. The extractors run in the
-- order of a handler's arguments, and those of the worker's routes before the token is
-- looked at.
def serve (state : AppState) (request : Request) : Program GatewayPorts Response :=
  let headers := request.headers
  let auth := rateLimit .auth request
  let api handler := rateLimit .api request (authUser headers handler)
  let worker handler := internal state headers handler
  match request.route with
  | .readyz => readyz
  | .register body => auth (extracted body (register state))
  | .login body => auth (extracted body (login state headers))
  | .refresh => auth (refresh state headers)
  | .logout => auth (logout state headers)
  | .createSearch body => api fun userId => extracted body (createSearch state headers userId)
  | .listSearches => api listSearches
  | .getSearch id => api fun userId => extracted id (getSearch userId)
  | .answerSearch id answer => api fun userId =>
      extracted id fun id => extracted answer (answerSearch userId id)
  | .searchEvents id polls => api fun userId =>
      extracted id fun id => searchEvents state userId id polls
  | .createRecurring body => api fun userId => extracted body (createRecurring userId)
  | .listRecurring => api listRecurring
  | .deleteRecurring id => api fun userId => extracted id (deleteRecurring userId)
  | .getProfile => api (getProfile state)
  | .deleteAccount => api deleteAccount
  | .createChannel body => api fun userId => extracted body (createChannel state userId)
  | .deleteChannel id => api fun userId => extracted id (deleteChannel userId)
  | .createDocument body => api fun userId => extracted body (createDocument userId)
  | .listDocuments => api listDocuments
  | .deleteDocument id => api fun userId => extracted id (deleteDocument userId)
  | .internalStarted id => extracted id fun id => worker (internalStarted id)
  | .internalResults id results =>
      extracted id fun id => extracted results fun results => worker (internalResults id results)
  | .internalStep id step =>
      extracted id fun id => extracted step fun step => worker (internalStep id step)
  | .internalQuestion id question =>
      extracted id fun id => extracted question fun question => worker (internalQuestion id question)
  | .internalUsage id usage =>
      extracted id fun id => extracted usage fun usage => worker (internalUsage id usage)
  | .internalFailure id error =>
      extracted id fun id => extracted error fun error => worker (internalFailure id error)
  | .internalStoreChunks id chunks =>
      extracted id fun id => extracted chunks fun chunks => worker (internalStoreChunks id chunks)
  | .internalDocumentFailure id error =>
      extracted id fun id => extracted error fun error => worker (internalDocumentFailure id error)
  | .internalRetrieve body => extracted body fun body => worker (internalRetrieve body)

-- Requests in flight, none of which has made a call yet.
abbrev GatewayRuns (σ ι : Type) := Config GatewayPorts σ ι Response

def gatewayRuns {σ ι : Type} (state : AppState) (store : σ) (requests : ι → Request) :
    GatewayRuns σ ι :=
  .start store fun i => serve state (requests i)

end AgentBoilerplate.Http
