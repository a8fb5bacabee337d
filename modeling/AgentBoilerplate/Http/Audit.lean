import AgentBoilerplate.Effects.Protocol
import AgentBoilerplate.Http.Gateway

-- What the audit of the security events is told: a refused login, a throttled one, a
-- refresh token that comes back spent, and a used up quota, each once, and nothing else.
namespace AgentBoilerplate.Http

open Effects Job Knowledge Profile

-- What the checks make of a text plays no part, and to compute it is costly.
attribute [local irreducible] trim

-- What a request has come to know that it has to give account of, and the events that
-- it has recorded.
structure Evidence where
  request : Request
  userId : Option Uuid := none
  throttled : Bool := false
  spent : Option Session.RefreshToken := none
  recorded : List Session.SecurityEvent := []

def Evidence.next (evidence : Evidence) : Event GatewayPorts → Evidence
  | ⟨.inr (.inr (.inr (.allow .login _))), allowed⟩ => { evidence with throttled := !allowed }
  | ⟨.inr (.inr (.inr (.verifyToken _))), verified⟩ => { evidence with userId := verified }
  | ⟨.inr (.inl (.findByHash _)), .ok (some token)⟩ =>
      { evidence with spent := (some token).filter Session.RefreshToken.isConsumed }
  | ⟨.inr (.inl (.recordEvent event)), _⟩ =>
      { evidence with recorded := evidence.recorded ++ [event] }
  | _ => evidence

def auditing : Protocol GatewayPorts Evidence where
  permits _ _ := True
  next := Evidence.next

-- An event, but for its identifier and its time.
structure Report where
  kind : Session.SecurityEventKind
  userId : Option Uuid
  clientIp : Option String
  detail : String
deriving DecidableEq, Repr

def Report.states (report : Report) (event : Session.SecurityEvent) : Prop :=
  event.kind = report.kind.asStr ∧ event.userId = report.userId ∧
    event.clientIp = report.clientIp ∧ event.detail = report.detail

-- What there is to report, once a request is answered.
def due (state : AppState) (evidence : Evidence) (response : Response) : Option Report :=
  let ip := clientIp evidence.request.headers
  match evidence.request.route with
  | .login (.ok body) =>
      let email := state.prims.toLowercase (trim body.email)
      if response.status = 401 then some ⟨.loginFailed, none, ip, email⟩
      else if evidence.throttled then some ⟨.loginThrottled, none, ip, email⟩
      else none
  | .refresh =>
      if response.status = 401 then
        evidence.spent.map fun token =>
          ⟨.refreshReuseDetected, some token.userId, none, s!"family {token.familyId}"⟩
      else
        none
  | .createSearch (.ok _) =>
      if response.status = 429 then
        evidence.userId.map fun userId =>
          ⟨.quotaExceeded, some userId, ip, "daily search quota"⟩
      else
        none
  | _ => none

def Reported (state : AppState) (evidence : Evidence) (response : Response) : Prop :=
  List.Forall₂ Report.states (due state evidence response).toList evidence.recorded

-- The calls that neither record an event nor come to know of one.
def Silent : GatewayPorts.Call → Prop
  | .inr (.inl (.recordEvent _)) | .inr (.inl (.findByHash _)) => False
  | .inr (.inr (.inr (.allow .login _))) | .inr (.inr (.inr (.verifyToken _))) => False
  | _ => True

section Silence

variable {α : Type} {userId : Uuid} {state : AppState}

theorem tenant_silent (p : Program Tenancy.TenantPorts α) : p.inl.Within Silent := by
  induction p with
  | done value => trivial
  | call request next ih => exact ⟨trivial, ih⟩

theorem account_silent (p : Program Account.AccountPorts α) : (onAccount p).Within Silent := by
  induction p with
  | done value => trivial
  | call request next ih => exact ⟨trivial, ih⟩

theorem register_silent (body : Account.Credentials) : (register state body).Within Silent := by
  refine (account_silent _).bind fun result => ?_
  split <;> trivial

theorem answerSearch_silent (jobId : Uuid) (answer : String) :
    (answerSearch userId jobId answer).Within Silent := by
  refine (tenant_silent _).bind fun result => ?_
  split <;> trivial

theorem listSearches_silent : (listSearches userId).Within Silent := by
  refine (tenant_silent _).bind fun result => ?_
  split <;> trivial

theorem getSearch_silent (jobId : Uuid) : (getSearch userId jobId).Within Silent := by
  refine (tenant_silent _).bind fun result => ?_
  split <;> trivial

theorem searchEvents_silent (jobId : Uuid) (polls : Nat) :
    (searchEvents state userId jobId polls).Within Silent := by
  refine (tenant_silent _).bind fun result => ?_
  split
  · exact (tenant_silent _).bind fun _ => trivial
  · trivial
  · trivial

theorem createRecurring_silent (body : CreateRecurringRequest) :
    (createRecurring userId body).Within Silent := by
  refine (tenant_silent _).bind fun result => ?_
  split <;> trivial

theorem listRecurring_silent : (listRecurring userId).Within Silent := by
  refine (tenant_silent _).bind fun result => ?_
  split <;> trivial

theorem deleteRecurring_silent (id : Uuid) : (deleteRecurring userId id).Within Silent := by
  refine (tenant_silent _).bind fun result => ?_
  split <;> trivial

theorem getProfile_silent : (getProfile state userId).Within Silent := by
  refine (tenant_silent _).bind fun result => ?_
  split <;> trivial

theorem deleteAccount_silent : (deleteAccount userId).Within Silent := by
  refine (tenant_silent _).bind fun result => ?_
  split <;> trivial

theorem createChannel_silent (body : CreateChannelRequest) :
    (createChannel state userId body).Within Silent := by
  unfold createChannel
  split
  · trivial
  · refine (tenant_silent _).bind fun result => ?_
    split <;> trivial

theorem deleteChannel_silent (id : Uuid) : (deleteChannel userId id).Within Silent :=
  (tenant_silent _).bind fun _ => trivial

theorem listDocuments_silent : (listDocuments userId).Within Silent := by
  refine (tenant_silent _).bind fun result => ?_
  split <;> trivial

theorem createDocument_silent (body : CreateDocumentRequest) :
    (createDocument userId body).Within Silent := by
  refine (tenant_silent _).bind fun result => ?_
  split <;> trivial

theorem deleteDocument_silent (id : Uuid) : (deleteDocument userId id).Within Silent :=
  (tenant_silent _).bind fun _ => trivial

theorem ingested_silent (p : Program JobPorts (Except IngestError Unit)) :
    (do return ingested (← onJobs p) : Program GatewayPorts Response).Within Silent :=
  (tenant_silent _).bind fun _ => trivial

theorem internalStoreChunks_silent (documentId : Uuid) (chunks : List NewChunk) :
    (internalStoreChunks documentId chunks).Within Silent := by
  refine (tenant_silent _).bind fun result => ?_
  split <;> trivial

theorem internalDocumentFailure_silent (documentId : Uuid) (error : String) :
    (internalDocumentFailure documentId error).Within Silent := by
  refine (tenant_silent _).bind fun result => ?_
  split <;> trivial

theorem internalRetrieve_silent (body : RetrieveRequest) : (internalRetrieve body).Within Silent := by
  refine (tenant_silent _).bind fun result => ?_
  split <;> trivial

theorem session_silent {p : Program Session.SessionPorts α}
    (h : p.Within fun request => Silent (.inr (.inl request))) : (onSession p).Within Silent := by
  induction p with
  | done value => trivial
  | call request next ih => exact ⟨h.1, fun answer => ih answer (h.2 answer)⟩

theorem login_silent (prims : Session.Primitives) (ttlDays : Int) (email password : String) :
    (onSession (Session.login prims ttlDays email password).run).Within Silent := by
  unfold Session.login
  simp only [Fallible.run_orFail_bind, Session.findUserByEmail, Program.call_bind,
    Program.done_bind]
  refine session_silent ⟨trivial, ?_⟩
  rintro (e | found)
  · trivial
  cases found with
  | none => trivial
  | some user =>
      dsimp only
      split
      · refine ⟨trivial, fun _ => ⟨trivial, fun _ => ⟨trivial, fun _ => ⟨trivial, fun _ => ?_⟩⟩⟩⟩
        refine ⟨trivial, ?_⟩
        rintro (e | _)
        · trivial
        · exact ⟨trivial, fun answer => by cases answer <;> trivial⟩
      · trivial

theorem extracted_silent {part : Extracted α} {handler : α → Program GatewayPorts Response}
    (h : ∀ value, (handler value).Within Silent) : (extracted part handler).Within Silent := by
  cases part with
  | error rejection => trivial
  | ok value => exact h value

theorem internal_silent {handler : Program GatewayPorts Response} (h : handler.Within Silent)
    (headers : HeaderMap) : (internal state headers handler).Within Silent := by
  unfold internal
  split
  · exact h
  · trivial

theorem silent_next {request : GatewayPorts.Call} (h : Silent request)
    (answer : GatewayPorts.Answer request) (evidence : Evidence) :
    evidence.next ⟨request, answer⟩ = evidence := by
  rcases request with request | request | request | request
  · rfl
  · cases request with
    | findByHash hash => exact h.elim
    | recordEvent event => exact h.elim
    | _ => rfl
  · rfl
  · cases request with
    | allow scope key =>
        cases scope with
        | login => exact h.elim
        | auth => rfl
        | api => rfl
    | verifyToken token => exact h.elim
    | ready => rfl

theorem silent_obeys {p : Program GatewayPorts α} (h : p.Within Silent) (evidence : Evidence) :
    p.Obeys auditing (fun later _ => later = evidence) evidence :=
  h.obeys (fun _ _ => trivial) fun _ answer hsilent => silent_next hsilent answer evidence

end Silence

section Serve

variable {state : AppState} {request : Request} {evidence : Evidence}

theorem reported_none {response : Response} (hdue : due state evidence response = none)
    (hrecorded : evidence.recorded = []) : Reported state evidence response := by
  unfold Reported
  rw [hdue, hrecorded]
  exact .nil

theorem reported_some {response : Response} {report : Report} {event : Session.SecurityEvent}
    (hdue : due state evidence response = some report) (hrecorded : evidence.recorded = [event])
    (hstates : report.states event) : Reported state evidence response := by
  unfold Reported
  rw [hdue, hrecorded]
  exact .cons hstates .nil

theorem silent_reported {p : Program GatewayPorts Response} (h : p.Within Silent)
    (hdue : ∀ response, due state { request } response = none) :
    p.Obeys auditing (Reported state) { request } := by
  refine (silent_obeys h _).mono ?_
  rintro _ response rfl
  exact reported_none (hdue response) rfl

theorem rateLimit_reported {scope : LimiterScope} {next : Program GatewayPorts Response}
    (hscope : scope ≠ .login) (hdue : due state { request }
      (errorBody 429 "too many requests, slow down") = none)
    (h : next.Obeys auditing (Reported state) { request }) :
    (rateLimit scope request next).Obeys auditing (Reported state) { request } := by
  refine ⟨trivial, fun allowed => ?_⟩
  have hsilent : Silent (.inr (.inr (.inr
      (.allow scope (clientKey request.headers request.peer))))) := by
    cases scope with
    | login => exact absurd rfl hscope
    | auth => trivial
    | api => trivial
  rw [show auditing.next { request } ⟨_, allowed⟩ = { request } from
    silent_next hsilent allowed { request }]
  cases allowed with
  | false => exact reported_none hdue rfl
  | true => exact h

theorem api_reported {handler : Uuid → Program GatewayPorts Response}
    (hdue : ∀ response, due state { request } response = none)
    (h : ∀ userId, (handler userId).Obeys auditing (Reported state) { request, userId := some userId }) :
    (rateLimit .api request (authUser request.headers handler)).Obeys auditing (Reported state)
      { request } := by
  refine rateLimit_reported nofun (hdue _) ?_
  unfold authUser
  cases bearer request.headers with
  | none => exact reported_none (hdue _) rfl
  | some token =>
      refine ⟨trivial, fun verified => ?_⟩
      cases verified with
      | none => exact reported_none (hdue _) rfl
      | some userId => exact h userId

theorem api_silent {handler : Uuid → Program GatewayPorts Response}
    (hdue : ∀ userId response, due state { request, userId } response = none)
    (h : ∀ userId, (handler userId).Within Silent) :
    (rateLimit .api request (authUser request.headers handler)).Obeys auditing (Reported state)
      { request } := by
  refine api_reported (hdue none) fun userId => (silent_obeys (h userId) _).mono ?_
  rintro _ response rfl
  exact reported_none (hdue _ response) rfl

-- An event is recorded once, with what it was told.
theorem recordSecurityEvent_recorded (kind : Session.SecurityEventKind) (whose : Option Uuid)
    (ip : Option String) (detail : String) :
    (recordSecurityEvent kind whose ip detail).Obeys auditing
      (fun later _ => ∃ event, Report.states ⟨kind, whose, ip, detail⟩ event ∧
        later = { evidence with recorded := evidence.recorded ++ [event] }) evidence :=
  ⟨trivial, fun _ => ⟨trivial, fun _ => ⟨trivial, fun _ => ⟨_, ⟨rfl, rfl, rfl, rfl⟩, rfl⟩⟩⟩⟩

theorem createSearch_reported {headers : HeaderMap} {peer : Option String}
    (body : CreateSearchRequest) (userId : Uuid) :
    (createSearch state headers userId body).Obeys auditing (Reported state)
      { request := ⟨headers, peer, .createSearch (.ok body)⟩, userId := some userId } := by
  refine (silent_obeys (tenant_silent _) _).bind ?_
  rintro _ (e | job) rfl
  · cases e with
    | quotaExceeded quota =>
        refine (recordSecurityEvent_recorded _ _ _ _).bind ?_
        rintro _ _ ⟨event, hstates, rfl⟩
        exact reported_some rfl rfl hstates
    | invalidJob e => exact reported_none rfl rfl
    | dispatchFailed => exact reported_none rfl rfl
    | infrastructure e => exact reported_none rfl rfl
  · exact reported_none rfl rfl

theorem login_reported {headers : HeaderMap} {peer : Option String} (body : Account.Credentials) :
    (login state headers body).Obeys auditing (Reported state)
      { request := ⟨headers, peer, .login (.ok body)⟩ } := by
  unfold login
  simp only [askHttp, Program.call_bind, Program.done_bind, Program.obeys_call]
  refine ⟨trivial, fun allowed => ?_⟩
  cases allowed with
  | false =>
      refine (recordSecurityEvent_recorded _ _ _ _).bind ?_
      rintro _ _ ⟨event, hstates, rfl⟩
      exact reported_some rfl rfl hstates
  | true =>
      refine (silent_obeys (login_silent _ _ _ _) _).bind ?_
      rintro _ (e | tokens) rfl
      · cases e with
        | invalidCredentials =>
            refine (recordSecurityEvent_recorded _ _ _ _).bind ?_
            rintro _ _ ⟨event, hstates, rfl⟩
            exact reported_some rfl rfl hstates
        | infrastructure e => exact reported_none rfl rfl
      · exact reported_none rfl rfl

-- What a rotation reports: only that the token it was shown is spent.
def Rotated (request : Request) (evidence : Evidence) :
    Except Session.RefreshError Session.SessionTokens → Prop
  | .error .invalidToken => evidence.request = request ∧
      List.Forall₂ Report.states (evidence.spent.map fun token =>
        ⟨.refreshReuseDetected, some token.userId, none, s!"family {token.familyId}"⟩).toList
        evidence.recorded
  | _ => evidence.request = request ∧ evidence.recorded = []

theorem rotate_rotated (presented : String) :
    (Session.rotate state.prims state.refreshTtlDays presented).run.Obeys auditing.right.left
      (Rotated request) { request } := by
  unfold Session.rotate
  simp only [Fallible.run_orFail_bind, Session.findByHash, Program.call_bind,
    Program.done_bind, Program.obeys_call]
  refine ⟨trivial, ?_⟩
  rintro (e | found)
  · exact ⟨rfl, rfl⟩
  cases found with
  | none => exact ⟨rfl, .nil⟩
  | some stored =>
      by_cases hspent : stored.isConsumed = true
      · have hnext : auditing.right.left.next { request }
            ⟨.findByHash (Session.RefreshToken.hash state.prims presented), .ok (some stored)⟩ =
            { request, spent := some stored } :=
          congrArg (fun spent => ({ request, spent } : Evidence)) (if_pos hspent)
        rw [hnext]
        dsimp only
        rw [if_pos hspent]
        refine ⟨trivial, ?_⟩
        rintro (e | _)
        · exact ⟨rfl, rfl⟩
        · refine ⟨trivial, fun _ => ⟨trivial, fun _ => ⟨trivial, fun _ => ⟨rfl, ?_⟩⟩⟩⟩
          exact .cons ⟨rfl, rfl, rfl, rfl⟩ .nil
      · have hnext : auditing.right.left.next { request }
            ⟨.findByHash (Session.RefreshToken.hash state.prims presented), .ok (some stored)⟩ =
            { request } :=
          congrArg (fun spent => ({ request, spent } : Evidence)) (if_neg hspent)
        rw [hnext]
        dsimp only
        rw [if_neg hspent]
        simp only [Fallible.run_lift_bind, Session.utcNow, Program.call_bind, Program.done_bind,
          Program.obeys_call]
        refine ⟨trivial, fun now => ?_⟩
        split
        · refine ⟨trivial, ?_⟩
          rintro (e | _)
          · exact ⟨rfl, rfl⟩
          · exact ⟨rfl, .nil⟩
        · refine ⟨trivial, fun at_ => ⟨trivial, ?_⟩⟩
          rintro (e | _)
          · exact ⟨rfl, rfl⟩
          refine ⟨trivial, fun _ => ⟨trivial, fun _ => ⟨trivial, fun _ => ⟨trivial, ?_⟩⟩⟩⟩
          rintro (e | _)
          · exact ⟨rfl, rfl⟩
          refine ⟨trivial, ?_⟩
          rintro (e | accessToken) <;> exact ⟨rfl, rfl⟩

theorem refresh_reported (headers : HeaderMap) (peer : Option String) :
    (refresh state headers).Obeys auditing (Reported state) { request := ⟨headers, peer, .refresh⟩ } := by
  unfold refresh
  cases readRefreshCookie headers with
  | none => exact reported_none rfl rfl
  | some presented =>
      refine (Program.inr_obeys (Program.inl_obeys (rotate_rotated presented))).bind ?_
      rintro ⟨request, userId, throttled, spent, recorded⟩ (e | tokens) hrotated
      · cases e with
        | invalidToken =>
            obtain ⟨rfl, hrecorded⟩ := hrotated
            exact hrecorded
        | infrastructure e =>
            obtain ⟨rfl, hrecorded⟩ := hrotated
            exact reported_none rfl hrecorded
      · obtain ⟨rfl, hrecorded⟩ := hrotated
        exact reported_none rfl hrecorded

theorem logout_reported (headers : HeaderMap) (peer : Option String) :
    (logout state headers).Obeys auditing (Reported state) { request := ⟨headers, peer, .logout⟩ } := by
  have hrevoke : ∀ presented, (Session.revoke state.prims presented).run.Obeys auditing.right.left
      (fun later _ => later.request = ⟨headers, peer, .logout⟩ ∧ later.recorded = [])
      { request := ⟨headers, peer, .logout⟩ } := by
    intro presented
    refine ⟨trivial, ?_⟩
    rintro (e | found)
    · exact ⟨rfl, rfl⟩
    cases found with
    | none => exact ⟨rfl, rfl⟩
    | some stored =>
        refine ⟨trivial, ?_⟩
        rintro (e | _) <;> exact ⟨rfl, rfl⟩
  unfold logout
  cases readRefreshCookie headers with
  | none => exact reported_none rfl rfl
  | some presented =>
      refine (Program.inr_obeys (Program.inl_obeys (hrevoke presented))).bind ?_
      rintro ⟨request, userId, throttled, spent, recorded⟩ _ ⟨rfl, hrecorded⟩
      exact reported_none rfl hrecorded

theorem serve_reported (state : AppState) (request : Request) :
    (serve state request).Obeys auditing (Reported state) { request } := by
  obtain ⟨headers, peer, route⟩ := request
  cases route with
  | readyz =>
      refine silent_reported ⟨trivial, fun ready => ?_⟩ fun _ => rfl
      cases ready <;> trivial
  | register body =>
      exact rateLimit_reported nofun rfl
        (silent_reported (extracted_silent register_silent) fun _ => rfl)
  | login body =>
      refine rateLimit_reported nofun ?_ ?_
      · cases body <;> rfl
      · cases body with
        | error rejection => exact reported_none rfl rfl
        | ok body => exact login_reported body
  | refresh => exact rateLimit_reported nofun rfl (refresh_reported headers peer)
  | logout => exact rateLimit_reported nofun rfl (logout_reported headers peer)
  | createSearch body =>
      cases body with
      | error rejection =>
          exact api_reported (fun _ => rfl) fun _ => reported_none rfl rfl
      | ok body =>
          -- no quota is used up before it is known whose it is
          exact api_reported (fun _ => ite_self none) (createSearch_reported body)
  | listSearches => exact api_silent (fun _ _ => rfl) fun _ => listSearches_silent
  | getSearch id =>
      exact api_silent (fun _ _ => rfl) fun _ => extracted_silent getSearch_silent
  | answerSearch id answer =>
      exact api_silent (fun _ _ => rfl) fun _ => extracted_silent fun id =>
        extracted_silent (answerSearch_silent id)
  | searchEvents id polls =>
      exact api_silent (fun _ _ => rfl) fun _ => extracted_silent fun id =>
        searchEvents_silent id polls
  | createRecurring body =>
      exact api_silent (fun _ _ => rfl) fun _ => extracted_silent createRecurring_silent
  | listRecurring => exact api_silent (fun _ _ => rfl) fun _ => listRecurring_silent
  | deleteRecurring id =>
      exact api_silent (fun _ _ => rfl) fun _ => extracted_silent deleteRecurring_silent
  | getProfile => exact api_silent (fun _ _ => rfl) fun _ => getProfile_silent
  | deleteAccount => exact api_silent (fun _ _ => rfl) fun _ => deleteAccount_silent
  | createChannel body =>
      exact api_silent (fun _ _ => rfl) fun _ => extracted_silent createChannel_silent
  | deleteChannel id =>
      exact api_silent (fun _ _ => rfl) fun _ => extracted_silent deleteChannel_silent
  | createDocument body =>
      exact api_silent (fun _ _ => rfl) fun _ => extracted_silent createDocument_silent
  | listDocuments => exact api_silent (fun _ _ => rfl) fun _ => listDocuments_silent
  | deleteDocument id =>
      exact api_silent (fun _ _ => rfl) fun _ => extracted_silent deleteDocument_silent
  | internalStarted id =>
      exact silent_reported (extracted_silent fun _ => internal_silent (ingested_silent _) headers)
        fun _ => rfl
  | internalResults id results =>
      exact silent_reported (extracted_silent fun _ => extracted_silent fun _ =>
        internal_silent (ingested_silent _) headers) fun _ => rfl
  | internalStep id step =>
      exact silent_reported (extracted_silent fun _ => extracted_silent fun _ =>
        internal_silent (ingested_silent _) headers) fun _ => rfl
  | internalQuestion id question =>
      exact silent_reported (extracted_silent fun _ => extracted_silent fun _ =>
        internal_silent (ingested_silent _) headers) fun _ => rfl
  | internalUsage id usage =>
      exact silent_reported (extracted_silent fun _ => extracted_silent fun _ =>
        internal_silent (ingested_silent _) headers) fun _ => rfl
  | internalFailure id error =>
      exact silent_reported (extracted_silent fun _ => extracted_silent fun _ =>
        internal_silent (ingested_silent _) headers) fun _ => rfl
  | internalStoreChunks id chunks =>
      exact silent_reported (extracted_silent fun id => extracted_silent fun chunks =>
        internal_silent (internalStoreChunks_silent id chunks) headers) fun _ => rfl
  | internalDocumentFailure id error =>
      exact silent_reported (extracted_silent fun id => extracted_silent fun error =>
        internal_silent (internalDocumentFailure_silent id error) headers) fun _ => rfl
  | internalRetrieve body =>
      exact silent_reported (extracted_silent fun body =>
        internal_silent (internalRetrieve_silent body) headers) fun _ => rfl

end Serve

-- Whatever answers, and whatever the order of the calls of the requests in flight: a
-- request that is answered has recorded the one event that it has to report, if any, and
-- no other. Whether the audit took it changes nothing.
theorem refusals_recorded {σ ι : Type} [DecidableEq ι] (state : AppState)
    (handler : Handler GatewayPorts σ) (store : σ) (requests : ι → Request) (schedule : List ι) :
    let c := (gatewayRuns state store requests).run handler schedule
    ∀ i, (c.threads i).rest.Stops
      (Reported state (auditing.after { request := requests i } (c.threads i).past)) := by
  intro c i
  have hstart : (gatewayRuns state store requests).Obeys auditing (fun _ => Reported state)
      fun i => { request := requests i } :=
    Config.obeys_start (fun i => serve_reported state (requests i)) store
  exact ((hstart.conforms (fun _ => trivial) handler schedule).1 i).stops

end AgentBoilerplate.Http
