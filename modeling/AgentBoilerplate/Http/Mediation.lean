import AgentBoilerplate.Effects.Protocol
import AgentBoilerplate.Http.Gateway

-- What a request may ask of the ports: a limiter lets it in, a credential says whose it
-- is, and what it asks stays with what is theirs.
namespace AgentBoilerplate.Http

open Effects Job Knowledge Profile

-- What the checks make of a text plays no part, and to compute it is costly.
attribute [local irreducible] trim

inductive Access where
  | anyone
  | visitor
  | user
  | worker
deriving DecidableEq, Repr

namespace Route

-- Who may take a route.
def access : Route → Access
  | .readyz => .anyone
  | .register _ | .login _ | .refresh | .logout => .visitor
  | .createSearch _ | .listSearches | .getSearch _ | .answerSearch _ _ | .searchEvents _ _
  | .createRecurring _ | .listRecurring | .deleteRecurring _ | .getProfile | .deleteAccount
  | .createChannel _ | .deleteChannel _ | .createDocument _ | .listDocuments
  | .deleteDocument _ => .user
  | .internalStarted _ | .internalResults _ _ | .internalStep _ _ | .internalQuestion _ _
  | .internalUsage _ _ | .internalFailure _ _ | .internalStoreChunks _ _
  | .internalDocumentFailure _ _ | .internalRetrieve _ => .worker

-- The job and the document that a notification of the worker names.
def jobId : Route → Option Uuid
  | .internalStarted id | .internalResults id _ | .internalStep id _ | .internalQuestion id _
  | .internalUsage id _ | .internalFailure id _ => id.toOption
  | .internalRetrieve body => body.toOption.map RetrieveRequest.jobId
  | _ => none

def documentId : Route → Option Uuid
  | .internalStoreChunks id _ | .internalDocumentFailure id _ => id.toOption
  | _ => none

end Route

-- What a request has been granted, and what it has read or stored: the jobs stand
-- under the identifier that it asked for.
structure Standing where
  request : Request
  admitted : Bool := false
  consented : Bool := false
  userId : Option Uuid := none
  readings : List Int := []
  accounts : List Session.User := []
  tokens : List Session.RefreshToken := []
  jobs : List (Uuid × ResearchJob) := []
  documents : List Document := []
  searches : List RecurringSearch := []
  channels : List NotificationChannel := []

namespace Standing

variable (state : AppState) (standing : Standing)

def Acts (userId : Uuid) : Prop :=
  standing.request.route.access = .user ∧ standing.admitted = true ∧ standing.userId = some userId

def Works : Prop :=
  standing.request.route.access = .worker ∧ checkInternalToken state standing.request.headers = true

def Holds (P : Uuid → ResearchJob → Prop) : Prop := ∃ entry ∈ standing.jobs, P entry.1 entry.2

-- The request shows the password of an account, or carries a refresh token that is
-- neither spent nor expired.
def Proves (userId : Uuid) : Prop :=
  (∃ body, standing.request.route = .login (.ok body) ∧ standing.consented = true ∧
    ∃ user ∈ standing.accounts, user.id = userId ∧
      state.prims.verify body.password user.passwordHash = true) ∨
  (standing.request.route = .refresh ∧ standing.admitted = true ∧ ∃ token ∈ standing.tokens,
    token.userId = userId ∧ token.isConsumed = false ∧
      ∃ now ∈ standing.readings, token.isExpired now = false)

def PermitsHttp : HttpCall → Prop
  | .allow .auth key => standing.request.route.access = .visitor ∧
      key = clientKey standing.request.headers standing.request.peer
  | .allow .api key => standing.request.route.access = .user ∧
      key = clientKey standing.request.headers standing.request.peer
  | .allow .login key => standing.admitted = true ∧ ∃ body,
      standing.request.route = .login (.ok body) ∧ key = state.prims.toLowercase (trim body.email)
  | .verifyToken token => standing.request.route.access = .user ∧ standing.admitted = true ∧
      bearer standing.request.headers = some token
  | .ready => standing.request.route.access = .anyone

def PermitsSession : Session.SessionCall → Prop
  | .findUserByEmail email => standing.consented = true ∧ ∃ body,
      standing.request.route = .login (.ok body) ∧ email = state.prims.toLowercase (trim body.email)
  | .findByHash hash => standing.admitted = true ∧
      (standing.request.route = .refresh ∨ standing.request.route = .logout) ∧
      ∃ presented, readRefreshCookie standing.request.headers = some presented ∧
        hash = state.prims.sha256 presented
  | .insert token => standing.Proves state token.userId
  | .issueToken userId => standing.Proves state userId
  | .markConsumed id _ | .delete id => standing.request.route = .refresh ∧
      ∃ token ∈ standing.tokens, token.id = id
  | .deleteFamily familyId => ∃ token ∈ standing.tokens, token.familyId = familyId
  | .deleteExpired _ => False
  | .recordEvent _ | .utcNow | .newUuid | .newPlaintext => standing.admitted = true

def PermitsAccount (request : Account.AccountCall) : Prop :=
  standing.admitted = true ∧ ∃ body, standing.request.route = .register (.ok body) ∧
    match request with
    | .findByEmail email => email = Account.normalize state.prims.toLowercase body.email
    | .insert user => user.email = Account.normalize state.prims.toLowercase body.email
    | .hash password => password = body.password
    | .utcNow | .newUuid => True

section User

variable (userId : Uuid)

def PermitsUserJob : JobCall → Prop
  | .insert job => job.userId = userId
  | .update job | .dispatch job _ => job.userId = userId ∧
      standing.Holds fun _ held => held.userId = userId ∧ held.id = job.id
  | .find _ | .utcNow | .newUuid => True
  | .countCreatedSince other _ => other = userId
  | .clearSteps id => standing.Holds fun asked held => held.userId = userId ∧ asked = id
  | .recentUrlsForRecurring id _ =>
      standing.Holds fun _ held => held.userId = userId ∧ held.recurringSearchId = some id
  | _ => False

def PermitsUserQuery : QueryCall → Prop
  | .listForUser other => other = userId
  | .resultsFor id | .stepsFor id =>
      standing.Holds fun asked held => held.userId = userId ∧ asked = id
  | .update detail =>
      standing.Holds fun _ held => held.userId = userId ∧ detail.job = JobView.ofJob held
  | .instant | .sleep _ => True

def PermitsUserDocument : KnowledgeCall → Prop
  | .insert document => document.userId = userId
  | .listForUser other | .delete other _ => other = userId
  | .dispatchEmbed id name _ => ∃ document ∈ standing.documents,
      document.userId = userId ∧ document.id = id ∧ document.name = name
  | .markFailed id _ => ∃ document ∈ standing.documents, document.userId = userId ∧ document.id = id
  | .utcNow | .newUuid => True
  | _ => False

def PermitsUserDeletion (request : Deletion.DeletionCall) : Prop :=
  standing.request.route = .deleteAccount ∧ match request with
    | .recurring other | .jobs other | .refreshTokens other | .channels other | .documents other
    | .user other => other = userId

def PermitsUserProfile : ProfileCall → Prop
  | .findUser other | .listChannels other | .deleteChannel other _ | .listSearches other
  | .deleteSearch other _ => other = userId
  | .insertChannel channel => channel.userId = userId
  | .insertSearch search => search.userId = userId
  | .utcNow | .newUuid => True

def PermitsUser : Tenancy.TenantPorts.Call → Prop
  | .inl (.inl request) => standing.PermitsUserJob userId request
  | .inl (.inr request) => standing.PermitsUserQuery userId request
  | .inr (.inl request) => standing.PermitsUserDocument userId request
  | .inr (.inr (.inl request)) => standing.PermitsUserDeletion userId request
  | .inr (.inr (.inr request)) => PermitsUserProfile userId request

end User

def PermitsWorkerJob : JobCall → Prop
  | .find id => standing.request.route.jobId = some id
  | .update job => standing.Holds fun _ held => held.id = job.id ∧ held.userId = job.userId
  | .storeResults id _ | .appendStep id _ | .addUsage id _ => standing.Holds fun asked _ => asked = id
  | .findRecurring id => standing.Holds fun _ held => held.recurringSearchId = some id
  | .listChannels userId => ∃ search ∈ standing.searches, search.userId = userId
  | .sendDigest url digest => (∃ search ∈ standing.searches, search.webhookUrl = some url) ∧
      standing.Holds fun _ held => held.id = digest.jobId
  | .notify channel digest => channel ∈ standing.channels ∧
      standing.Holds fun _ held => held.id = digest.jobId
  | .utcNow => True
  | _ => False

def PermitsWorkerDocument : KnowledgeCall → Prop
  | .find id | .markFailed id _ => standing.request.route.documentId = some id
  | .storeChunks document _ => document ∈ standing.documents
  | .retrieve userId _ _ => standing.Holds fun _ held => held.userId = userId
  | _ => False

def PermitsWorker : Tenancy.TenantPorts.Call → Prop
  | .inl (.inl request) => standing.PermitsWorkerJob request
  | .inr (.inl request) => standing.PermitsWorkerDocument request
  | _ => False

def Permits : GatewayPorts.Call → Prop
  | .inl request => (∃ userId, standing.Acts userId ∧ standing.PermitsUser userId request) ∨
      standing.Works state ∧ standing.PermitsWorker request
  | .inr (.inl request) => standing.PermitsSession state request
  | .inr (.inr (.inl request)) => standing.PermitsAccount state request
  | .inr (.inr (.inr request)) => standing.PermitsHttp state request

def nextOnHttp : Event HttpPorts → Standing
  | ⟨.allow .login _, allowed⟩ => { standing with consented := allowed }
  | ⟨.allow _ _, allowed⟩ => { standing with admitted := allowed }
  | ⟨.verifyToken _, verified⟩ => { standing with userId := verified }
  | ⟨.ready, _⟩ => standing

def nextOnSession : Event Session.SessionPorts → Standing
  | ⟨.findUserByEmail _, .ok (some user)⟩ => { standing with accounts := user :: standing.accounts }
  | ⟨.findByHash _, .ok (some token)⟩ => { standing with tokens := token :: standing.tokens }
  | ⟨.utcNow, now⟩ => { standing with readings := now :: standing.readings }
  | _ => standing

def learns (asked : Uuid) (job : ResearchJob) : Standing :=
  { standing with jobs := (asked, job) :: standing.jobs }

def nextOnJob : Event JobPorts → Standing
  | ⟨.find id, .ok (some job)⟩ => standing.learns id job
  | ⟨.insert job, _⟩ => standing.learns job.id job
  | ⟨.findRecurring _, .ok (some search)⟩ =>
      { standing with searches := search :: standing.searches }
  | ⟨.listChannels _, .ok channels⟩ => { standing with channels := channels ++ standing.channels }
  | _ => standing

def nextOnDocument : Event KnowledgePorts → Standing
  | ⟨.find _, .ok (some document)⟩ =>
      { standing with documents := document :: standing.documents }
  | ⟨.insert document, _⟩ => { standing with documents := document :: standing.documents }
  | _ => standing

end Standing

-- What stands between a request and the ports, call by call.
def mediation (state : AppState) : Protocol GatewayPorts Standing where
  permits standing := standing.Permits state
  next standing
    | ⟨.inl (.inl (.inl request)), answer⟩ => standing.nextOnJob ⟨request, answer⟩
    | ⟨.inl (.inr (.inl request)), answer⟩ => standing.nextOnDocument ⟨request, answer⟩
    | ⟨.inr (.inl request), answer⟩ => standing.nextOnSession ⟨request, answer⟩
    | ⟨.inr (.inr (.inr request)), answer⟩ => standing.nextOnHttp ⟨request, answer⟩
    | _ => standing

-- A transition leaves a job whose and what it was.
structure Same (job later : ResearchJob) : Prop where
  id : later.id = job.id
  userId : later.userId = job.userId
  recurringSearchId : later.recurringSearchId = job.recurringSearchId

theorem same_start (job : ResearchJob) : Same job job.start := by
  unfold ResearchJob.start
  split <;> exact ⟨rfl, rfl, rfl⟩

theorem same_fail (job : ResearchJob) (clock : Int) (error : String) :
    Same job (job.fail clock error) := by
  unfold ResearchJob.fail
  split <;> exact ⟨rfl, rfl, rfl⟩

theorem same_requestInput (job : ResearchJob) (question : String) :
    Same job (job.requestInput question).2 := by
  unfold ResearchJob.requestInput
  dsimp only
  split_ifs <;> exact ⟨rfl, rfl, rfl⟩

theorem same_provideAnswer (job : ResearchJob) (answer : String) :
    Same job (job.provideAnswer answer).2 := by
  unfold ResearchJob.provideAnswer
  dsimp only
  split_ifs <;> exact ⟨rfl, rfl, rfl⟩

section Learning

variable {state : AppState} {standing : Standing} {asked userId : Uuid} {job : ResearchJob}

theorem Standing.Acts.learns (hacts : standing.Acts userId) :
    (standing.learns asked job).Acts userId := hacts

theorem Standing.Works.learns (hworks : standing.Works state) :
    (standing.learns asked job).Works state := hworks

theorem next_find (job : ResearchJob) :
    (mediation state).left.left.left.next standing ⟨.find asked, .ok (some job)⟩ =
      standing.learns asked job := rfl

theorem next_insert (job : ResearchJob) (answer : Except PortError Unit) :
    (mediation state).left.left.left.next standing ⟨.insert job, answer⟩ =
      standing.learns job.id job := rfl

end Learning

section User

variable {state : AppState} {standing : Standing} {userId : Uuid}

theorem Standing.Acts.job {request : JobCall} (hacts : standing.Acts userId)
    (h : standing.PermitsUserJob userId request) :
    (mediation state).left.left.left.permits standing request :=
  Or.inl ⟨userId, hacts, h⟩

theorem failNow_obeys {job : ResearchJob} (hacts : standing.Acts userId) (error : String) :
    (job.failNow error).Obeys (mediation state).left.left.left
      (fun later failed => later = standing ∧ Same job failed) standing := by
  unfold ResearchJob.failNow
  split
  · exact ⟨rfl, rfl, rfl, rfl⟩
  · exact ⟨hacts.job trivial, fun now => ⟨rfl, same_fail job now error⟩⟩

theorem dispatchOrFail_obeys {ε : Type} (infrastructure : PortError → ε) (dispatchFailed : ε)
    {job : ResearchJob} (seenUrls : List String) (hacts : standing.Acts userId)
    (hjob : standing.PermitsUserJob userId (.update job)) :
    (dispatchOrFail infrastructure dispatchFailed job seenUrls).run.Obeys
      (mediation state).left.left.left (fun _ _ => True) standing := by
  unfold dispatchOrFail
  simp only [Fallible.run_lift_bind, Job.ask, Program.call_bind, Program.done_bind,
    Program.obeys_call]
  refine ⟨hacts.job hjob, ?_⟩
  rintro (e | _)
  · -- the failure of the dispatch is stored
    dsimp only
    rw [Fallible.run_lift_bind]
    refine (failNow_obeys hacts _).bind ?_
    rintro _ failed ⟨rfl, hsame⟩
    rw [Fallible.run_orFail_bind]
    refine ⟨hacts.job ?_, ?_⟩
    · show failed.userId = userId ∧ _
      rw [hsame.userId, hsame.id]
      exact hjob
    · rintro (e | _) <;> trivial
  · trivial

theorem newNow_obeys (keyword : String) (hacts : standing.Acts userId) :
    (ResearchJob.newNow userId keyword).Obeys (mediation state).left.left.left
      (fun later created => later = standing ∧ ∀ job, created = .ok job → job.userId = userId)
      standing := by
  unfold ResearchJob.newNow
  split_ifs
  · exact ⟨rfl, fun _ h => nomatch h⟩
  · exact ⟨rfl, fun _ h => nomatch h⟩
  · exact ⟨hacts.job trivial, fun id => ⟨hacts.job trivial, fun clock =>
      ⟨rfl, fun job h => (ResearchJob.new_eq h).2.1⟩⟩⟩

theorem launchSearch_obeys (dailyQuota : Nat) (keyword : String) (mode : JobMode)
    (hacts : standing.Acts userId) :
    (launchSearch dailyQuota userId keyword mode).run.Obeys (mediation state).left.left.left
      (fun _ _ => True) standing := by
  unfold launchSearch
  simp only [Fallible.run_lift_bind, Fallible.run_orFail_bind, Job.ask, Program.call_bind,
    Program.done_bind, Program.obeys_call]
  refine ⟨hacts.job trivial, fun now => ⟨hacts.job rfl, ?_⟩⟩
  rintro (e | used)
  · trivial
  dsimp only
  split
  · trivial
  rw [Fallible.run_orFail_bind]
  refine (newNow_obeys keyword hacts).bind ?_
  rintro _ (e | job) ⟨rfl, hcreated⟩
  · trivial
  have hjob : job.userId = userId := hcreated job rfl
  dsimp only
  rw [Fallible.run_orFail_bind]
  refine ⟨hacts.job hjob, fun answer => ?_⟩
  rw [next_insert]
  rcases answer with e | _
  · trivial
  · exact dispatchOrFail_obeys _ _ [] hacts.learns ⟨hjob, _, List.mem_cons_self, hjob, rfl⟩

theorem answerClarification_obeys (jobId : Uuid) (answer : String) (hacts : standing.Acts userId) :
    (answerClarification userId jobId answer).run.Obeys (mediation state).left.left.left
      (fun _ _ => True) standing := by
  unfold answerClarification
  simp only [Fallible.run_orFail_bind, Job.ask, Program.call_bind, Program.done_bind,
    Program.obeys_call]
  refine ⟨hacts.job trivial, ?_⟩
  rintro (e | found)
  · trivial
  dsimp only
  cases found with
  | none => trivial
  | some job =>
      by_cases howner : job.userId = userId
      · simp only [Option.filter_some, howner, decide_true, if_true]
        have hsame := same_provideAnswer job answer
        generalize job.provideAnswer answer = provided at hsame ⊢
        rcases provided with ⟨e | _, answered⟩
        · trivial
        dsimp only at hsame ⊢
        simp only [Fallible.run_orFail_bind, Program.call_bind, Program.done_bind,
          Program.obeys_call]
        rw [next_find]
        have hupdate : (standing.learns jobId job).PermitsUserJob userId (.update answered) :=
          ⟨hsame.userId.trans howner, _, List.mem_cons_self, howner, hsame.id.symm⟩
        replace hacts : (standing.learns jobId job).Acts userId := hacts.learns
        have hclear : (standing.learns jobId job).PermitsUserJob userId (.clearSteps jobId) :=
          ⟨_, List.mem_cons_self, howner, rfl⟩
        refine ⟨hacts.job hclear, ?_⟩
        rintro (e | _)
        · trivial
        refine ⟨hacts.job hupdate, ?_⟩
        rintro (e | _)
        · trivial
        dsimp only
        cases hlink : answered.recurringSearchId with
        | none => exact dispatchOrFail_obeys _ _ [] hacts hupdate
        | some searchId =>
            dsimp only
            have hrecent : (standing.learns jobId job).PermitsUserJob userId
                (.recentUrlsForRecurring searchId 200) :=
              ⟨_, List.mem_cons_self, howner, hsame.recurringSearchId.symm.trans hlink⟩
            rw [Fallible.run_orFail_bind]
            refine ⟨hacts.job hrecent, ?_⟩
            rintro (e | seenUrls)
            · trivial
            · exact dispatchOrFail_obeys _ _ seenUrls hacts hupdate
      · simp only [Option.filter_some, howner, decide_false, Bool.false_eq_true, if_false]
        trivial

theorem Standing.Acts.query {request : QueryCall} (hacts : standing.Acts userId)
    (h : standing.PermitsUserQuery userId request) :
    (mediation state).left.left.permits standing (.inr request) :=
  Or.inl ⟨userId, hacts, h⟩

theorem list_obeys (hacts : standing.Acts userId) :
    (SearchQueries.list userId).run.Obeys (mediation state).left.left (fun _ _ => True) standing :=
  Fallible.obeys_orFail ⟨hacts.query rfl, fun _ => trivial⟩

-- A job that is shown is the user's, and was read just before.
def Shown (standing : Standing) (userId : Uuid) : Except PortError (Option Snapshot) → Prop
  | .ok (some snapshot) => standing.Holds fun _ held => held.userId = userId ∧ snapshot.job = held
  | _ => True

theorem get_obeys (jobId : Uuid) (hacts : standing.Acts userId) :
    (SearchQueries.get userId jobId).run.Obeys (mediation state).left.left
      (fun later result => later.Acts userId ∧ Shown later userId result) standing := by
  unfold SearchQueries.get
  simp only [Fallible.run_orFail_bind, askJobs, Program.call_bind, Program.done_bind,
    Program.obeys_call]
  refine ⟨hacts.job trivial, ?_⟩
  rintro (e | found)
  · exact ⟨hacts, trivial⟩
  cases found with
  | none => exact ⟨hacts, trivial⟩
  | some job =>
      dsimp only
      split
      · exact ⟨hacts, trivial⟩
      rename_i howner
      have hheld : ∀ {asked}, asked = jobId →
          (standing.learns jobId job).Holds fun other held => held.userId = userId ∧ other = asked :=
        fun h => ⟨_, List.mem_cons_self, not_not.mp howner, h.symm⟩
      replace hacts : (standing.learns jobId job).Acts userId := hacts.learns
      simp only [Fallible.run_orFail_bind, query, Program.call_bind, Program.done_bind,
        Program.obeys_call]
      refine ⟨hacts.query (hheld rfl), ?_⟩
      rintro (e | results)
      · exact ⟨hacts, trivial⟩
      refine ⟨hacts.query (hheld rfl), ?_⟩
      rintro (e | steps)
      · exact ⟨hacts, trivial⟩
      · exact ⟨hacts, _, List.mem_cons_self, not_not.mp howner, rfl⟩

theorem pollUpdates_obeys (stream : StreamConfig) (jobId : Uuid) (started : Int) (polls : Nat)
    (lastPayload : Option String) (hacts : standing.Acts userId) :
    (pollUpdates stream userId jobId started polls lastPayload).Obeys (mediation state).left.left
      (fun later _ => later.Acts userId) standing := by
  induction polls generalizing lastPayload standing with
  | zero => exact hacts
  | succ polls ih =>
      unfold pollUpdates
      simp only [query, Program.call_bind, Program.done_bind, Program.obeys_call]
      refine ⟨hacts.query trivial, fun now => ?_⟩
      split
      · exact hacts
      refine (get_obeys jobId hacts).bind ?_
      rintro later (e | found) ⟨hlater, hshown⟩
      · exact hlater
      cases found with
      | none => exact hlater
      | some snapshot =>
          obtain ⟨entry, hentry, howner, hjob⟩ := hshown
          dsimp only
          split
          · refine ⟨hlater.query ⟨entry, hentry, howner, congrArg JobView.ofJob hjob⟩, fun _ => ?_⟩
            beta_reduce
            split
            · exact hlater
            · exact ih _ hlater
          · exact ⟨hlater.query trivial, fun _ => ih _ hlater⟩

theorem jobUpdatesWith_obeys (stream : StreamConfig) (jobId : Uuid) (polls : Nat)
    (hacts : standing.Acts userId) :
    (jobUpdatesWith stream userId jobId polls).Obeys (mediation state).left.left
      (fun later _ => later.Acts userId) standing :=
  ⟨hacts.query trivial, fun started => pollUpdates_obeys stream jobId started polls none hacts⟩

theorem Standing.Acts.document {request : KnowledgeCall} (hacts : standing.Acts userId)
    (h : standing.PermitsUserDocument userId request) :
    (mediation state).left.right.left.permits standing request :=
  Or.inl ⟨userId, hacts, h⟩

theorem newDocument_obeys (name : String) (hacts : standing.Acts userId) :
    (Document.new userId name).Obeys (mediation state).left.right.left
      (fun later created => later = standing ∧
        ∀ document, created = .ok document → document.userId = userId) standing := by
  unfold Document.new
  dsimp only
  split_ifs
  · exact ⟨rfl, fun _ h => nomatch h⟩
  · exact ⟨rfl, fun _ h => nomatch h⟩
  · refine ⟨hacts.document trivial, fun id => ⟨hacts.document trivial, fun now => ⟨rfl, ?_⟩⟩⟩
    intro document h
    cases h
    rfl

theorem upload_obeys (name content : String) (hacts : standing.Acts userId) :
    (Knowledge.upload userId name content).run.Obeys (mediation state).left.right.left
      (fun _ _ => True) standing := by
  unfold Knowledge.upload
  rw [Fallible.run_orFail_bind, Program.pure_eq, Program.done_bind]
  generalize validateContent content = valid
  rcases valid with e | _
  · trivial
  dsimp only
  rw [Fallible.run_orFail_bind]
  refine (newDocument_obeys name hacts).bind ?_
  rintro _ (e | document) ⟨rfl, hcreated⟩
  · trivial
  have howner : document.userId = userId := hcreated document rfl
  dsimp only
  simp only [Fallible.run_orFail_bind, Fallible.run_lift_bind, Knowledge.ask, Program.call_bind,
    Program.done_bind, Program.obeys_call]
  refine ⟨hacts.document howner, ?_⟩
  rintro (e | _)
  · trivial
  dsimp only
  refine ⟨Or.inl ⟨userId, hacts, document, List.mem_cons_self, howner, rfl, rfl⟩, ?_⟩
  rintro (e | _)
  · exact ⟨Or.inl ⟨userId, hacts, document, List.mem_cons_self, howner, rfl⟩, fun _ => trivial⟩
  · trivial

theorem deleteAccount_obeys (hacts : standing.Acts userId)
    (hroute : standing.request.route = .deleteAccount) :
    (Deletion.deleteAccount userId).run.Obeys (mediation state).left.right.right.left
      (fun _ _ => True) standing := by
  have hpermits : ∀ {request}, standing.PermitsUserDeletion userId request →
      (mediation state).left.right.right.left.permits standing request :=
    fun h => Or.inl ⟨userId, hacts, h⟩
  unfold Deletion.deleteAccount
  simp only [Fallible.run_orFail_bind, Deletion.ask, Program.call_bind, Program.done_bind,
    Program.obeys_call]
  refine ⟨hpermits ⟨hroute, rfl⟩, ?_⟩
  rintro (e | _)
  · trivial
  refine ⟨hpermits ⟨hroute, rfl⟩, ?_⟩
  rintro (e | _)
  · trivial
  refine ⟨hpermits ⟨hroute, rfl⟩, ?_⟩
  rintro (e | _)
  · trivial
  refine ⟨hpermits ⟨hroute, rfl⟩, ?_⟩
  rintro (e | _)
  · trivial
  refine ⟨hpermits ⟨hroute, rfl⟩, ?_⟩
  rintro (e | _)
  · trivial
  refine ⟨hpermits ⟨hroute, rfl⟩, ?_⟩
  rintro (e | _) <;> trivial

theorem Standing.Acts.profile {request : ProfileCall} (hacts : standing.Acts userId)
    (h : Standing.PermitsUserProfile userId request) :
    (mediation state).left.right.right.right.permits standing request :=
  Or.inl ⟨userId, hacts, h⟩

theorem view_obeys (hacts : standing.Acts userId) :
    (Profile.view userId).run.Obeys (mediation state).left.right.right.right
      (fun _ _ => True) standing := by
  unfold Profile.view
  simp only [Fallible.run_orFail_bind, Profile.ask, Program.call_bind, Program.done_bind,
    Program.obeys_call]
  refine ⟨hacts.profile rfl, ?_⟩
  rintro (e | found)
  · trivial
  cases found with
  | none => trivial
  | some user =>
      dsimp only
      rw [Fallible.run_orFail_bind]
      refine ⟨hacts.profile rfl, ?_⟩
      rintro (e | channels) <;> trivial

theorem newSearch_obeys (keyword : String) (mode : JobMode) (intervalMinutes : Nat)
    (webhookUrl : Option String) (hacts : standing.Acts userId) :
    (newSearch userId keyword mode intervalMinutes webhookUrl).Obeys
      (mediation state).left.right.right.right
      (fun later created => later = standing ∧ ∀ search, created = .ok search → search.userId = userId)
      standing := by
  unfold newSearch
  split
  · exact ⟨rfl, fun _ h => nomatch h⟩
  · refine ⟨hacts.profile trivial, fun id => ⟨hacts.profile trivial, fun now => ⟨rfl, ?_⟩⟩⟩
    intro search h
    cases h
    rfl

theorem createRecurring_obeys (keyword : String) (mode : JobMode) (intervalMinutes : Nat)
    (webhookUrl : Option String) (hacts : standing.Acts userId) :
    (RecurringSearches.create userId keyword mode intervalMinutes webhookUrl).run.Obeys
      (mediation state).left.right.right.right (fun _ _ => True) standing := by
  unfold RecurringSearches.create
  simp only [Fallible.run_orFail_bind, Profile.ask, Program.call_bind, Program.done_bind,
    Program.obeys_call]
  refine ⟨hacts.profile rfl, ?_⟩
  rintro (e | searches)
  · trivial
  dsimp only
  split
  · trivial
  rw [Fallible.run_orFail_bind]
  refine (newSearch_obeys keyword mode intervalMinutes webhookUrl hacts).bind ?_
  rintro _ (e | search) ⟨rfl, hcreated⟩
  · trivial
  have howner : search.userId = userId := hcreated search rfl
  dsimp only
  rw [Fallible.run_orFail_bind]
  refine ⟨hacts.profile howner, ?_⟩
  rintro (e | _) <;> trivial

theorem newChannel_owner {id : Uuid} {now : Int} {kind : ChannelKind} {target : String}
    {secret : Option String} {channel : NotificationChannel}
    (h : Notify.newChannel id now userId kind target secret = .ok channel) :
    channel.userId = userId := by
  unfold Notify.newChannel at h
  dsimp only at h
  cases kind with
  | slack =>
      dsimp only at h
      split_ifs at h
      cases h
      rfl
  | telegram =>
      dsimp only at h
      split_ifs at h
      cases h
      rfl
  | email =>
      dsimp only at h
      split_ifs at h
      cases h
      rfl

theorem newChannel_obeys (kind : ChannelKind) (target : String) (secret : Option String)
    (hacts : standing.Acts userId) :
    (Profile.newChannel userId kind target secret).Obeys (mediation state).left.right.right.right
      (fun later created => later = standing ∧
        ∀ channel, created = .ok channel → channel.userId = userId) standing := by
  unfold Profile.newChannel
  split
  · exact ⟨rfl, fun _ h => nomatch h⟩
  · rename_i channel hchannel
    refine ⟨hacts.profile trivial, fun id => ⟨hacts.profile trivial, fun now => ⟨rfl, ?_⟩⟩⟩
    have howner := newChannel_owner hchannel
    intro made h
    cases h
    exact howner

theorem addChannel_obeys (emailEnabled : Bool) (kind : ChannelKind) (target : String)
    (secret : Option String) (hacts : standing.Acts userId) :
    (Profile.addChannel emailEnabled userId kind target secret).run.Obeys
      (mediation state).left.right.right.right (fun _ _ => True) standing := by
  unfold Profile.addChannel
  split
  · trivial
  rw [Fallible.run_orFail_bind]
  refine (newChannel_obeys kind target secret hacts).bind ?_
  rintro _ (e | channel) ⟨rfl, hcreated⟩
  · trivial
  have howner : channel.userId = userId := hcreated channel rfl
  dsimp only
  rw [Fallible.run_orFail_bind]
  refine ⟨hacts.profile howner, ?_⟩
  rintro (e | _) <;> trivial

end User

section Worker

variable {state : AppState} {standing : Standing}

theorem Standing.Works.job {request : JobCall} (hworks : standing.Works state)
    (h : standing.PermitsWorkerJob request) :
    (mediation state).left.left.left.permits standing request :=
  Or.inr ⟨hworks, h⟩

-- The job that a notification names is held once it is found, or the notification
-- is refused.
def Found (state : AppState) (jobId : Uuid) (standing : Standing) :
    Except IngestError ResearchJob → Prop
  | .ok job => standing.Works state ∧ (jobId, job) ∈ standing.jobs
  | .error _ => True

theorem findJob_obeys {jobId : Uuid} (hworks : standing.Works state)
    (hjob : standing.request.route.jobId = some jobId) :
    (IngestResults.findJob jobId).run.Obeys (mediation state).left.left.left (Found state jobId)
      standing := by
  refine ⟨hworks.job hjob, ?_⟩
  rintro (e | found)
  · trivial
  cases found with
  | none => trivial
  | some job => exact ⟨hworks.learns, List.mem_cons_self⟩

variable {jobId : Uuid} {job : ResearchJob}

theorem notified {x : ResearchJob → Job.UseCase IngestError Unit} (hworks : standing.Works state)
    (hjob : standing.request.route.jobId = some jobId)
    (hx : ∀ later job, later.Works state → (jobId, job) ∈ later.jobs →
      (x job).run.Obeys (mediation state).left.left.left (fun _ _ => True) later) :
    (IngestResults.findJob jobId >>= x).run.Obeys (mediation state).left.left.left
      (fun _ _ => True) standing :=
  Fallible.obeys_bind (findJob_obeys hworks hjob)
    (fun later job h => hx later job h.1 h.2) fun _ _ _ => trivial

theorem update_obeys {updated : ResearchJob} (hworks : standing.Works state)
    (hheld : (jobId, job) ∈ standing.jobs) (hsame : Same job updated) :
    (orFail IngestError.infrastructure (Job.ask (.update updated))).run.Obeys
      (mediation state).left.left.left (fun _ _ => True) standing :=
  Fallible.obeys_orFail
    ⟨hworks.job ⟨_, hheld, hsame.id.symm, hsame.userId.symm⟩, fun _ => trivial⟩

theorem notifyAll_obeys (digest : Digest) (channels : List NotificationChannel)
    (hworks : standing.Works state) (hheld : standing.Holds fun _ held => held.id = digest.jobId)
    (hchannels : ∀ channel ∈ channels, channel ∈ standing.channels) :
    (IngestResults.notifyAll digest channels).Obeys (mediation state).left.left.left
      (fun _ _ => True) standing := by
  induction channels with
  | nil => trivial
  | cons channel channels ih =>
      refine ⟨hworks.job ⟨hchannels channel List.mem_cons_self, hheld⟩, fun _ => ?_⟩
      exact ih fun other hother => hchannels other (List.mem_cons_of_mem _ hother)

theorem notifyChannels_obeys {userId : Uuid} (digest : Digest) (hworks : standing.Works state)
    (hsearch : ∃ search ∈ standing.searches, search.userId = userId)
    (hheld : standing.Holds fun _ held => held.id = digest.jobId) :
    (IngestResults.notifyChannels userId digest).Obeys (mediation state).left.left.left
      (fun _ _ => True) standing := by
  refine ⟨hworks.job hsearch, ?_⟩
  rintro (e | channels)
  · trivial
  · exact notifyAll_obeys digest channels hworks hheld fun _ h => List.mem_append_left _ h

theorem maybeSendDigest_obeys {updated : ResearchJob} (results : List SearchResult)
    (hworks : standing.Works state) (hheld : (jobId, job) ∈ standing.jobs)
    (hsame : Same job updated) :
    (IngestResults.maybeSendDigest updated results).Obeys (mediation state).left.left.left
      (fun _ _ => True) standing := by
  unfold IngestResults.maybeSendDigest
  cases hlink : updated.recurringSearchId with
  | none => trivial
  | some searchId =>
      simp only [Job.ask, Program.call_bind, Program.done_bind]
      split
      · trivial
      refine ⟨hworks.job ⟨_, hheld, hsame.recurringSearchId.symm.trans hlink⟩, ?_⟩
      rintro (e | found)
      · trivial
      cases found with
      | none => trivial
      | some search =>
          have hjob : standing.Holds fun _ held => held.id = updated.id :=
            ⟨_, hheld, hsame.id.symm⟩
          have hnotify : (IngestResults.notifyChannels search.userId
              (IngestResults.digestOf searchId updated (results.filter (·.isNew)))).Obeys
                (mediation state).left.left.left (fun _ _ => True)
                { standing with searches := search :: standing.searches } :=
            notifyChannels_obeys _ hworks ⟨search, List.mem_cons_self, rfl⟩ hjob
          cases hurl : search.webhookUrl with
          | none =>
              simp only [hurl]
              exact hnotify
          | some url =>
              simp only [hurl]
              exact ⟨Or.inr ⟨hworks, ⟨search, List.mem_cons_self, hurl⟩, hjob⟩, fun _ => hnotify⟩

theorem start_obeys (hworks : standing.Works state)
    (hjob : standing.request.route.jobId = some jobId) :
    (IngestResults.start jobId).run.Obeys (mediation state).left.left.left (fun _ _ => True)
      standing :=
  notified hworks hjob fun _ job hworks hheld => update_obeys hworks hheld (same_start job)

theorem complete_obeys (results : List SearchResult) (hworks : standing.Works state)
    (hjob : standing.request.route.jobId = some jobId) :
    (IngestResults.complete jobId results).run.Obeys (mediation state).left.left.left
      (fun _ _ => True) standing := by
  refine notified hworks hjob fun later job hworks hheld => ?_
  simp only [Fallible.run_lift_bind, Fallible.run_orFail_bind, ResearchJob.completeNow, Job.ask,
    Program.call_bind, Program.done_bind, Program.obeys_call]
  refine ⟨hworks.job ⟨_, hheld, rfl⟩, ?_⟩
  rintro (e | _)
  · trivial
  dsimp only
  refine ⟨hworks.job trivial, fun now => ?_⟩
  have hsame : Same job (job.complete now) := ⟨rfl, rfl, rfl⟩
  refine ⟨hworks.job ⟨_, hheld, hsame.id.symm, hsame.userId.symm⟩, ?_⟩
  rintro (e | _)
  · trivial
  · exact (maybeSendDigest_obeys results hworks hheld hsame).bind fun _ _ _ => trivial

theorem recordStep_obeys (step : AgentStep) (hworks : standing.Works state)
    (hjob : standing.request.route.jobId = some jobId) :
    (IngestResults.recordStep jobId step).run.Obeys (mediation state).left.left.left
      (fun _ _ => True) standing :=
  notified hworks hjob fun _ _ hworks hheld =>
    Fallible.obeys_orFail ⟨hworks.job ⟨_, hheld, rfl⟩, fun _ => trivial⟩

theorem recordUsage_obeys (usage : JobUsage) (hworks : standing.Works state)
    (hjob : standing.request.route.jobId = some jobId) :
    (IngestResults.recordUsage jobId usage).run.Obeys (mediation state).left.left.left
      (fun _ _ => True) standing :=
  notified hworks hjob fun _ _ hworks hheld =>
    Fallible.obeys_orFail ⟨hworks.job ⟨_, hheld, rfl⟩, fun _ => trivial⟩

theorem requestInput_obeys (question : String) (hworks : standing.Works state)
    (hjob : standing.request.route.jobId = some jobId) :
    (IngestResults.requestInput jobId question).run.Obeys (mediation state).left.left.left
      (fun _ _ => True) standing := by
  refine notified hworks hjob fun later job hworks hheld => ?_
  have hsame := same_requestInput job question
  generalize job.requestInput question = requested at hsame ⊢
  rcases requested with ⟨e | _, asked⟩
  · trivial
  · exact update_obeys hworks hheld hsame

theorem fail_obeys (error : String) (hworks : standing.Works state)
    (hjob : standing.request.route.jobId = some jobId) :
    (IngestResults.fail jobId error).run.Obeys (mediation state).left.left.left
      (fun _ _ => True) standing := by
  refine notified hworks hjob fun later job hworks hheld => ?_
  rw [Fallible.run_lift_bind]
  unfold ResearchJob.failNow
  split
  · exact update_obeys hworks hheld ⟨rfl, rfl, rfl⟩
  · exact ⟨hworks.job trivial, fun now => update_obeys hworks hheld (same_fail job now error)⟩

theorem Standing.Works.document {request : KnowledgeCall} (hworks : standing.Works state)
    (h : standing.PermitsWorkerDocument request) :
    (mediation state).left.right.left.permits standing request :=
  Or.inr ⟨hworks, h⟩

variable {documentId : Uuid}

theorem storeChunks_obeys (chunks : List NewChunk) (hworks : standing.Works state)
    (hdocument : standing.request.route.documentId = some documentId) :
    (Knowledge.storeChunks documentId chunks).run.Obeys (mediation state).left.right.left
      (fun _ _ => True) standing := by
  refine ⟨hworks.document hdocument, ?_⟩
  rintro (e | found)
  · trivial
  cases found with
  | none => trivial
  | some document =>
      refine ⟨Or.inr ⟨hworks, List.mem_cons_self⟩, ?_⟩
      rintro (e | _) <;> trivial

theorem markFailed_obeys (error : String) (hworks : standing.Works state)
    (hdocument : standing.request.route.documentId = some documentId) :
    (Knowledge.markFailed documentId error).run.Obeys (mediation state).left.right.left
      (fun _ _ => True) standing :=
  Fallible.obeys_orFail ⟨hworks.document hdocument, fun _ => trivial⟩

theorem retrieveForJob_obeys (embedding : Embedding) (k : Int) (hworks : standing.Works state)
    (hjob : standing.request.route.jobId = some jobId) :
    (Tenancy.retrieveForJob jobId embedding k).run.Obeys (mediation state).left
      (fun _ _ => True) standing := by
  refine ⟨hworks.job hjob, ?_⟩
  rintro (e | found)
  · trivial
  cases found with
  | none => trivial
  | some job =>
      refine ⟨Or.inr ⟨hworks, _, List.mem_cons_self, rfl⟩, ?_⟩
      rintro (e | chunks) <;> trivial

end Worker

section Visitor

variable {state : AppState} {standing : Standing} {userId : Uuid}

theorem proves_next (event : Event Session.SessionPorts) (h : standing.Proves state userId) :
    (standing.nextOnSession event).Proves state userId := by
  have hgrows : (standing.nextOnSession event).request = standing.request ∧
      (standing.nextOnSession event).admitted = standing.admitted ∧
      (standing.nextOnSession event).consented = standing.consented ∧
      standing.accounts ⊆ (standing.nextOnSession event).accounts ∧
      standing.tokens ⊆ (standing.nextOnSession event).tokens ∧
      standing.readings ⊆ (standing.nextOnSession event).readings := by
    unfold Standing.nextOnSession
    split
    · exact ⟨rfl, rfl, rfl, List.subset_cons_self _ _, List.Subset.refl _, List.Subset.refl _⟩
    · exact ⟨rfl, rfl, rfl, List.Subset.refl _, List.subset_cons_self _ _, List.Subset.refl _⟩
    · exact ⟨rfl, rfl, rfl, List.Subset.refl _, List.Subset.refl _, List.subset_cons_self _ _⟩
    · exact ⟨rfl, rfl, rfl, List.Subset.refl _, List.Subset.refl _, List.Subset.refl _⟩
  obtain ⟨hrequest, hadmitted, hconsented, haccounts, htokens, hreadings⟩ := hgrows
  unfold Standing.Proves at h ⊢
  rw [hrequest, hadmitted, hconsented]
  rcases h with ⟨body, hroute, hallowed, user, huser, hverified⟩ |
    ⟨hroute, hallowed, token, htoken, hid, hunspent, now, hnow, hexpired⟩
  · exact Or.inl ⟨body, hroute, hallowed, user, haccounts huser, hverified⟩
  · exact Or.inr ⟨hroute, hallowed, token, htokens htoken, hid, hunspent, now, hreadings hnow, hexpired⟩

-- Tokens are handed out to whom the request has proved to be.
def Earned {ε : Type} (state : AppState) (standing : Standing) :
    Except ε Session.SessionTokens → Prop
  | .ok _ => ∃ userId, standing.Proves state userId
  | .error _ => True

def Trusted (state : AppState) (userId : Uuid) (standing : Standing) : Prop :=
  standing.admitted = true ∧ standing.Proves state userId

theorem trusted_next (standing : Standing) (event : Event Session.SessionPorts)
    (h : Trusted state userId standing) :
    Trusted state userId ((mediation state).right.left.next standing event) := by
  refine ⟨?_, proves_next event h.2⟩
  show (standing.nextOnSession event).admitted = true
  rw [← h.1]
  unfold Standing.nextOnSession
  split <;> rfl

theorem issueInFamily_obeys (familyId : Uuid) (ttlDays : Int) (h : Trusted state userId standing) :
    (Session.RefreshToken.issueInFamily state.prims userId familyId ttlDays).Obeys
      (mediation state).right.left
      (fun later made => Trusted state userId later ∧ made.1.userId = userId) standing := by
  refine Program.Obeys.keeps (Trusted state userId) ?_ trusted_next h
  exact ⟨h.1, fun _ => ⟨h.1, fun _ => ⟨h.1, fun _ => rfl⟩⟩⟩

-- What follows the issue of a refresh token, in a login and in a rotation.
theorem handOut_obeys {ε : Type} (infrastructure : PortError → ε) (record : Session.RefreshToken)
    (plaintext : String) (h : Trusted state userId standing) (howner : record.userId = userId) :
    (do
      orFail infrastructure (Session.insert record)
      let accessToken ← orFail infrastructure (Session.issueToken userId)
      return { accessToken, refreshToken := plaintext } :
      Session.UseCase ε Session.SessionTokens).run.Obeys (mediation state).right.left
        (Earned state) standing := by
  subst howner
  simp only [Fallible.run_orFail_bind, Session.insert, Session.issueToken, Program.call_bind,
    Program.done_bind, Program.obeys_call]
  refine ⟨h.2, ?_⟩
  rintro (e | _)
  · trivial
  refine ⟨h.2, ?_⟩
  rintro (e | accessToken)
  · trivial
  · exact ⟨_, h.2⟩

theorem login_obeys (ttlDays : Int) {body : Account.Credentials}
    (hroute : standing.request.route = .login (.ok body)) (hadmitted : standing.admitted = true)
    (hconsented : standing.consented = true) :
    (Session.login state.prims ttlDays body.email body.password).run.Obeys
      (mediation state).right.left (Earned state) standing := by
  unfold Session.login
  simp only [Fallible.run_orFail_bind, Session.findUserByEmail, Program.call_bind,
    Program.done_bind, Program.obeys_call]
  refine ⟨⟨hconsented, body, hroute, rfl⟩, ?_⟩
  rintro (e | found)
  · trivial
  cases found with
  | none => trivial
  | some user =>
      dsimp only
      split
      · rename_i hverified
        have htrusted : Trusted state user.id
            { standing with accounts := user :: standing.accounts } :=
          ⟨hadmitted, Or.inl ⟨body, hroute, hconsented, user, List.mem_cons_self, rfl, hverified⟩⟩
        have hissue : (Session.RefreshToken.issue state.prims user.id ttlDays).Obeys
            (mediation state).right.left
            (fun later made => Trusted state user.id later ∧ made.1.userId = user.id)
            { standing with accounts := user :: standing.accounts } :=
          ⟨hadmitted, fun familyId => issueInFamily_obeys familyId ttlDays htrusted⟩
        rw [Fallible.run_lift_bind]
        refine hissue.bind ?_
        rintro later ⟨record, plaintext⟩ ⟨hlater, howner⟩
        exact handOut_obeys _ record plaintext hlater howner
      · trivial

theorem rotate_obeys (ttlDays : Int) {presented : String}
    (hroute : standing.request.route = .refresh) (hadmitted : standing.admitted = true)
    (hcookie : readRefreshCookie standing.request.headers = some presented) :
    (Session.rotate state.prims ttlDays presented).run.Obeys
      (mediation state).right.left (Earned state) standing := by
  unfold Session.rotate
  simp only [Fallible.run_orFail_bind, Session.findByHash, Program.call_bind,
    Program.done_bind, Program.obeys_call]
  refine ⟨⟨hadmitted, Or.inl hroute, presented, hcookie, rfl⟩, ?_⟩
  rintro (e | found)
  · trivial
  cases found with
  | none => trivial
  | some stored =>
      have hheld : ∀ {P : Session.RefreshToken → Prop}, P stored →
          ∃ token ∈ stored :: standing.tokens, P token :=
        fun h => ⟨stored, List.mem_cons_self, h⟩
      dsimp only
      split
      · -- a spent token ends its family
        simp only [Fallible.run_orFail_bind, Fallible.run_lift_bind, Session.deleteFamily,
          Session.SecurityEvent.new, Session.newUuid, Session.nowUtc, Session.utcNow,
          Session.recordEvent, Program.call_bind, Program.done_bind, Program.obeys_call]
        refine ⟨hheld rfl, ?_⟩
        rintro (e | _)
        · trivial
        · exact ⟨hadmitted, fun _ => ⟨hadmitted, fun _ => ⟨hadmitted, fun _ => trivial⟩⟩⟩
      rename_i hunspent
      simp only [Fallible.run_lift_bind, Session.utcNow, Program.call_bind, Program.done_bind,
        Program.obeys_call]
      refine ⟨hadmitted, fun now => ?_⟩
      split
      · simp only [Fallible.run_orFail_bind, Session.delete, Program.call_bind, Program.done_bind,
          Program.obeys_call]
        refine ⟨⟨hroute, hheld rfl⟩, ?_⟩
        rintro (e | _) <;> trivial
      rename_i hexpired
      simp only [Fallible.run_lift_bind, Fallible.run_orFail_bind, Session.markConsumed,
        Program.call_bind, Program.done_bind, Program.obeys_call]
      refine ⟨hadmitted, fun at_ => ⟨⟨hroute, hheld rfl⟩, ?_⟩⟩
      rintro (e | _)
      · trivial
      have htrusted : Trusted state stored.userId
          { standing with
            tokens := stored :: standing.tokens
            readings := at_ :: now :: standing.readings } :=
        ⟨hadmitted, Or.inr ⟨hroute, hadmitted, hheld ⟨rfl, Bool.eq_false_of_not_eq_true hunspent, now,
          List.mem_cons_of_mem _ List.mem_cons_self, Bool.eq_false_of_not_eq_true hexpired⟩⟩⟩
      dsimp only
      refine (issueInFamily_obeys stored.familyId ttlDays htrusted).bind ?_
      rintro later ⟨record, plaintext⟩ ⟨hlater, howner⟩
      simpa only [Fallible.run_orFail_bind] using
        handOut_obeys Session.RefreshError.infrastructure record plaintext hlater howner

theorem revoke_obeys {presented : String} (hroute : standing.request.route = .logout)
    (hadmitted : standing.admitted = true)
    (hcookie : readRefreshCookie standing.request.headers = some presented) :
    (Session.revoke state.prims presented).run.Obeys (mediation state).right.left
      (fun _ _ => True) standing := by
  refine ⟨⟨hadmitted, Or.inr hroute, presented, hcookie, rfl⟩, ?_⟩
  rintro (e | found)
  · trivial
  cases found with
  | none => trivial
  | some stored =>
      refine ⟨⟨stored, List.mem_cons_self, rfl⟩, ?_⟩
      rintro (e | _) <;> trivial

theorem recordSecurityEvent_obeys (kind : Session.SecurityEventKind) (whose : Option Uuid)
    (clientIp : Option String) (detail : String) (hadmitted : standing.admitted = true) :
    (recordSecurityEvent kind whose clientIp detail).Obeys (mediation state)
      (fun later _ => ∃ readings, later = { standing with readings }) standing :=
  ⟨hadmitted, fun _ => ⟨hadmitted, fun _ => ⟨hadmitted, fun _ => ⟨_, rfl⟩⟩⟩⟩

theorem register_obeys {body : Account.Credentials}
    (hroute : standing.request.route = .register (.ok body)) (hadmitted : standing.admitted = true) :
    (Account.register state.prims.toLowercase body.email body.password).run.Obeys
      (mediation state).right.right.left (fun _ _ => True) standing := by
  have hpermits : ∀ {request : Account.AccountCall}, (match request with
      | .findByEmail email => email = Account.normalize state.prims.toLowercase body.email
      | .insert user => user.email = Account.normalize state.prims.toLowercase body.email
      | .hash password => password = body.password
      | .utcNow | .newUuid => True) →
      (mediation state).right.right.left.permits standing request :=
    fun h => ⟨hadmitted, body, hroute, h⟩
  unfold Account.register
  generalize hemail : Account.normalize state.prims.toLowercase body.email = email
  dsimp only
  split_ifs
  · trivial
  · trivial
  simp only [Fallible.run_orFail_bind, Account.ask, Program.call_bind, Program.done_bind,
    Program.obeys_call]
  refine ⟨hpermits hemail.symm, ?_⟩
  rintro (e | found)
  · trivial
  cases found with
  | some user => trivial
  | none =>
      dsimp only
      simp only [Fallible.run_orFail_bind, Fallible.run_lift_bind, Account.User.new, Account.ask,
        Program.call_bind, Program.done_bind, Program.obeys_call]
      refine ⟨hpermits rfl, ?_⟩
      rintro (e | passwordHash)
      · trivial
      refine ⟨hpermits trivial, fun id => ⟨hpermits trivial, fun now => ⟨hpermits hemail.symm, ?_⟩⟩⟩
      rintro (e | _) <;> trivial

end Visitor

-- What an answer that is no refusal rests on, and an access token in particular.
def Cleared (state : AppState) (standing : Standing) (response : Response) : Prop :=
  (response.status < 400 → match standing.request.route.access with
    | .anyone => True
    | .visitor => standing.admitted = true
    | .user => ∃ userId, standing.Acts userId
    | .worker => standing.Works state) ∧
  ∀ token, response.body = .accessToken token → ∃ userId, standing.Proves state userId

section Handlers

variable {state : AppState} {standing : Standing} {userId : Uuid} {α : Type}

theorem cleared_user {response : Response} (hacts : standing.Acts userId)
    (hbody : ∀ token, response.body ≠ .accessToken token) : Cleared state standing response := by
  refine ⟨fun _ => ?_, fun token h => absurd h (hbody token)⟩
  rw [hacts.1]
  exact ⟨userId, hacts⟩

theorem cleared_worker {response : Response} (hworks : standing.Works state)
    (hbody : ∀ token, response.body ≠ .accessToken token) : Cleared state standing response := by
  refine ⟨fun _ => ?_, fun token h => absurd h (hbody token)⟩
  rw [hworks.1]
  exact hworks

theorem cleared_visitor {response : Response} (haccess : standing.request.route.access = .visitor)
    (hadmitted : standing.admitted = true) (hbody : ∀ token, response.body ≠ .accessToken token) :
    Cleared state standing response := by
  refine ⟨fun _ => ?_, fun token h => absurd h (hbody token)⟩
  rw [haccess]
  exact hadmitted

theorem cleared_refusal {response : Response} (hstatus : 400 ≤ response.status)
    (hbody : ∀ token, response.body ≠ .accessToken token) : Cleared state standing response :=
  ⟨fun h => absurd h (Nat.not_lt.mpr hstatus), fun token h => absurd h (hbody token)⟩

theorem tenant_next (state : AppState) (standing : Standing) (event : Event Tenancy.TenantPorts) :
    ((mediation state).left.next standing event).request = standing.request ∧
      ((mediation state).left.next standing event).admitted = standing.admitted ∧
      ((mediation state).left.next standing event).userId = standing.userId := by
  obtain ⟨(request | _) | (request | _), answer⟩ := event
  · show (standing.nextOnJob ⟨request, answer⟩).request = _ ∧
      (standing.nextOnJob ⟨request, answer⟩).admitted = _ ∧
      (standing.nextOnJob ⟨request, answer⟩).userId = _
    unfold Standing.nextOnJob
    split <;> exact ⟨rfl, rfl, rfl⟩
  · exact ⟨rfl, rfl, rfl⟩
  · show (standing.nextOnDocument ⟨request, answer⟩).request = _ ∧
      (standing.nextOnDocument ⟨request, answer⟩).admitted = _ ∧
      (standing.nextOnDocument ⟨request, answer⟩).userId = _
    unfold Standing.nextOnDocument
    split <;> exact ⟨rfl, rfl, rfl⟩
  · exact ⟨rfl, rfl, rfl⟩

theorem user_obeys {p : Program Tenancy.TenantPorts α} (hacts : standing.Acts userId)
    (h : p.Obeys (mediation state).left (fun _ _ => True) standing) :
    p.inl.Obeys (mediation state) (fun later _ => later.Acts userId) standing := by
  refine Program.inl_obeys ((h.keeps (fun later => later.Acts userId) ?_ hacts).mono ?_)
  · intro standing event hacts
    obtain ⟨hrequest, hadmitted, huserId⟩ := tenant_next state standing event
    unfold Standing.Acts
    rwa [hrequest, hadmitted, huserId]
  · exact fun _ _ h => h.1

theorem worker_obeys {p : Program Tenancy.TenantPorts α} (hworks : standing.Works state)
    (h : p.Obeys (mediation state).left (fun _ _ => True) standing) :
    p.inl.Obeys (mediation state) (fun later _ => later.Works state) standing := by
  refine Program.inl_obeys ((h.keeps (fun later => later.Works state) ?_ hworks).mono ?_)
  · intro standing event hworks
    unfold Standing.Works
    rwa [(tenant_next state standing event).1]
  · exact fun _ _ h => h.1

section Sides

theorem userJobs_obeys {p : Program JobPorts α} (hacts : standing.Acts userId)
    (h : p.Obeys (mediation state).left.left.left (fun _ _ => True) standing) :
    (onJobs p).Obeys (mediation state) (fun later _ => later.Acts userId) standing :=
  user_obeys hacts (Program.inl_obeys (Program.inl_obeys h))

theorem userSearch_obeys {p : Program SearchPorts α} (hacts : standing.Acts userId)
    (h : p.Obeys (mediation state).left.left (fun _ _ => True) standing) :
    (onSearch p).Obeys (mediation state) (fun later _ => later.Acts userId) standing :=
  user_obeys hacts (Program.inl_obeys h)

theorem userKnowledge_obeys {p : Program KnowledgePorts α} (hacts : standing.Acts userId)
    (h : p.Obeys (mediation state).left.right.left (fun _ _ => True) standing) :
    (onKnowledge p).Obeys (mediation state) (fun later _ => later.Acts userId) standing :=
  user_obeys hacts (Program.inr_obeys (Program.inl_obeys h))

theorem userDeletion_obeys {p : Program Deletion.DeletionPorts α} (hacts : standing.Acts userId)
    (h : p.Obeys (mediation state).left.right.right.left (fun _ _ => True) standing) :
    (onDeletion p).Obeys (mediation state) (fun later _ => later.Acts userId) standing :=
  user_obeys hacts (Program.inr_obeys (Program.inr_obeys (Program.inl_obeys h)))

theorem userProfile_obeys {p : Program ProfilePorts α} (hacts : standing.Acts userId)
    (h : p.Obeys (mediation state).left.right.right.right (fun _ _ => True) standing) :
    (onProfile p).Obeys (mediation state) (fun later _ => later.Acts userId) standing :=
  user_obeys hacts (Program.inr_obeys (Program.inr_obeys (Program.inr_obeys h)))

end Sides

theorem createSearch_obeys (headers : HeaderMap) (body : CreateSearchRequest)
    (hacts : standing.Acts userId) :
    (createSearch state headers userId body).Obeys (mediation state) (Cleared state) standing := by
  refine (userJobs_obeys hacts (launchSearch_obeys _ _ _ hacts)).bind ?_
  rintro later (e | job) hlater
  · cases e with
    | quotaExceeded quota =>
        refine (recordSecurityEvent_obeys _ _ _ _ hlater.2.1).bind ?_
        rintro _ _ ⟨readings, rfl⟩
        exact cleared_user hlater nofun
    | invalidJob e => exact cleared_user hlater nofun
    | dispatchFailed => exact cleared_user hlater nofun
    | infrastructure e => exact cleared_user hlater nofun
  · exact cleared_user hlater nofun

theorem answerSearch_obeys (jobId : Uuid) (answer : String) (hacts : standing.Acts userId) :
    (answerSearch userId jobId answer).Obeys (mediation state) (Cleared state) standing := by
  refine (userJobs_obeys hacts (answerClarification_obeys jobId answer hacts)).bind ?_
  rintro later (e | job) hlater
  · cases e with
    | notFound => exact cleared_user hlater nofun
    | invalidAnswer e => cases e <;> exact cleared_user hlater nofun
    | dispatchFailed => exact cleared_user hlater nofun
    | infrastructure e => exact cleared_user hlater nofun
  · exact cleared_user hlater nofun

theorem listSearches_obeys (hacts : standing.Acts userId) :
    (listSearches userId).Obeys (mediation state) (Cleared state) standing := by
  refine (userSearch_obeys hacts (list_obeys hacts)).bind ?_
  rintro later (e | jobs) hlater <;> exact cleared_user hlater nofun

theorem getSearch_obeys (jobId : Uuid) (hacts : standing.Acts userId) :
    (getSearch userId jobId).Obeys (mediation state) (Cleared state) standing := by
  refine (userSearch_obeys hacts ((get_obeys jobId hacts).mono fun _ _ _ => trivial)).bind ?_
  rintro later (e | found) hlater
  · exact cleared_user hlater nofun
  · cases found <;> exact cleared_user hlater nofun

theorem searchEvents_obeys (jobId : Uuid) (polls : Nat) (hacts : standing.Acts userId) :
    (searchEvents state userId jobId polls).Obeys (mediation state) (Cleared state) standing := by
  refine (userSearch_obeys hacts ((get_obeys jobId hacts).mono fun _ _ _ => trivial)).bind ?_
  rintro later (e | found) hlater
  · exact cleared_user hlater nofun
  cases found with
  | none => exact cleared_user hlater nofun
  | some snapshot =>
      refine (userSearch_obeys hlater
        ((jobUpdatesWith_obeys state.stream jobId polls hlater).mono fun _ _ _ => trivial)).bind ?_
      exact fun last _ hlast => cleared_user hlast nofun

theorem createRecurring_answer (body : CreateRecurringRequest) (hacts : standing.Acts userId) :
    (createRecurring userId body).Obeys (mediation state) (Cleared state) standing := by
  refine (userProfile_obeys hacts (createRecurring_obeys _ _ _ _ hacts)).bind ?_
  rintro later (e | search) hlater
  · cases e <;> exact cleared_user hlater nofun
  · exact cleared_user hlater nofun

theorem listRecurring_answer (hacts : standing.Acts userId) :
    (listRecurring userId).Obeys (mediation state) (Cleared state) standing := by
  have hlist : (RecurringSearches.list userId).run.Obeys (mediation state).left.right.right.right
      (fun _ _ => True) standing :=
    Fallible.obeys_orFail ⟨hacts.profile rfl, fun _ => trivial⟩
  refine (userProfile_obeys hacts hlist).bind ?_
  rintro later (e | searches) hlater <;> exact cleared_user hlater nofun

theorem deleteRecurring_answer (id : Uuid) (hacts : standing.Acts userId) :
    (deleteRecurring userId id).Obeys (mediation state) (Cleared state) standing := by
  have hdelete : (RecurringSearches.delete userId id).run.Obeys (mediation state).left.right.right.right
      (fun _ _ => True) standing := by
    refine ⟨hacts.profile rfl, ?_⟩
    rintro (e | deleted)
    · trivial
    · cases deleted <;> trivial
  refine (userProfile_obeys hacts hdelete).bind ?_
  rintro later (e | _) hlater
  · cases e <;> exact cleared_user hlater nofun
  · exact cleared_user hlater nofun

theorem getProfile_obeys (hacts : standing.Acts userId) :
    (getProfile state userId).Obeys (mediation state) (Cleared state) standing := by
  refine (userProfile_obeys hacts (view_obeys hacts)).bind ?_
  rintro later (e | ⟨user, channels⟩) hlater
  · cases e <;> exact cleared_user hlater nofun
  · exact cleared_user hlater nofun

theorem deleteAccount_answer (hacts : standing.Acts userId)
    (hroute : standing.request.route = .deleteAccount) :
    (deleteAccount userId).Obeys (mediation state) (Cleared state) standing := by
  refine (userDeletion_obeys hacts (deleteAccount_obeys hacts hroute)).bind ?_
  rintro later (e | _) hlater <;> exact cleared_user hlater nofun

theorem createChannel_obeys (body : CreateChannelRequest) (hacts : standing.Acts userId) :
    (createChannel state userId body).Obeys (mediation state) (Cleared state) standing := by
  unfold createChannel
  cases parseChannelKind body.kind with
  | none => exact cleared_user hacts nofun
  | some kind =>
      refine (userProfile_obeys hacts (addChannel_obeys _ _ _ _ hacts)).bind ?_
      rintro later (e | channel) hlater
      · cases e <;> exact cleared_user hlater nofun
      · exact cleared_user hlater nofun

theorem cleared_deleted (what : String) (result : Except PortError Bool)
    (hacts : standing.Acts userId) : Cleared state standing (deleted what result) := by
  rcases result with e | found
  · exact cleared_user hacts nofun
  · cases found <;> exact cleared_user hacts nofun

theorem deleteChannel_obeys (id : Uuid) (hacts : standing.Acts userId) :
    (deleteChannel userId id).Obeys (mediation state) (Cleared state) standing := by
  have hremove : (Profile.removeChannel userId id).run.Obeys
      (mediation state).left.right.right.right (fun _ _ => True) standing :=
    Fallible.obeys_orFail ⟨hacts.profile rfl, fun _ => trivial⟩
  exact (userProfile_obeys hacts hremove).bind fun later result hlater =>
    cleared_deleted "channel" result hlater

theorem listDocuments_obeys (hacts : standing.Acts userId) :
    (listDocuments userId).Obeys (mediation state) (Cleared state) standing := by
  have hlist : (Knowledge.list userId).run.Obeys (mediation state).left.right.left
      (fun _ _ => True) standing :=
    Fallible.obeys_orFail ⟨hacts.document rfl, fun _ => trivial⟩
  refine (userKnowledge_obeys hacts hlist).bind ?_
  rintro later (e | documents) hlater <;> exact cleared_user hlater nofun

theorem createDocument_obeys (body : CreateDocumentRequest) (hacts : standing.Acts userId) :
    (createDocument userId body).Obeys (mediation state) (Cleared state) standing := by
  refine (userKnowledge_obeys hacts (upload_obeys body.name body.content hacts)).bind ?_
  rintro later (e | document) hlater
  · cases e <;> exact cleared_user hlater nofun
  · exact cleared_user hlater nofun

theorem deleteDocument_obeys (id : Uuid) (hacts : standing.Acts userId) :
    (deleteDocument userId id).Obeys (mediation state) (Cleared state) standing := by
  have hdelete : (Knowledge.delete userId id).run.Obeys (mediation state).left.right.left
      (fun _ _ => True) standing :=
    Fallible.obeys_orFail ⟨hacts.document rfl, fun _ => trivial⟩
  exact (userKnowledge_obeys hacts hdelete).bind fun later result hlater =>
    cleared_deleted "document" result hlater

-- The handlers of the worker's routes.
theorem workerJobs_obeys {p : Program JobPorts α} (hworks : standing.Works state)
    (h : p.Obeys (mediation state).left.left.left (fun _ _ => True) standing) :
    (onJobs p).Obeys (mediation state) (fun later _ => later.Works state) standing :=
  worker_obeys hworks (Program.inl_obeys (Program.inl_obeys h))

theorem workerKnowledge_obeys {p : Program KnowledgePorts α} (hworks : standing.Works state)
    (h : p.Obeys (mediation state).left.right.left (fun _ _ => True) standing) :
    (onKnowledge p).Obeys (mediation state) (fun later _ => later.Works state) standing :=
  worker_obeys hworks (Program.inr_obeys (Program.inl_obeys h))

theorem ingested_obeys {p : Program JobPorts (Except IngestError Unit)}
    (hworks : standing.Works state)
    (h : p.Obeys (mediation state).left.left.left (fun _ _ => True) standing) :
    (do return ingested (← onJobs p) : Program GatewayPorts Response).Obeys (mediation state)
      (Cleared state) standing := by
  refine (workerJobs_obeys hworks h).bind ?_
  rintro later (e | _) hlater
  · cases e <;> exact cleared_worker hlater nofun
  · exact cleared_worker hlater nofun

variable {jobId : Uuid}

theorem internalStarted_obeys (hworks : standing.Works state)
    (hjob : standing.request.route.jobId = some jobId) :
    (internalStarted jobId).Obeys (mediation state) (Cleared state) standing :=
  ingested_obeys hworks (start_obeys hworks hjob)

theorem internalResults_obeys (results : List SearchResult) (hworks : standing.Works state)
    (hjob : standing.request.route.jobId = some jobId) :
    (internalResults jobId results).Obeys (mediation state) (Cleared state) standing :=
  ingested_obeys hworks (complete_obeys results hworks hjob)

theorem internalStep_obeys (step : AgentStep) (hworks : standing.Works state)
    (hjob : standing.request.route.jobId = some jobId) :
    (internalStep jobId step).Obeys (mediation state) (Cleared state) standing :=
  ingested_obeys hworks (recordStep_obeys step hworks hjob)

theorem internalQuestion_obeys (question : String) (hworks : standing.Works state)
    (hjob : standing.request.route.jobId = some jobId) :
    (internalQuestion jobId question).Obeys (mediation state) (Cleared state) standing :=
  ingested_obeys hworks (requestInput_obeys question hworks hjob)

theorem internalUsage_obeys (usage : JobUsage) (hworks : standing.Works state)
    (hjob : standing.request.route.jobId = some jobId) :
    (internalUsage jobId usage).Obeys (mediation state) (Cleared state) standing :=
  ingested_obeys hworks (recordUsage_obeys usage hworks hjob)

theorem internalFailure_obeys (error : String) (hworks : standing.Works state)
    (hjob : standing.request.route.jobId = some jobId) :
    (internalFailure jobId error).Obeys (mediation state) (Cleared state) standing :=
  ingested_obeys hworks (fail_obeys error hworks hjob)

theorem internalStoreChunks_obeys {documentId : Uuid} (chunks : List NewChunk)
    (hworks : standing.Works state)
    (hdocument : standing.request.route.documentId = some documentId) :
    (internalStoreChunks documentId chunks).Obeys (mediation state) (Cleared state) standing := by
  refine (workerKnowledge_obeys hworks (storeChunks_obeys chunks hworks hdocument)).bind ?_
  rintro later (e | _) hlater
  · cases e <;> exact cleared_worker hlater nofun
  · exact cleared_worker hlater nofun

theorem internalDocumentFailure_obeys {documentId : Uuid} (error : String)
    (hworks : standing.Works state)
    (hdocument : standing.request.route.documentId = some documentId) :
    (internalDocumentFailure documentId error).Obeys (mediation state) (Cleared state) standing := by
  refine (workerKnowledge_obeys hworks (markFailed_obeys error hworks hdocument)).bind ?_
  rintro later (e | _) hlater <;> exact cleared_worker hlater nofun

theorem internalRetrieve_obeys (body : RetrieveRequest) (hworks : standing.Works state)
    (hjob : standing.request.route.jobId = some body.jobId) :
    (internalRetrieve body).Obeys (mediation state) (Cleared state) standing := by
  refine (worker_obeys hworks (retrieveForJob_obeys body.embedding body.k hworks hjob)).bind ?_
  rintro later (e | chunks) hlater
  · cases e <;> exact cleared_worker hlater nofun
  · exact cleared_worker hlater nofun

-- The handlers of the visitors' routes.
theorem onSession_obeys {p : Program Session.SessionPorts α} {post : Standing → α → Prop}
    (hadmitted : standing.admitted = true)
    (h : p.Obeys (mediation state).right.left post standing) :
    (onSession p).Obeys (mediation state)
      (fun later value => (later.request = standing.request ∧ later.admitted = true) ∧
        post later value) standing := by
  refine Program.inr_obeys (Program.inl_obeys (h.keeps
    (fun later => later.request = standing.request ∧ later.admitted = true) ?_ ⟨rfl, hadmitted⟩))
  rintro later event ⟨hrequest, hlater⟩
  show (later.nextOnSession event).request = _ ∧ (later.nextOnSession event).admitted = _
  rw [← hrequest, ← hlater]
  unfold Standing.nextOnSession
  split <;> exact ⟨rfl, rfl⟩

theorem cleared_session {later : Standing} {tokens : Session.SessionTokens}
    (haccess : later.request.route.access = .visitor) (hadmitted : later.admitted = true)
    (hproves : ∃ userId, later.Proves state userId) :
    Cleared state later (sessionResponse state tokens) := by
  refine ⟨fun _ => ?_, fun _ _ => hproves⟩
  rw [haccess]
  exact hadmitted

theorem consented_obeys {body : Account.Credentials} (headers : HeaderMap)
    (hroute : standing.request.route = .login (.ok body)) (hadmitted : standing.admitted = true)
    (hconsented : standing.consented = true) :
    (do
      match ← onSession
          (Session.login state.prims state.refreshTtlDays body.email body.password).run with
      | .ok tokens => return sessionResponse state tokens
      | .error .invalidCredentials =>
          recordSecurityEvent .loginFailed none (clientIp headers)
            (state.prims.toLowercase (trim body.email))
          return errorBody 401 "invalid credentials"
      | .error (.infrastructure _) => return internalError :
      Program GatewayPorts Response).Obeys (mediation state) (Cleared state) standing := by
  refine (onSession_obeys hadmitted
    (login_obeys state.refreshTtlDays hroute hadmitted hconsented)).bind ?_
  rintro later (e | tokens) ⟨⟨hrequest, hlater⟩, hearned⟩
  · cases e with
    | invalidCredentials =>
        refine (recordSecurityEvent_obeys _ _ _ _ hlater).bind ?_
        exact fun _ _ _ => cleared_refusal (by decide) nofun
    | infrastructure e => exact cleared_refusal (by decide) nofun
  · refine cleared_session ?_ hlater hearned
    rw [hrequest, hroute]
    rfl

theorem login_answer {body : Account.Credentials} (headers : HeaderMap)
    (hroute : standing.request.route = .login (.ok body)) (hadmitted : standing.admitted = true) :
    (login state headers body).Obeys (mediation state) (Cleared state) standing := by
  unfold login
  simp only [askHttp, Program.call_bind, Program.done_bind, Program.obeys_call]
  refine ⟨⟨hadmitted, body, hroute, rfl⟩, fun allowed => ?_⟩
  show Program.Obeys _ _ { standing with consented := allowed } _
  have hlater : Standing.admitted { standing with consented := allowed } = true := hadmitted
  cases allowed with
  | false =>
      refine (recordSecurityEvent_obeys _ _ _ _ hlater).bind ?_
      exact fun _ _ _ => cleared_refusal (by decide) fun _ h => by cases h
  | true => exact consented_obeys headers hroute hlater rfl

theorem refresh_answer (hroute : standing.request.route = .refresh)
    (hadmitted : standing.admitted = true) :
    (refresh state standing.request.headers).Obeys (mediation state) (Cleared state) standing := by
  unfold refresh
  cases hcookie : readRefreshCookie standing.request.headers with
  | none => exact cleared_refusal (by decide) nofun
  | some presented =>
      refine (onSession_obeys hadmitted
        (rotate_obeys state.refreshTtlDays hroute hadmitted hcookie)).bind ?_
      rintro later (e | tokens) ⟨⟨hrequest, hlater⟩, hearned⟩
      · cases e <;> exact cleared_refusal (by decide) nofun
      · refine cleared_session ?_ hlater hearned
        rw [hrequest, hroute]
        rfl

theorem logout_answer (hroute : standing.request.route = .logout)
    (hadmitted : standing.admitted = true) :
    (logout state standing.request.headers).Obeys (mediation state) (Cleared state) standing := by
  have haccess : standing.request.route.access = .visitor := by
    rw [hroute]
    rfl
  unfold logout
  cases hcookie : readRefreshCookie standing.request.headers with
  | none => exact cleared_visitor haccess hadmitted nofun
  | some presented =>
      refine (onSession_obeys hadmitted (revoke_obeys hroute hadmitted hcookie)).bind ?_
      rintro later _ ⟨⟨hrequest, hlater⟩, -⟩
      exact cleared_visitor (by rw [hrequest]; exact haccess) hlater nofun

theorem register_answer {body : Account.Credentials}
    (hroute : standing.request.route = .register (.ok body)) (hadmitted : standing.admitted = true) :
    (register state body).Obeys (mediation state) (Cleared state) standing := by
  have haccess : standing.request.route.access = .visitor := by
    rw [hroute]
    rfl
  have hregister : (onAccount
      (Account.register state.prims.toLowercase body.email body.password).run).Obeys (mediation state)
        (fun later _ => later = standing) standing := by
    refine Program.inr_obeys (Program.inr_obeys (Program.inl_obeys
      (((register_obeys hroute hadmitted).keeps (fun later => later = standing) ?_ rfl).mono ?_)))
    · exact fun _ _ h => h
    · exact fun _ _ h => h.1
  unfold register
  refine hregister.bind ?_
  rintro _ (e | user) rfl
  · cases e <;> exact cleared_visitor haccess hadmitted nofun
  · exact cleared_visitor haccess hadmitted nofun

end Handlers

section Serve

variable {state : AppState} {standing : Standing} {request : Request} {α : Type}

theorem extracted_obeys {part : Extracted α} {handler : α → Program GatewayPorts Response}
    (h : ∀ value, part = .ok value → (handler value).Obeys (mediation state) (Cleared state) standing) :
    (extracted part handler).Obeys (mediation state) (Cleared state) standing := by
  cases part with
  | error rejection => exact cleared_refusal rejection.refuses.1 nofun
  | ok value => exact h value rfl

theorem rateLimit_obeys {scope : LimiterScope} {next : Program GatewayPorts Response}
    (hscope : scope ≠ .login) (hpermits : Standing.PermitsHttp state { request }
      (.allow scope (clientKey request.headers request.peer)))
    (hnext : next.Obeys (mediation state) (Cleared state) { request, admitted := true }) :
    (rateLimit scope request next).Obeys (mediation state) (Cleared state) { request } := by
  refine ⟨hpermits, fun allowed => ?_⟩
  have hadmitted : (mediation state).next { request }
      ⟨.inr (.inr (.inr (.allow scope (clientKey request.headers request.peer)))), allowed⟩ =
      { request, admitted := allowed } := by
    cases scope with
    | auth => rfl
    | api => rfl
    | login => exact absurd rfl hscope
  rw [hadmitted]
  cases allowed with
  | false => exact cleared_refusal (by decide) nofun
  | true => exact hnext

theorem auth_obeys {next : Program GatewayPorts Response} (haccess : request.route.access = .visitor)
    (hnext : next.Obeys (mediation state) (Cleared state) { request, admitted := true }) :
    (rateLimit .auth request next).Obeys (mediation state) (Cleared state) { request } :=
  rateLimit_obeys nofun ⟨haccess, rfl⟩ hnext

theorem api_obeys {handler : Uuid → Program GatewayPorts Response}
    (haccess : request.route.access = .user)
    (hhandler : ∀ standing userId, standing.request = request → standing.Acts userId →
      (handler userId).Obeys (mediation state) (Cleared state) standing) :
    (rateLimit .api request (authUser request.headers handler)).Obeys (mediation state)
      (Cleared state) { request } := by
  refine rateLimit_obeys nofun ⟨haccess, rfl⟩ ?_
  unfold authUser
  cases hbearer : bearer request.headers with
  | none => exact cleared_refusal (by decide) nofun
  | some token =>
      refine ⟨⟨haccess, rfl, hbearer⟩, fun verified => ?_⟩
      cases verified with
      | none => exact cleared_refusal (by decide) nofun
      | some userId => exact hhandler _ userId rfl ⟨haccess, rfl, rfl⟩

theorem internal_obeys {handler : Program GatewayPorts Response}
    (haccess : request.route.access = .worker)
    (hhandler : Standing.Works state { request } →
      handler.Obeys (mediation state) (Cleared state) { request }) :
    (internal state request.headers handler).Obeys (mediation state) (Cleared state) { request } := by
  unfold internal
  split
  · rename_i htoken
    exact hhandler ⟨haccess, htoken⟩
  · exact cleared_refusal (by decide) nofun

theorem serve_obeys (state : AppState) (request : Request) :
    (serve state request).Obeys (mediation state) (Cleared state) { request } := by
  obtain ⟨headers, peer, route⟩ := request
  cases route with
  | readyz =>
      refine ⟨rfl, fun ready => ?_⟩
      cases ready <;> exact ⟨fun _ => trivial, nofun⟩
  | register body =>
      refine auth_obeys rfl (extracted_obeys ?_)
      rintro body rfl
      exact register_answer rfl rfl
  | login body =>
      refine auth_obeys rfl (extracted_obeys ?_)
      rintro body rfl
      exact login_answer headers rfl rfl
  | refresh => exact auth_obeys rfl (refresh_answer rfl rfl)
  | logout => exact auth_obeys rfl (logout_answer rfl rfl)
  | createSearch body =>
      exact api_obeys rfl fun standing userId _ hacts =>
        extracted_obeys fun body _ => createSearch_obeys headers body hacts
  | listSearches => exact api_obeys rfl fun standing userId _ hacts => listSearches_obeys hacts
  | getSearch id =>
      exact api_obeys rfl fun standing userId _ hacts =>
        extracted_obeys fun id _ => getSearch_obeys id hacts
  | answerSearch id answer =>
      exact api_obeys rfl fun standing userId _ hacts => extracted_obeys fun id _ =>
        extracted_obeys fun answer _ => answerSearch_obeys id answer hacts
  | searchEvents id polls =>
      exact api_obeys rfl fun standing userId _ hacts =>
        extracted_obeys fun id _ => searchEvents_obeys id polls hacts
  | createRecurring body =>
      exact api_obeys rfl fun standing userId _ hacts =>
        extracted_obeys fun body _ => createRecurring_answer body hacts
  | listRecurring => exact api_obeys rfl fun standing userId _ hacts => listRecurring_answer hacts
  | deleteRecurring id =>
      exact api_obeys rfl fun standing userId _ hacts =>
        extracted_obeys fun id _ => deleteRecurring_answer id hacts
  | getProfile => exact api_obeys rfl fun standing userId _ hacts => getProfile_obeys hacts
  | deleteAccount =>
      exact api_obeys rfl fun standing userId hrequest hacts =>
        deleteAccount_answer hacts (congrArg Request.route hrequest)
  | createChannel body =>
      exact api_obeys rfl fun standing userId _ hacts =>
        extracted_obeys fun body _ => createChannel_obeys body hacts
  | deleteChannel id =>
      exact api_obeys rfl fun standing userId _ hacts =>
        extracted_obeys fun id _ => deleteChannel_obeys id hacts
  | createDocument body =>
      exact api_obeys rfl fun standing userId _ hacts =>
        extracted_obeys fun body _ => createDocument_obeys body hacts
  | listDocuments => exact api_obeys rfl fun standing userId _ hacts => listDocuments_obeys hacts
  | deleteDocument id =>
      exact api_obeys rfl fun standing userId _ hacts =>
        extracted_obeys fun id _ => deleteDocument_obeys id hacts
  | internalStarted id =>
      refine extracted_obeys ?_
      rintro id rfl
      exact internal_obeys rfl fun hworks => internalStarted_obeys hworks rfl
  | internalResults id results =>
      refine extracted_obeys ?_
      rintro id rfl
      exact extracted_obeys fun results _ => internal_obeys rfl fun hworks =>
        internalResults_obeys results hworks rfl
  | internalStep id step =>
      refine extracted_obeys ?_
      rintro id rfl
      exact extracted_obeys fun step _ => internal_obeys rfl fun hworks =>
        internalStep_obeys step hworks rfl
  | internalQuestion id question =>
      refine extracted_obeys ?_
      rintro id rfl
      exact extracted_obeys fun question _ => internal_obeys rfl fun hworks =>
        internalQuestion_obeys question hworks rfl
  | internalUsage id usage =>
      refine extracted_obeys ?_
      rintro id rfl
      exact extracted_obeys fun usage _ => internal_obeys rfl fun hworks =>
        internalUsage_obeys usage hworks rfl
  | internalFailure id error =>
      refine extracted_obeys ?_
      rintro id rfl
      exact extracted_obeys fun error _ => internal_obeys rfl fun hworks =>
        internalFailure_obeys error hworks rfl
  | internalStoreChunks id chunks =>
      refine extracted_obeys ?_
      rintro id rfl
      exact extracted_obeys fun chunks _ => internal_obeys rfl fun hworks =>
        internalStoreChunks_obeys chunks hworks rfl
  | internalDocumentFailure id error =>
      refine extracted_obeys ?_
      rintro id rfl
      exact extracted_obeys fun error _ => internal_obeys rfl fun hworks =>
        internalDocumentFailure_obeys error hworks rfl
  | internalRetrieve body =>
      refine extracted_obeys ?_
      rintro body rfl
      exact internal_obeys rfl fun hworks => internalRetrieve_obeys body hworks rfl

end Serve

-- Whatever answers, and whatever the order of the calls of the requests in flight: each
-- call that a request has made was permitted by what it had been granted and had read
-- before it, and an answer that is no refusal rests on the standing that its route asks for.
theorem requests_mediated {σ ι : Type} [DecidableEq ι] (state : AppState)
    (handler : Handler GatewayPorts σ) (store : σ) (requests : ι → Request) (schedule : List ι) :
    let c := (gatewayRuns state store requests).run handler schedule
    ∀ i, (mediation state).Conforms { request := requests i } (c.threads i).past ∧
      (c.threads i).rest.Stops
        (Cleared state ((mediation state).after { request := requests i } (c.threads i).past)) := by
  intro c i
  have hstart : (gatewayRuns state store requests).Obeys (mediation state)
      (fun _ => Cleared state) fun i => { request := requests i } :=
    Config.obeys_start (fun i => serve_obeys state (requests i)) store
  obtain ⟨hobeys, hconforms⟩ := hstart.conforms (fun _ => trivial) handler schedule
  exact ⟨hconforms i, (hobeys i).stops⟩

end AgentBoilerplate.Http
