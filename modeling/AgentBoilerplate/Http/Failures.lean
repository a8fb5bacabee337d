import AgentBoilerplate.Effects.Protocol
import AgentBoilerplate.Http.Gateway

-- Which failures of the ports a client is told of: those of the calls that its request
-- needs, and no others.
namespace AgentBoilerplate.Http

open Effects Job Knowledge Profile

-- What the checks make of a text plays no part, and to compute it is costly.
attribute [local irreducible] trim

section Failed

def jobFailed : Event JobPorts → Bool
  | ⟨.insert _, .error _⟩ | ⟨.update _, .error _⟩ | ⟨.find _, .error _⟩
  | ⟨.countCreatedSince _ _, .error _⟩ | ⟨.listUnfinishedOlderThan _, .error _⟩
  | ⟨.storeResults _ _, .error _⟩ | ⟨.appendStep _ _, .error _⟩ | ⟨.clearSteps _, .error _⟩
  | ⟨.addUsage _ _, .error _⟩ | ⟨.recentUrlsForRecurring _ _, .error _⟩
  | ⟨.findRecurring _, .error _⟩ | ⟨.listDue _, .error _⟩ | ⟨.markRan _ _, .error _⟩
  | ⟨.listChannels _, .error _⟩ | ⟨.sendDigest _ _, .error _⟩ | ⟨.notify _ _, .error _⟩
  | ⟨.dispatch _ _, .error _⟩ => true
  | _ => false

def queryFailed : Event QueryPorts → Bool
  | ⟨.listForUser _, .error _⟩ | ⟨.resultsFor _, .error _⟩ | ⟨.stepsFor _, .error _⟩ => true
  | _ => false

def documentFailed : Event KnowledgePorts → Bool
  | ⟨.insert _, .error _⟩ | ⟨.listForUser _, .error _⟩ | ⟨.find _, .error _⟩
  | ⟨.delete _ _, .error _⟩ | ⟨.storeChunks _ _, .error _⟩ | ⟨.markFailed _ _, .error _⟩
  | ⟨.retrieve _ _ _, .error _⟩ | ⟨.deleteAllForUser _, .error _⟩
  | ⟨.dispatchEmbed _ _ _, .error _⟩ => true
  | _ => false

def deletionFailed : Event Deletion.DeletionPorts → Bool
  | ⟨.recurring _, .error _⟩ | ⟨.jobs _, .error _⟩ | ⟨.refreshTokens _, .error _⟩
  | ⟨.channels _, .error _⟩ | ⟨.documents _, .error _⟩ | ⟨.user _, .error _⟩ => true
  | _ => false

def profileFailed : Event ProfilePorts → Bool
  | ⟨.findUser _, .error _⟩ | ⟨.insertChannel _, .error _⟩ | ⟨.listChannels _, .error _⟩
  | ⟨.deleteChannel _ _, .error _⟩ | ⟨.insertSearch _, .error _⟩ | ⟨.listSearches _, .error _⟩
  | ⟨.deleteSearch _ _, .error _⟩ => true
  | _ => false

def sessionFailed : Event Session.SessionPorts → Bool
  | ⟨.findUserByEmail _, .error _⟩ | ⟨.findByHash _, .error _⟩ | ⟨.insert _, .error _⟩
  | ⟨.markConsumed _ _, .error _⟩ | ⟨.delete _, .error _⟩ | ⟨.deleteFamily _, .error _⟩
  | ⟨.deleteExpired _, .error _⟩ | ⟨.recordEvent _, .error _⟩ | ⟨.issueToken _, .error _⟩ => true
  | _ => false

def accountFailed : Event Account.AccountPorts → Bool
  | ⟨.findByEmail _, .error _⟩ | ⟨.insert _, .error _⟩ | ⟨.hash _, .error _⟩ => true
  | _ => false

-- A probe that finds the database away has failed, too.
def httpFailed : Event HttpPorts → Bool
  | ⟨.ready, ready⟩ => !ready
  | _ => false

def portFailed : Event GatewayPorts → Bool
  | ⟨.inl (.inl (.inl request)), answer⟩ => jobFailed ⟨request, answer⟩
  | ⟨.inl (.inl (.inr request)), answer⟩ => queryFailed ⟨request, answer⟩
  | ⟨.inl (.inr (.inl request)), answer⟩ => documentFailed ⟨request, answer⟩
  | ⟨.inl (.inr (.inr (.inl request))), answer⟩ => deletionFailed ⟨request, answer⟩
  | ⟨.inl (.inr (.inr (.inr request))), answer⟩ => profileFailed ⟨request, answer⟩
  | ⟨.inr (.inl request), answer⟩ => sessionFailed ⟨request, answer⟩
  | ⟨.inr (.inr (.inl request)), answer⟩ => accountFailed ⟨request, answer⟩
  | ⟨.inr (.inr (.inr request)), answer⟩ => httpFailed ⟨request, answer⟩

end Failed

-- How far a request has come: whether it has found the job it is about, whether its
-- answer has begun to be sent, and whether a call that it needs has failed before that.
structure Progress where
  route : Route
  found : Bool
  streaming : Bool
  failed : Bool

-- The calls that a route makes for the good of it: the audit, the digests, the embedding
-- of a document that is stored, and all that a logout does.
def bestEffort (progress : Progress) : GatewayPorts.Call → Bool
  | .inl (.inl (.inl request)) => match request with
    | .findRecurring _ | .listChannels _ | .sendDigest _ _ | .notify _ _ => true
    | _ => progress.streaming
  | .inl (.inl (.inr _)) => progress.streaming
  | .inl (.inr (.inl request)) => match request with
    | .dispatchEmbed _ _ _ => true
    | .markFailed _ _ => match progress.route with
      | .createDocument _ => true
      | _ => false
    | _ => false
  | .inl (.inr (.inr _)) => false
  | .inr (.inl request) => match request with
    | .recordEvent _ => true
    | _ => match progress.route with
      | .logout => true
      | _ => false
  | .inr (.inr _) => false

def Progress.next (progress : Progress) (event : Event GatewayPorts) : Progress where
  route := progress.route
  found := match event with
    | ⟨.inl (.inl (.inl (.find _))), .ok (some _)⟩ => true
    | _ => progress.found
  streaming := match event with
    | ⟨.inl (.inl (.inr .instant)), _⟩ => true
    | _ => progress.streaming
  failed := progress.failed || (portFailed event && !bestEffort progress event.call)

def failing : Protocol GatewayPorts Progress where
  permits _ _ := True
  next := Progress.next

-- A worker's question without a text is refused as if a port had failed.
def Blank (progress : Progress) : Prop :=
  progress.found = true ∧ ∃ id question,
    progress.route = .internalQuestion (.ok id) (.ok question) ∧ (trim question).isEmpty = true

-- The client is told of a failure when and only when a call that its request needs failed.
def Told (progress : Progress) (response : Response) : Prop :=
  500 ≤ response.status ↔ progress.failed = true ∨ Blank progress

-- What a use case makes of its calls: `server` are the errors that stand for a failure.
def Reports {ε α : Type} (server : ε → Bool) (progress : Progress) : Except ε α → Prop
  | .ok _ => progress.failed = false
  | .error e => progress.failed = server e

section UseCases

variable {route : Route} {found : Bool} {userId jobId : Uuid}

-- The start of a use case, before which nothing has failed.
def calm (route : Route) (found : Bool) : Progress := ⟨route, found, false, false⟩

def LaunchError.isFailure : LaunchError → Bool
  | .dispatchFailed | .infrastructure _ => true
  | .invalidJob _ | .quotaExceeded _ => false

def AnswerError.isFailure : AnswerError → Bool
  | .dispatchFailed | .infrastructure _ => true
  | .notFound | .invalidAnswer _ => false

def IngestError.isFailure : IngestError → Bool
  | .infrastructure _ => true
  | .jobNotFound => false

theorem failNow_reports {progress : Progress} (job : ResearchJob) (error : String) :
    (job.failNow error).Obeys failing.left.left.left
      (fun later _ => later.failed = progress.failed ∧ later.streaming = progress.streaming) progress := by
  unfold ResearchJob.failNow
  split
  · exact ⟨rfl, rfl⟩
  · exact ⟨trivial, fun _ => ⟨Bool.or_false _, rfl⟩⟩

theorem dispatchOrFail_reports {ε : Type} {server : ε → Bool} {infrastructure : PortError → ε}
    {dispatchFailed : ε} (hinfrastructure : ∀ e, server (infrastructure e) = true)
    (hdispatch : server dispatchFailed = true) (job : ResearchJob) (seenUrls : List String) :
    (dispatchOrFail infrastructure dispatchFailed job seenUrls).run.Obeys failing.left.left.left
      (Reports server) (calm route found) := by
  unfold dispatchOrFail
  simp only [Fallible.run_lift_bind, Job.ask, Program.call_bind, Program.done_bind,
    Program.obeys_call]
  refine ⟨trivial, ?_⟩
  rintro (e | _)
  · dsimp only
    rw [Fallible.run_lift_bind]
    refine (failNow_reports job _).bind ?_
    rintro later failed ⟨hfailed, -⟩
    have hlater : later.failed = true := hfailed
    rw [Fallible.run_orFail_bind]
    refine ⟨trivial, ?_⟩
    have hnext : ∀ answer, (failing.left.left.left.next later ⟨.update failed, answer⟩).failed = true :=
      fun answer => by
        show (later.failed || _) = true
        rw [hlater, Bool.true_or]
    rintro (e | _)
    · exact (hnext _).trans (hinfrastructure e).symm
    · exact (hnext _).trans hdispatch.symm
  · rfl

theorem launchSearch_reports (dailyQuota : Nat) (keyword : String) (mode : JobMode) :
    (launchSearch dailyQuota userId keyword mode).run.Obeys failing.left.left.left
      (Reports LaunchError.isFailure) (calm route found) := by
  unfold launchSearch
  simp only [Fallible.run_lift_bind, Fallible.run_orFail_bind, Job.ask, Program.call_bind,
    Program.done_bind, Program.obeys_call]
  refine ⟨trivial, fun now => ⟨trivial, ?_⟩⟩
  rintro (e | used)
  · rfl
  dsimp only
  split
  · rfl
  rw [Fallible.run_orFail_bind, newNow_bind]
  split_ifs
  · rfl
  · rfl
  refine ⟨trivial, fun id => ⟨trivial, fun clock => ?_⟩⟩
  beta_reduce
  generalize ResearchJob.new id clock userId keyword = created
  cases created with
  | error e => rfl
  | ok job =>
      dsimp only
      rw [Fallible.run_orFail_bind]
      refine ⟨trivial, ?_⟩
      rintro (e | _)
      · rfl
      · exact dispatchOrFail_reports (fun _ => rfl) rfl _ []

theorem answerClarification_reports (answer : String) :
    (answerClarification userId jobId answer).run.Obeys failing.left.left.left
      (Reports AnswerError.isFailure) (calm route found) := by
  unfold answerClarification
  simp only [Fallible.run_orFail_bind, Job.ask, Program.call_bind, Program.done_bind,
    Program.obeys_call]
  refine ⟨trivial, ?_⟩
  rintro (e | stored)
  · rfl
  dsimp only
  cases hstored : stored.filter fun job => job.userId = userId with
  | none =>
      cases stored with
      | none => rfl
      | some job => rfl
  | some job =>
      cases stored with
      | none => cases hstored
      | some other =>
          dsimp only
          generalize job.provideAnswer answer = provided
          rcases provided with ⟨e | _, answered⟩
          · rfl
          simp only [Fallible.run_orFail_bind, Program.call_bind, Program.done_bind,
            Program.obeys_call]
          refine ⟨trivial, ?_⟩
          rintro (e | _)
          · rfl
          refine ⟨trivial, ?_⟩
          rintro (e | _)
          · rfl
          dsimp only
          cases answered.recurringSearchId with
          | none => exact dispatchOrFail_reports (fun _ => rfl) rfl answered []
          | some searchId =>
              dsimp only
              rw [Fallible.run_orFail_bind]
              refine ⟨trivial, ?_⟩
              rintro (e | seenUrls)
              · rfl
              · exact dispatchOrFail_reports (fun _ => rfl) rfl answered seenUrls

-- What the digests of a completed job meet with is not told.
theorem quiet_reports {p : Program JobPorts Unit} (h : p.Within fun request =>
      ∀ progress, bestEffort progress (.inl (.inl (.inl request))) = true) {progress : Progress} :
    p.Obeys failing.left.left.left (fun later _ => later.failed = progress.failed) progress := by
  induction p generalizing progress with
  | done value => rfl
  | call request next ih =>
      refine ⟨trivial, fun answer => ?_⟩
      have hnext : (failing.left.left.left.next progress ⟨request, answer⟩).failed = progress.failed := by
        show (progress.failed || _ && !bestEffort progress (.inl (.inl (.inl request)))) = _
        rw [h.1 progress, Bool.not_true, Bool.and_false, Bool.or_false]
      rw [← hnext]
      exact ih answer (h.2 answer)

theorem maybeSendDigest_reports (job : ResearchJob) (results : List SearchResult)
    {progress : Progress} :
    (IngestResults.maybeSendDigest job results).Obeys failing.left.left.left
      (fun later _ => later.failed = progress.failed) progress := by
  refine quiet_reports ((maybeSendDigest_notifies job results).mono fun request hnotifies => ?_)
  intro progress
  cases request with
  | findRecurring _ | listChannels _ | sendDigest _ _ | notify _ _ => rfl
  | _ => cases hnotifies

-- A notification is refused where the job is not found, or reading it fails.
theorem notification_reports {x : ResearchJob → Job.UseCase IngestError Unit}
    (hx : ∀ job, (x job).run.Obeys failing.left.left.left (Reports IngestError.isFailure)
      (calm route true)) :
    (IngestResults.findJob jobId >>= x).run.Obeys failing.left.left.left
      (Reports IngestError.isFailure) (calm route found) := by
  rw [run_findJob_bind]
  refine ⟨trivial, ?_⟩
  rintro (e | stored)
  · rfl
  cases stored with
  | none => rfl
  | some job => exact hx job

theorem update_reports (job : ResearchJob) :
    (orFail IngestError.infrastructure (Job.ask (.update job))).run.Obeys failing.left.left.left
      (Reports IngestError.isFailure) (calm route true) := by
  refine ⟨trivial, ?_⟩
  rintro (e | _) <;> rfl

theorem start_reports : (IngestResults.start jobId).run.Obeys failing.left.left.left
    (Reports IngestError.isFailure) (calm route found) :=
  notification_reports fun job => update_reports job.start

theorem complete_reports (results : List SearchResult) :
    (IngestResults.complete jobId results).run.Obeys failing.left.left.left
      (Reports IngestError.isFailure) (calm route found) := by
  refine notification_reports fun job => ?_
  simp only [Fallible.run_lift_bind, Fallible.run_orFail_bind, ResearchJob.completeNow, Job.ask,
    Program.call_bind, Program.done_bind, Program.obeys_call]
  refine ⟨trivial, ?_⟩
  rintro (e | _)
  · rfl
  refine ⟨trivial, fun now => ⟨trivial, ?_⟩⟩
  rintro (e | _)
  · rfl
  · exact (maybeSendDigest_reports _ results).bind fun _ _ h => h

theorem recordStep_reports (step : AgentStep) :
    (IngestResults.recordStep jobId step).run.Obeys failing.left.left.left
      (Reports IngestError.isFailure) (calm route found) := by
  refine notification_reports fun job => ⟨trivial, ?_⟩
  rintro (e | _) <;> rfl

theorem recordUsage_reports (usage : JobUsage) :
    (IngestResults.recordUsage jobId usage).run.Obeys failing.left.left.left
      (Reports IngestError.isFailure) (calm route found) := by
  refine notification_reports fun job => ⟨trivial, ?_⟩
  rintro (e | _) <;> rfl

theorem fail_reports (error : String) :
    (IngestResults.fail jobId error).run.Obeys failing.left.left.left
      (Reports IngestError.isFailure) (calm route found) := by
  refine notification_reports fun job => ?_
  rw [Fallible.run_lift_bind]
  unfold ResearchJob.failNow
  split
  · exact update_reports job
  · exact ⟨trivial, fun now => update_reports _⟩

def ReportsQuestion (question : String) (progress : Progress) : Except IngestError Unit → Prop
  | .ok _ => progress.failed = false ∧ (trim question).isEmpty = false
  | .error .jobNotFound => progress.failed = false ∧ progress.found = false
  | .error (.infrastructure _) => progress.failed = true ∨
      progress.failed = false ∧ progress.found = true ∧ (trim question).isEmpty = true

theorem requestInput_fst (job : ResearchJob) (question : String) :
    (job.requestInput question).1 =
      if (trim question).isEmpty then .error .emptyQuestion else .ok () := by
  unfold ResearchJob.requestInput
  dsimp only
  split_ifs <;> rfl

theorem requestInput_reports (question : String) :
    (IngestResults.requestInput jobId question).run.Obeys failing.left.left.left
      (ReportsQuestion question) (calm route false) := by
  unfold IngestResults.requestInput
  rw [run_findJob_bind]
  refine ⟨trivial, ?_⟩
  rintro (e | stored)
  · exact Or.inl rfl
  cases stored with
  | none => exact ⟨rfl, rfl⟩
  | some job =>
      have hfst := requestInput_fst job question
      dsimp only
      generalize job.requestInput question = requested at hfst ⊢
      rcases requested with ⟨e | _, asked⟩
      · refine Or.inr ⟨rfl, rfl, ?_⟩
        by_contra hempty
        rw [if_neg hempty] at hfst
        cases hfst
      · have hempty : ¬ (trim question).isEmpty = true := by
          intro hempty
          rw [if_pos hempty] at hfst
          cases hfst
        refine ⟨trivial, ?_⟩
        rintro (e | _)
        · exact Or.inl rfl
        · exact ⟨rfl, Bool.eq_false_of_not_eq_true hempty⟩

-- Where every error of a use case stands for a failure.
def always {ε : Type} (_ : ε) : Bool := true

theorem list_reports : (SearchQueries.list userId).run.Obeys failing.left.left (Reports always)
    (calm route found) := by
  refine ⟨trivial, ?_⟩
  rintro (e | jobs) <;> rfl

theorem get_reports : (SearchQueries.get userId jobId).run.Obeys failing.left.left
    (fun later result => later.streaming = false ∧ Reports always later result)
    (calm route found) := by
  unfold SearchQueries.get
  simp only [Fallible.run_orFail_bind, askJobs, Program.call_bind, Program.done_bind,
    Program.obeys_call]
  refine ⟨trivial, ?_⟩
  rintro (e | stored)
  · exact ⟨rfl, rfl⟩
  cases stored with
  | none => exact ⟨rfl, rfl⟩
  | some job =>
      dsimp only
      split
      · exact ⟨rfl, rfl⟩
      simp only [Fallible.run_orFail_bind, query, Program.call_bind, Program.done_bind,
        Program.obeys_call]
      refine ⟨trivial, ?_⟩
      rintro (e | results)
      · exact ⟨rfl, rfl⟩
      refine ⟨trivial, ?_⟩
      rintro (e | steps) <;> exact ⟨rfl, rfl⟩

-- What a stream meets with once it has begun is not told.
theorem streaming_reports {α : Type} (p : Program SearchPorts α) {progress : Progress}
    (hstreaming : progress.streaming = true) :
    p.Obeys failing.left.left (fun later _ => later.failed = progress.failed) progress := by
  induction p generalizing progress with
  | done value => rfl
  | call request next ih =>
      refine ⟨trivial, fun answer => ?_⟩
      have hlater : (failing.left.left.next progress ⟨request, answer⟩).streaming = true := by
        show (match (⟨.inl (.inl request), answer⟩ : Event GatewayPorts) with
          | ⟨.inl (.inl (.inr .instant)), _⟩ => true
          | _ => progress.streaming) = true
        split
        · rfl
        · exact hstreaming
      have hfailed : (failing.left.left.next progress ⟨request, answer⟩).failed = progress.failed := by
        have hbest : bestEffort progress (.inl (.inl request)) = true := by
          rcases request with request | request
          · cases request <;> first | rfl | exact hstreaming
          · exact hstreaming
        show (progress.failed || _ && !bestEffort progress (.inl (.inl request))) = _
        rw [hbest, Bool.not_true, Bool.and_false, Bool.or_false]
      rw [← hfailed]
      exact ih answer hlater

theorem jobUpdatesWith_reports (stream : StreamConfig) (polls : Nat) {progress : Progress} :
    (jobUpdatesWith stream userId jobId polls).Obeys failing.left.left
      (fun later _ => later.failed = progress.failed) progress := by
  refine ⟨trivial, fun started => ?_⟩
  have hfailed : (failing.left.left.next progress ⟨.inr .instant, started⟩).failed =
      progress.failed := Bool.or_false _
  rw [← hfailed]
  exact streaming_reports _ rfl

def RecurringError.isFailure : RecurringError → Bool
  | .infrastructure _ => true
  | .invalid _ | .notFound | .tooMany _ => false

def LoginError.isFailure : Session.LoginError → Bool
  | .infrastructure _ => true
  | .invalidCredentials => false

def RefreshError.isFailure : Session.RefreshError → Bool
  | .infrastructure _ => true
  | .invalidToken => false

def RegisterError.isFailure : Account.RegisterError → Bool
  | .infrastructure _ => true
  | .emailTaken | .invalidEmail | .passwordTooShort => false

theorem upload_reports {body : Extracted CreateDocumentRequest} (name content : String) :
    (Knowledge.upload userId name content).run.Obeys failing.left.right.left
      (Reports fun e => !(e matches .invalid _)) (calm (.createDocument body) found) := by
  unfold Knowledge.upload
  rw [Fallible.run_orFail_bind, Program.pure_eq, Program.done_bind]
  generalize validateContent content = valid
  rcases valid with e | _
  · rfl
  dsimp only
  rw [Fallible.run_orFail_bind]
  unfold Document.new
  dsimp only
  split_ifs
  · rfl
  · rfl
  refine ⟨trivial, fun id => ⟨trivial, fun now => ⟨trivial, ?_⟩⟩⟩
  rintro (e | _)
  · rfl
  refine ⟨trivial, ?_⟩
  rintro (e | _)
  · exact ⟨trivial, fun answer => by cases answer <;> rfl⟩
  · rfl

theorem listDocuments_reports : (Knowledge.list userId).run.Obeys failing.left.right.left
    (Reports always) (calm route found) := by
  refine ⟨trivial, ?_⟩
  rintro (e | documents) <;> rfl

theorem deleteDocument_reports (id : Uuid) :
    (Knowledge.delete userId id).run.Obeys failing.left.right.left (Reports always)
      (calm route found) := by
  refine ⟨trivial, ?_⟩
  rintro (e | deleted) <;> rfl

theorem storeChunks_reports (documentId : Uuid) (chunks : List NewChunk) :
    (Knowledge.storeChunks documentId chunks).run.Obeys failing.left.right.left
      (Reports fun e => !(e matches .documentNotFound)) (calm route found) := by
  refine ⟨trivial, ?_⟩
  rintro (e | stored)
  · rfl
  cases stored with
  | none => rfl
  | some document =>
      refine ⟨trivial, ?_⟩
      rintro (e | _) <;> rfl

theorem markFailed_reports {id : Extracted Uuid} {error : Extracted String} (documentId : Uuid)
    (message : String) :
    (Knowledge.markFailed documentId message).run.Obeys failing.left.right.left (Reports always)
      (calm (.internalDocumentFailure id error) found) := by
  refine ⟨trivial, ?_⟩
  rintro (e | _) <;> rfl

theorem retrieveForJob_reports (embedding : Embedding) (k : Int) :
    (Tenancy.retrieveForJob jobId embedding k).run.Obeys failing.left
      (Reports fun e => !(e matches .jobNotFound)) (calm route found) := by
  refine ⟨trivial, ?_⟩
  rintro (e | stored)
  · rfl
  cases stored with
  | none => rfl
  | some job =>
      refine ⟨trivial, ?_⟩
      rintro (e | chunks) <;> rfl

theorem deleteAccount_reports :
    (Deletion.deleteAccount userId).run.Obeys failing.left.right.right.left (Reports always)
      (calm route found) := by
  unfold Deletion.deleteAccount
  simp only [Fallible.run_orFail_bind, Deletion.ask, Program.call_bind, Program.done_bind,
    Program.obeys_call]
  refine ⟨trivial, ?_⟩
  rintro (e | _)
  · rfl
  refine ⟨trivial, ?_⟩
  rintro (e | _)
  · rfl
  refine ⟨trivial, ?_⟩
  rintro (e | _)
  · rfl
  refine ⟨trivial, ?_⟩
  rintro (e | _)
  · rfl
  refine ⟨trivial, ?_⟩
  rintro (e | _)
  · rfl
  refine ⟨trivial, ?_⟩
  rintro (e | _) <;> rfl

theorem view_reports : (Profile.view userId).run.Obeys failing.left.right.right.right
    (Reports fun e => !(e matches .notFound)) (calm route found) := by
  refine ⟨trivial, ?_⟩
  rintro (e | stored)
  · rfl
  cases stored with
  | none => rfl
  | some user =>
      refine ⟨trivial, ?_⟩
      rintro (e | channels) <;> rfl

theorem addChannel_reports (emailEnabled : Bool) (kind : ChannelKind) (target : String)
    (secret : Option String) :
    (Profile.addChannel emailEnabled userId kind target secret).run.Obeys
      failing.left.right.right.right (Reports fun e => !(e matches .emailNotConfigured | .invalidChannel _)) (calm route found) := by
  unfold Profile.addChannel
  split
  · rfl
  rw [Fallible.run_orFail_bind]
  unfold Profile.newChannel
  generalize Notify.newChannel userId 0 userId kind target secret = checked
  cases checked with
  | error e => rfl
  | ok channel =>
      refine ⟨trivial, fun id => ⟨trivial, fun now => ⟨trivial, ?_⟩⟩⟩
      rintro (e | _) <;> rfl

theorem removeChannel_reports (id : Uuid) :
    (Profile.removeChannel userId id).run.Obeys failing.left.right.right.right (Reports always)
      (calm route found) := by
  refine ⟨trivial, ?_⟩
  rintro (e | deleted) <;> rfl

theorem createRecurring_reports (keyword : String) (mode : JobMode) (intervalMinutes : Nat)
    (webhookUrl : Option String) :
    (RecurringSearches.create userId keyword mode intervalMinutes webhookUrl).run.Obeys
      failing.left.right.right.right (Reports RecurringError.isFailure) (calm route found) := by
  unfold RecurringSearches.create
  simp only [Fallible.run_orFail_bind, Profile.ask, Program.call_bind, Program.done_bind,
    Program.obeys_call]
  refine ⟨trivial, ?_⟩
  rintro (e | searches)
  · rfl
  dsimp only
  split
  · rfl
  rw [Fallible.run_orFail_bind]
  unfold newSearch
  generalize checkSearch keyword intervalMinutes webhookUrl = checked
  cases checked with
  | error e => rfl
  | ok webhookUrl =>
      refine ⟨trivial, fun id => ⟨trivial, fun now => ⟨trivial, ?_⟩⟩⟩
      rintro (e | _) <;> rfl

theorem listRecurring_reports :
    (RecurringSearches.list userId).run.Obeys failing.left.right.right.right
      (Reports always) (calm route found) := by
  refine ⟨trivial, ?_⟩
  rintro (e | searches) <;> rfl

theorem deleteRecurring_reports (id : Uuid) :
    (RecurringSearches.delete userId id).run.Obeys failing.left.right.right.right
      (Reports fun e => !(e matches .notFound)) (calm route found) := by
  refine ⟨trivial, ?_⟩
  rintro (e | deleted)
  · rfl
  · cases deleted <;> rfl

theorem register_reports (toLowercase : String → String) (email password : String) :
    (Account.register toLowercase email password).run.Obeys failing.right.right.left
      (Reports RegisterError.isFailure) (calm route found) := by
  unfold Account.register
  generalize Account.normalize toLowercase email = email
  dsimp only
  split_ifs
  · rfl
  · rfl
  refine ⟨trivial, ?_⟩
  rintro (e | stored)
  · rfl
  cases stored with
  | some user => rfl
  | none =>
      refine ⟨trivial, ?_⟩
      rintro (e | passwordHash)
      · rfl
      refine ⟨trivial, fun id => ⟨trivial, fun now => ⟨trivial, ?_⟩⟩⟩
      rintro (e | _) <;> rfl

theorem login_reports {body : Extracted Account.Credentials} (prims : Session.Primitives)
    (ttlDays : Int) (email password : String) :
    (Session.login prims ttlDays email password).run.Obeys failing.right.left
      (Reports LoginError.isFailure) (calm (.login body) found) := by
  unfold Session.login
  simp only [Fallible.run_orFail_bind, Session.findUserByEmail, Program.call_bind,
    Program.done_bind, Program.obeys_call]
  refine ⟨trivial, ?_⟩
  rintro (e | stored)
  · rfl
  cases stored with
  | none => rfl
  | some user =>
      dsimp only
      split
      · refine ⟨trivial, fun _ => ⟨trivial, fun _ => ⟨trivial, fun _ => ⟨trivial, fun _ => ?_⟩⟩⟩⟩
        refine ⟨trivial, ?_⟩
        rintro (e | _)
        · rfl
        refine ⟨trivial, ?_⟩
        rintro (e | accessToken) <;> rfl
      · rfl

theorem rotate_reports (prims : Session.Primitives) (ttlDays : Int) (presented : String) :
    (Session.rotate prims ttlDays presented).run.Obeys failing.right.left
      (Reports RefreshError.isFailure) (calm .refresh found) := by
  unfold Session.rotate
  simp only [Fallible.run_orFail_bind, Session.findByHash, Program.call_bind,
    Program.done_bind, Program.obeys_call]
  refine ⟨trivial, ?_⟩
  rintro (e | found)
  · rfl
  cases found with
  | none => rfl
  | some stored =>
      dsimp only
      split
      · refine ⟨trivial, ?_⟩
        rintro (e | _)
        · rfl
        · exact ⟨trivial, fun _ => ⟨trivial, fun _ => ⟨trivial, fun answer => by
            cases answer <;> rfl⟩⟩⟩
      simp only [Fallible.run_lift_bind, Session.utcNow, Program.call_bind, Program.done_bind,
        Program.obeys_call]
      refine ⟨trivial, fun now => ?_⟩
      split
      · refine ⟨trivial, ?_⟩
        rintro (e | _) <;> rfl
      · refine ⟨trivial, fun at_ => ⟨trivial, ?_⟩⟩
        rintro (e | _)
        · rfl
        refine ⟨trivial, fun _ => ⟨trivial, fun _ => ⟨trivial, fun _ => ⟨trivial, ?_⟩⟩⟩⟩
        rintro (e | _)
        · rfl
        refine ⟨trivial, ?_⟩
        rintro (e | accessToken) <;> rfl

-- What a logout meets with is not told.
theorem revoke_reports (prims : Session.Primitives) (presented : String) :
    (Session.revoke prims presented).run.Obeys failing.right.left
      (fun later _ => later.failed = false) (calm .logout found) := by
  refine ⟨trivial, ?_⟩
  rintro (e | stored)
  · rfl
  cases stored with
  | none => rfl
  | some token =>
      refine ⟨trivial, ?_⟩
      rintro (e | _) <;> rfl

theorem recordSecurityEvent_reports (kind : Session.SecurityEventKind) (whose : Option Uuid)
    (clientIp : Option String) (detail : String) {progress : Progress} :
    (recordSecurityEvent kind whose clientIp detail).Obeys failing
      (fun later _ => later.failed = progress.failed) progress := by
  refine ⟨trivial, fun id => ⟨trivial, fun now => ⟨trivial, fun answer => ?_⟩⟩⟩
  have hquiet : ∀ (progress : Progress) event, (portFailed event && !bestEffort progress event.call) =
      false → (progress.next event).failed = progress.failed := fun progress event h => by
    show (progress.failed || _) = _
    rw [h, Bool.or_false]
  exact (hquiet _ _ (Bool.and_false _)).trans ((hquiet _ _ rfl).trans (hquiet _ _ rfl))

end UseCases

-- An answer that says whether a call that the request needs has failed.
def Honest (progress : Progress) (response : Response) : Prop :=
  500 ≤ response.status ↔ progress.failed = true

section Handlers

variable {route : Route} {found : Bool} {userId jobId : Uuid} {state : AppState}
  {progress : Progress} {response : Response}

theorem honest_refusal (hfailed : progress.failed = false)
    (hstatus : decide (response.status < 500) = true) : Honest progress response :=
  iff_of_false (Nat.not_le.mpr (of_decide_eq_true hstatus))
    (by rw [hfailed]; exact Bool.false_ne_true)

theorem honest_failure (hfailed : progress.failed = true)
    (hstatus : decide (500 ≤ response.status) = true) : Honest progress response :=
  iff_of_true (of_decide_eq_true hstatus) hfailed

section Sides

variable {α : Type} {post : Progress → α → Prop}

theorem onJobs_obeys {p : Program JobPorts α} (h : p.Obeys failing.left.left.left post progress) :
    (onJobs p).Obeys failing post progress :=
  Program.inl_obeys (Program.inl_obeys (Program.inl_obeys h))

theorem onSearch_obeys {p : Program SearchPorts α} (h : p.Obeys failing.left.left post progress) :
    (onSearch p).Obeys failing post progress := Program.inl_obeys (Program.inl_obeys h)

theorem onKnowledge_obeys {p : Program KnowledgePorts α}
    (h : p.Obeys failing.left.right.left post progress) : (onKnowledge p).Obeys failing post progress :=
  Program.inl_obeys (Program.inr_obeys (Program.inl_obeys h))

theorem onDeletion_obeys {p : Program Deletion.DeletionPorts α}
    (h : p.Obeys failing.left.right.right.left post progress) :
    (onDeletion p).Obeys failing post progress :=
  Program.inl_obeys (Program.inr_obeys (Program.inr_obeys (Program.inl_obeys h)))

theorem onProfile_obeys {p : Program ProfilePorts α}
    (h : p.Obeys failing.left.right.right.right post progress) :
    (onProfile p).Obeys failing post progress :=
  Program.inl_obeys (Program.inr_obeys (Program.inr_obeys (Program.inr_obeys h)))

theorem onSession_reports {p : Program Session.SessionPorts α}
    (h : p.Obeys failing.right.left post progress) : (onSession p).Obeys failing post progress :=
  Program.inr_obeys (Program.inl_obeys h)

theorem onAccount_obeys {p : Program Account.AccountPorts α}
    (h : p.Obeys failing.right.right.left post progress) : (onAccount p).Obeys failing post progress :=
  Program.inr_obeys (Program.inr_obeys (Program.inl_obeys h))

end Sides

theorem createSearch_honest (headers : HeaderMap) (body : CreateSearchRequest) :
    (createSearch state headers userId body).Obeys failing Honest (calm route found) := by
  refine (onJobs_obeys (launchSearch_reports _ _ _)).bind ?_
  rintro later (e | job) hreports
  · cases e with
    | quotaExceeded quota =>
        refine (recordSecurityEvent_reports _ _ _ _).bind ?_
        exact fun _ _ h => honest_refusal (h.trans hreports) rfl
    | invalidJob e => exact honest_refusal hreports rfl
    | dispatchFailed => exact honest_failure hreports rfl
    | infrastructure e => exact honest_failure hreports rfl
  · exact honest_refusal hreports rfl

theorem answerSearch_honest (answer : String) :
    (answerSearch userId jobId answer).Obeys failing Honest (calm route found) := by
  refine (onJobs_obeys (answerClarification_reports answer)).bind ?_
  rintro later (e | job) hreports
  · cases e with
    | notFound => exact honest_refusal hreports rfl
    | invalidAnswer e => cases e <;> exact honest_refusal hreports rfl
    | dispatchFailed => exact honest_failure hreports rfl
    | infrastructure e => exact honest_failure hreports rfl
  · exact honest_refusal hreports rfl

theorem listSearches_honest :
    (listSearches userId).Obeys failing Honest (calm route found) := by
  refine (onSearch_obeys list_reports).bind ?_
  rintro later (e | jobs) hreports
  · exact honest_failure hreports rfl
  · exact honest_refusal hreports rfl

theorem getSearch_honest : (getSearch userId jobId).Obeys failing Honest (calm route found) := by
  refine (onSearch_obeys get_reports).bind ?_
  rintro later (e | stored) ⟨-, hreports⟩
  · exact honest_failure hreports rfl
  · cases stored <;> exact honest_refusal hreports rfl

theorem searchEvents_honest (polls : Nat) :
    (searchEvents state userId jobId polls).Obeys failing Honest (calm route found) := by
  refine (onSearch_obeys get_reports).bind ?_
  rintro later (e | stored) ⟨-, hreports⟩
  · exact honest_failure hreports rfl
  cases stored with
  | none => exact honest_refusal hreports rfl
  | some snapshot =>
      refine (onSearch_obeys (jobUpdatesWith_reports state.stream polls)).bind ?_
      exact fun _ _ h => honest_refusal (h.trans hreports) rfl

theorem createRecurring_honest (body : CreateRecurringRequest) :
    (createRecurring userId body).Obeys failing Honest (calm route found) := by
  refine (onProfile_obeys (createRecurring_reports _ _ _ _)).bind ?_
  rintro later (e | search) hreports
  · cases e with
    | infrastructure e => exact honest_failure hreports rfl
    | invalid e => exact honest_refusal hreports rfl
    | tooMany max => exact honest_refusal hreports rfl
    | notFound => exact honest_refusal hreports rfl
  · exact honest_refusal hreports rfl

theorem listRecurring_honest :
    (listRecurring userId).Obeys failing Honest (calm route found) := by
  refine (onProfile_obeys listRecurring_reports).bind ?_
  rintro later (e | searches) hreports
  · exact honest_failure hreports rfl
  · exact honest_refusal hreports rfl

theorem deleteRecurring_honest (id : Uuid) :
    (deleteRecurring userId id).Obeys failing Honest (calm route found) := by
  refine (onProfile_obeys (deleteRecurring_reports id)).bind ?_
  rintro later (e | _) hreports
  · cases e with
    | notFound => exact honest_refusal hreports rfl
    | invalid e => exact honest_failure hreports rfl
    | tooMany max => exact honest_failure hreports rfl
    | infrastructure e => exact honest_failure hreports rfl
  · exact honest_refusal hreports rfl

theorem getProfile_honest : (getProfile state userId).Obeys failing Honest (calm route found) := by
  refine (onProfile_obeys view_reports).bind ?_
  rintro later (e | ⟨user, channels⟩) hreports
  · cases e with
    | notFound => exact honest_refusal hreports rfl
    | emailNotConfigured => exact honest_failure hreports rfl
    | invalidChannel e => exact honest_failure hreports rfl
    | infrastructure e => exact honest_failure hreports rfl
  · exact honest_refusal hreports rfl

theorem deleteAccount_honest : (deleteAccount userId).Obeys failing Honest (calm route found) := by
  refine (onDeletion_obeys deleteAccount_reports).bind ?_
  rintro later (e | _) hreports
  · exact honest_failure hreports rfl
  · exact honest_refusal hreports rfl

theorem createChannel_honest (body : CreateChannelRequest) :
    (createChannel state userId body).Obeys failing Honest (calm route found) := by
  unfold createChannel
  cases parseChannelKind body.kind with
  | none => exact honest_refusal rfl rfl
  | some kind =>
      refine (onProfile_obeys (addChannel_reports _ _ _ _)).bind ?_
      rintro later (e | channel) hreports
      · cases e with
        | notFound => exact honest_failure hreports rfl
        | emailNotConfigured => exact honest_refusal hreports rfl
        | invalidChannel e => exact honest_refusal hreports rfl
        | infrastructure e => exact honest_failure hreports rfl
      · exact honest_refusal hreports rfl

theorem deleted_honest (what : String) {result : Except PortError Bool}
    (hreports : Reports always progress result) : Honest progress (deleted what result) := by
  rcases result with e | found
  · exact honest_failure hreports rfl
  · cases found <;> exact honest_refusal hreports rfl

theorem deleteChannel_honest (id : Uuid) :
    (deleteChannel userId id).Obeys failing Honest (calm route found) :=
  (onProfile_obeys (removeChannel_reports id)).bind fun _ _ => deleted_honest "channel"

theorem listDocuments_honest : (listDocuments userId).Obeys failing Honest (calm route found) := by
  refine (onKnowledge_obeys listDocuments_reports).bind ?_
  rintro later (e | documents) hreports
  · exact honest_failure hreports rfl
  · exact honest_refusal hreports rfl

theorem createDocument_honest {part : Extracted CreateDocumentRequest}
    (body : CreateDocumentRequest) :
    (createDocument userId body).Obeys failing Honest (calm (.createDocument part) found) := by
  refine (onKnowledge_obeys (upload_reports _ _)).bind ?_
  rintro later (e | document) hreports
  · cases e with
    | invalid e => exact honest_refusal hreports rfl
    | documentNotFound => exact honest_failure hreports rfl
    | jobNotFound => exact honest_failure hreports rfl
    | infrastructure e => exact honest_failure hreports rfl
  · exact honest_refusal hreports rfl

theorem deleteDocument_honest (id : Uuid) :
    (deleteDocument userId id).Obeys failing Honest (calm route found) :=
  (onKnowledge_obeys (deleteDocument_reports id)).bind fun _ _ => deleted_honest "document"

theorem ingested_honest {p : Program JobPorts (Except IngestError Unit)}
    (h : p.Obeys failing.left.left.left (Reports IngestError.isFailure) progress) :
    (do return ingested (← onJobs p) : Program GatewayPorts Response).Obeys failing Honest
      progress := by
  refine (onJobs_obeys h).bind ?_
  rintro later (e | _) hreports
  · cases e with
    | jobNotFound => exact honest_refusal hreports rfl
    | infrastructure e => exact honest_failure hreports rfl
  · exact honest_refusal hreports rfl

theorem internalStoreChunks_honest (documentId : Uuid) (chunks : List NewChunk) :
    (internalStoreChunks documentId chunks).Obeys failing Honest (calm route found) := by
  refine (onKnowledge_obeys (storeChunks_reports documentId chunks)).bind ?_
  rintro later (e | _) hreports
  · cases e with
    | documentNotFound => exact honest_refusal hreports rfl
    | invalid e => exact honest_failure hreports rfl
    | jobNotFound => exact honest_failure hreports rfl
    | infrastructure e => exact honest_failure hreports rfl
  · exact honest_refusal hreports rfl

theorem internalDocumentFailure_honest {id : Extracted Uuid} {error : Extracted String}
    (documentId : Uuid) (message : String) :
    (internalDocumentFailure documentId message).Obeys failing Honest
      (calm (.internalDocumentFailure id error) found) := by
  refine (onKnowledge_obeys (markFailed_reports documentId message)).bind ?_
  rintro later (e | _) hreports
  · exact honest_failure hreports rfl
  · exact honest_refusal hreports rfl

theorem internalRetrieve_honest (body : RetrieveRequest) :
    (internalRetrieve body).Obeys failing Honest (calm route found) := by
  refine (Program.inl_obeys (retrieveForJob_reports body.embedding body.k)).bind ?_
  rintro later (e | chunks) hreports
  · cases e with
    | jobNotFound => exact honest_refusal hreports rfl
    | invalid e => exact honest_failure hreports rfl
    | documentNotFound => exact honest_failure hreports rfl
    | infrastructure e => exact honest_failure hreports rfl
  · exact honest_refusal hreports rfl

theorem register_honest (body : Account.Credentials) :
    (register state body).Obeys failing Honest (calm route found) := by
  refine (onAccount_obeys (register_reports _ _ _)).bind ?_
  rintro later (e | user) hreports
  · cases e with
    | infrastructure e => exact honest_failure hreports rfl
    | emailTaken => exact honest_refusal hreports rfl
    | invalidEmail => exact honest_refusal hreports rfl
    | passwordTooShort => exact honest_refusal hreports rfl
  · exact honest_refusal hreports rfl

theorem login_honest {part : Extracted Account.Credentials} (headers : HeaderMap)
    (body : Account.Credentials) :
    (login state headers body).Obeys failing Honest (calm (.login part) found) := by
  unfold login
  simp only [askHttp, Program.call_bind, Program.done_bind, Program.obeys_call]
  refine ⟨trivial, fun allowed => ?_⟩
  show Program.Obeys _ _ (calm (.login part) found) _
  cases allowed with
  | false =>
      refine (recordSecurityEvent_reports _ _ _ _).bind ?_
      exact fun _ _ h => honest_refusal h rfl
  | true =>
      refine (onSession_reports (login_reports _ _ _ _)).bind ?_
      rintro later (e | tokens) hreports
      · cases e with
        | invalidCredentials =>
            refine (recordSecurityEvent_reports _ _ _ _).bind ?_
            exact fun _ _ h => honest_refusal (h.trans hreports) rfl
        | infrastructure e => exact honest_failure hreports rfl
      · exact honest_refusal hreports rfl

theorem refresh_honest (headers : HeaderMap) :
    (refresh state headers).Obeys failing Honest (calm .refresh found) := by
  unfold refresh
  cases readRefreshCookie headers with
  | none => exact honest_refusal rfl rfl
  | some presented =>
      refine (onSession_reports (rotate_reports _ _ _)).bind ?_
      rintro later (e | tokens) hreports
      · cases e with
        | invalidToken => exact honest_refusal hreports rfl
        | infrastructure e => exact honest_failure hreports rfl
      · exact honest_refusal hreports rfl

theorem logout_honest (headers : HeaderMap) :
    (logout state headers).Obeys failing Honest (calm .logout found) := by
  unfold logout
  cases readRefreshCookie headers with
  | none => exact honest_refusal rfl rfl
  | some presented =>
      exact (onSession_reports (revoke_reports _ _)).bind fun _ _ h => honest_refusal h rfl

end Handlers

section Serve

variable {state : AppState} {request : Request} {route : Route} {found : Bool} {α : Type}

theorem extracted_honest {part : Extracted α} {handler : α → Program GatewayPorts Response}
    (h : ∀ value, (handler value).Obeys failing Honest (calm route found)) :
    (extracted part handler).Obeys failing Honest (calm route found) := by
  cases part with
  | error rejection =>
      exact honest_refusal rfl (decide_eq_true rejection.refuses.2)
  | ok value => exact h value

theorem rateLimit_honest {scope : LimiterScope} {next : Program GatewayPorts Response}
    (h : next.Obeys failing Honest (calm route found)) :
    (rateLimit scope request next).Obeys failing Honest (calm route found) := by
  refine ⟨trivial, fun allowed => ?_⟩
  cases allowed with
  | false => exact honest_refusal rfl rfl
  | true => exact h

theorem api_honest {handler : Uuid → Program GatewayPorts Response}
    (h : ∀ userId, (handler userId).Obeys failing Honest (calm route found)) :
    (rateLimit .api request (authUser request.headers handler)).Obeys failing Honest
      (calm route found) := by
  refine rateLimit_honest ?_
  unfold authUser
  cases bearer request.headers with
  | none => exact honest_refusal rfl rfl
  | some token =>
      refine ⟨trivial, fun verified => ?_⟩
      cases verified with
      | none => exact honest_refusal rfl rfl
      | some userId => exact h userId

theorem internal_honest {handler : Program GatewayPorts Response}
    (h : handler.Obeys failing Honest (calm route found)) (headers : HeaderMap) :
    (internal state headers handler).Obeys failing Honest (calm route found) := by
  unfold internal
  split
  · exact h
  · exact honest_refusal rfl rfl

theorem keeps_route {p : Program GatewayPorts α} {post : Progress → α → Prop}
    (h : p.Obeys failing post (calm route found)) :
    p.Obeys failing (fun later value => later.route = route ∧ post later value)
      (calm route found) :=
  h.keeps (fun later => later.route = route) (fun later _ (h : later.route = route) => h) rfl

theorem told {p : Program GatewayPorts Response}
    (hroute : ∀ id question, route ≠ .internalQuestion (.ok id) (.ok question))
    (h : p.Obeys failing Honest (calm route found)) : p.Obeys failing Told (calm route found) := by
  refine (keeps_route h).mono ?_
  rintro later response ⟨hlater, hhonest⟩
  refine hhonest.trans (or_iff_left ?_).symm
  rintro ⟨-, id, question, hquestion, -⟩
  exact hroute id question (hlater.symm.trans hquestion)

theorem question_told (id : Uuid) (question : String) :
    (internalQuestion id question).Obeys failing Told
      (calm (.internalQuestion (.ok id) (.ok question)) false) := by
  refine Program.Obeys.bind (keeps_route (onJobs_obeys (requestInput_reports question))) ?_
  rintro later (e | _) ⟨hroute, hreports⟩
  · cases e with
    | jobNotFound =>
        refine iff_of_false (of_decide_eq_false rfl) ?_
        rintro (h | ⟨h, -⟩)
        · rw [hreports.1] at h
          cases h
        · rw [hreports.2] at h
          cases h
    | infrastructure e =>
        refine iff_of_true (of_decide_eq_true rfl) ?_
        rcases hreports with h | ⟨-, hfound, hempty⟩
        · exact Or.inl h
        · exact Or.inr ⟨hfound, id, question, hroute, hempty⟩
  · refine iff_of_false (of_decide_eq_false rfl) ?_
    rintro (h | ⟨-, other, text, h, hempty⟩)
    · rw [hreports.1] at h
      cases h
    · cases hroute.symm.trans h
      rw [hreports.2] at hempty
      cases hempty

theorem serve_told (state : AppState) (request : Request) :
    (serve state request).Obeys failing Told (calm request.route false) := by
  obtain ⟨headers, peer, route⟩ := request
  cases route with
  | internalQuestion id question =>
      cases id with
      | error rejection =>
          exact told nofun (honest_refusal rfl (decide_eq_true rejection.refuses.2))
      | ok id =>
          cases question with
          | error rejection =>
              exact told nofun (honest_refusal rfl (decide_eq_true rejection.refuses.2))
          | ok question =>
              show (internal state headers (internalQuestion id question)).Obeys _ _ _
              unfold internal
              split
              · exact question_told id question
              · refine iff_of_false (by decide) ?_
                rintro (h | ⟨h, -⟩) <;> cases h
  | readyz =>
      refine told nofun ⟨trivial, fun ready => ?_⟩
      cases ready with
      | true => exact honest_refusal rfl rfl
      | false => exact honest_failure rfl rfl
  | register body => exact told nofun (rateLimit_honest (extracted_honest register_honest))
  | login body => exact told nofun (rateLimit_honest (extracted_honest (login_honest headers)))
  | refresh => exact told nofun (rateLimit_honest (refresh_honest headers))
  | logout => exact told nofun (rateLimit_honest (logout_honest headers))
  | createSearch body =>
      exact told nofun (api_honest fun _ => extracted_honest (createSearch_honest headers))
  | listSearches => exact told nofun (api_honest fun _ => listSearches_honest)
  | getSearch id => exact told nofun (api_honest fun _ => extracted_honest fun _ => getSearch_honest)
  | answerSearch id answer =>
      exact told nofun (api_honest fun _ => extracted_honest fun _ =>
        extracted_honest answerSearch_honest)
  | searchEvents id polls =>
      exact told nofun (api_honest fun _ => extracted_honest fun _ => searchEvents_honest polls)
  | createRecurring body =>
      exact told nofun (api_honest fun _ => extracted_honest createRecurring_honest)
  | listRecurring => exact told nofun (api_honest fun _ => listRecurring_honest)
  | deleteRecurring id =>
      exact told nofun (api_honest fun _ => extracted_honest deleteRecurring_honest)
  | getProfile => exact told nofun (api_honest fun _ => getProfile_honest)
  | deleteAccount => exact told nofun (api_honest fun _ => deleteAccount_honest)
  | createChannel body =>
      exact told nofun (api_honest fun _ => extracted_honest createChannel_honest)
  | deleteChannel id =>
      exact told nofun (api_honest fun _ => extracted_honest deleteChannel_honest)
  | createDocument body =>
      exact told nofun (api_honest fun _ => extracted_honest createDocument_honest)
  | listDocuments => exact told nofun (api_honest fun _ => listDocuments_honest)
  | deleteDocument id =>
      exact told nofun (api_honest fun _ => extracted_honest deleteDocument_honest)
  | internalStarted id =>
      exact told nofun (extracted_honest fun _ =>
        internal_honest (ingested_honest start_reports) headers)
  | internalResults id results =>
      exact told nofun (extracted_honest fun _ => extracted_honest fun results =>
        internal_honest (ingested_honest (complete_reports results)) headers)
  | internalStep id step =>
      exact told nofun (extracted_honest fun _ => extracted_honest fun step =>
        internal_honest (ingested_honest (recordStep_reports step)) headers)
  | internalUsage id usage =>
      exact told nofun (extracted_honest fun _ => extracted_honest fun usage =>
        internal_honest (ingested_honest (recordUsage_reports usage)) headers)
  | internalFailure id error =>
      exact told nofun (extracted_honest fun _ => extracted_honest fun error =>
        internal_honest (ingested_honest (fail_reports error)) headers)
  | internalStoreChunks id chunks =>
      exact told nofun (extracted_honest fun id => extracted_honest fun chunks =>
        internal_honest (internalStoreChunks_honest id chunks) headers)
  | internalDocumentFailure id error =>
      exact told nofun (extracted_honest fun id => extracted_honest fun error =>
        internal_honest (internalDocumentFailure_honest id error) headers)
  | internalRetrieve body =>
      exact told nofun (extracted_honest fun body =>
        internal_honest (internalRetrieve_honest body) headers)

end Serve

-- Whatever answers, and whatever the order of the calls of the requests in flight: a
-- request is answered with a server error when and only when a call that it needs has
-- failed, or it is a worker's question without a text for a job that is there.
theorem failures_told {σ ι : Type} [DecidableEq ι] (state : AppState)
    (handler : Handler GatewayPorts σ) (store : σ) (requests : ι → Request) (schedule : List ι) :
    let c := (gatewayRuns state store requests).run handler schedule
    ∀ i, (c.threads i).rest.Stops
      (Told (failing.after (calm (requests i).route false) (c.threads i).past)) := by
  intro c i
  have hstart : (gatewayRuns state store requests).Obeys failing (fun _ => Told)
      fun i => calm (requests i).route false :=
    Config.obeys_start (fun i => serve_told state (requests i)) store
  exact ((hstart.conforms (fun _ => trivial) handler schedule).1 i).stops

end AgentBoilerplate.Http
