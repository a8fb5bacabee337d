import AgentBoilerplate.Job.Lemmas
import AgentBoilerplate.Tenancy

namespace AgentBoilerplate.Tenancy

open Effects Collections Job Knowledge Deletion Profile Fallible

namespace Tenant

-- What the user is shown of a job that was looked up.
def shown (tenant : Tenant) (found : Except PortError (Option ResearchJob)) :
    Except PortError (Option ResearchJob) :=
  found.map fun found => found.filter fun job => tenant.is job.userId

-- A side writes its own records only. Any job may be looked up: it is for the
-- caller not to look behind what the user is shown.
def jobBoundary (tenant : Tenant) : Boundary JobPorts where
  allowed side
    | .insert job | .update job => tenant.JobOf side job
    | .find _ => True
    | .countCreatedSince userId _ | .listChannels userId => tenant.is userId = side
    | .storeResults jobId _ | .appendStep jobId _ | .clearSteps jobId | .addUsage jobId _ =>
        tenant.owned jobId = side
    | .recentUrlsForRecurring id _ | .findRecurring id => tenant.owned id = side
    | .listUnfinishedOlderThan _ | .listDue _ | .markRan _ _ => False
    | .sendDigest _ _ | .notify _ _ | .dispatch _ _ | .utcNow | .newUuid => True
  admits side
    | .find id, answer => ∀ job, answer = .ok (some job) →
        job.id = id ∧ tenant.JobOf (tenant.is job.userId) job
    | .findRecurring _, answer => ∀ search, answer = .ok (some search) → tenant.is search.userId = side
    | .newUuid, id => tenant.owned id = side
    | _, _ => True
  alike
    | .find id, answer, answer' =>
        tenant.shown answer = tenant.shown answer' ∧ (tenant.owned id = true → answer = answer')
    | _, answer, answer' => answer = answer'

def queryBoundary (tenant : Tenant) : Boundary QueryPorts where
  allowed side
    | .listForUser userId => tenant.is userId = side
    | .resultsFor jobId | .stepsFor jobId => tenant.owned jobId = side
    | .instant | .sleep _ | .update _ => True
  admits _ _ _ := True
  alike _ answer answer' := answer = answer'

def knowledgeBoundary (tenant : Tenant) : Boundary KnowledgePorts where
  allowed side
    | .insert document => tenant.Holds side document.userId document.id
    | .storeChunks document _ => tenant.Holds side document.userId document.id
    | .listForUser userId | .delete userId _ | .retrieve userId _ _ | .deleteAllForUser userId =>
        tenant.is userId = side
    | .find id | .markFailed id _ => tenant.owned id = side
    | .dispatchEmbed _ _ _ | .utcNow | .newUuid => True
  admits side
    | .find _, answer => ∀ document, answer = .ok (some document) →
        tenant.Holds side document.userId document.id
    | .newUuid, id => tenant.owned id = side
    | _, _ => True
  alike _ answer answer' := answer = answer'

def deletionBoundary (tenant : Tenant) : Boundary DeletionPorts where
  allowed side
    | .recurring userId | .jobs userId | .refreshTokens userId | .channels userId
    | .documents userId | .user userId => tenant.is userId = side
  admits _ _ _ := True
  alike _ answer answer' := answer = answer'

def profileBoundary (tenant : Tenant) : Boundary ProfilePorts where
  allowed side
    | .insertChannel channel => tenant.Holds side channel.userId channel.id
    | .insertSearch search => tenant.Holds side search.userId search.id
    | .findUser userId | .listChannels userId | .deleteChannel userId _ | .listSearches userId
    | .deleteSearch userId _ => tenant.is userId = side
    | .utcNow | .newUuid => True
  admits side
    | .newUuid, id => tenant.owned id = side
    | _, _ => True
  alike _ answer answer' := answer = answer'

def boundary (tenant : Tenant) : Boundary TenantPorts :=
  (tenant.jobBoundary.sum tenant.queryBoundary).sum
    (tenant.knowledgeBoundary.sum (tenant.deletionBoundary.sum tenant.profileBoundary))

end Tenant

variable {tenant : Tenant} {side : Bool} {ε α : Type}

-- A program that ends the same for a job of another user and for no job does
-- not look behind what it is shown.
theorem next_of_shown {next : Except PortError (Option ResearchJob) → α}
    (hother : ∀ job, tenant.is job.userId = false → next (.ok (some job)) = next (.ok none))
    {answer answer' : Except PortError (Option ResearchJob)}
    (h : tenant.shown answer = tenant.shown answer') : next answer = next answer' := by
  have hnext : ∀ answer, next (tenant.shown answer) = next answer := by
    intro answer
    rcases answer with e | _ | job
    · rfl
    · rfl
    · by_cases hjob : tenant.is job.userId = true
      · have hshown : tenant.shown (.ok (some job)) = .ok (some job) := by
          simp [Tenant.shown, Except.map, Option.filter, hjob]
        rw [hshown]
      · have hshown : tenant.shown (.ok (some job)) = .ok none := by
          simp [Tenant.shown, Except.map, Option.filter, hjob]
        rw [hshown, hother job (Bool.eq_false_iff.mpr hjob)]
  rw [← hnext answer, h, hnext]

theorem Tenant.JobOf.apply {job : ResearchJob} (h : tenant.JobOf side job) (call : Transition) :
    tenant.JobOf side (job.apply call).2 := by
  have hidentity := ResearchJob.apply_identity job call
  simp only [ResearchJob.identity, Prod.mk.injEq] at hidentity
  obtain ⟨hid, huserId, -, -, hlink, -⟩ := hidentity
  unfold Tenant.JobOf
  rw [hid, huserId, hlink]
  exact h

theorem Tenant.JobOf.apart {job : ResearchJob} (h : tenant.JobOf (tenant.is job.userId) job)
    (hid : tenant.owned job.id = side) : tenant.JobOf side job := by
  rw [h.1.2] at hid
  rwa [hid] at h

section Jobs

abbrev JobsConfined (tenant : Tenant) (side : Bool) (x : Job.UseCase ε α) : Prop :=
  Fallible.Confined tenant.jobBoundary side (fun _ => True) x

-- A call whose answer is shown as it is.
def plain : JobCall → Prop
  | .find _ => False
  | _ => True

theorem askJob_confined (request : JobCall) (hplain : plain request)
    (hallowed : tenant.jobBoundary.allowed side request) :
    (Job.ask request).Confined tenant.jobBoundary side (tenant.jobBoundary.admits side request) := by
  refine Program.confined_call hallowed fun _ answer answer' halike => ?_
  cases request with
  | find id => exact hplain.elim
  | _ => exact halike

theorem lookup_confined {jobId : Uuid} (h : tenant.owned jobId = side) :
    (Job.ask (.find jobId)).Confined tenant.jobBoundary side
      (tenant.jobBoundary.admits side (.find jobId)) :=
  Program.confined_call trivial fun hside _ _ halike => halike.2 (h.trans hside)

theorem findJob_confined {jobId : Uuid} (h : tenant.owned jobId = side) :
    Fallible.Confined tenant.jobBoundary side (fun job => job.id = jobId ∧ tenant.JobOf side job)
      (IngestResults.findJob jobId) := by
  have hfound : Fallible.Confined tenant.jobBoundary side
      (fun found => ∀ job, found = some job → job.id = jobId ∧ tenant.JobOf side job)
      (orFail IngestError.infrastructure (Job.ask (.find jobId))) := by
    refine confined_orFail ((lookup_confined h).mono fun answer hadmits found heq job hjob => ?_)
    obtain ⟨hid, hof⟩ := hadmits job (by rw [heq, hjob])
    exact ⟨hid, hof.apart (by rw [hid, h])⟩
  refine hfound.bind fun found hfound => ?_
  cases found with
  | none => exact confined_throw _
  | some job => exact confined_pure (hfound job rfl)

theorem update_confined {wrap : PortError → ε} {job : ResearchJob} (h : tenant.JobOf side job) :
    JobsConfined tenant side (orFail wrap (Job.ask (.update job))) :=
  confined_attempt (askJob_confined (.update job) trivial h)

theorem failNow_confined {job : ResearchJob} (h : tenant.JobOf side job) (error : String) :
    (job.failNow error).Confined tenant.jobBoundary side (tenant.JobOf side) := by
  unfold ResearchJob.failNow
  split
  · exact .done h
  · exact (askJob_confined .utcNow trivial trivial).bind fun clock _ =>
      .done (h.apply (.fail clock error))

theorem Tenant.JobOf.new {id userId : Uuid} {clock : Int} {keyword : String} {job : ResearchJob}
    (hid : tenant.owned id = side) (huser : tenant.is userId = side)
    (h : ResearchJob.new id clock userId keyword = .ok job) : tenant.JobOf side job := by
  unfold ResearchJob.new at h
  dsimp only at h
  split at h
  · cases h
  · split at h
    · cases h
    · cases h
      exact ⟨⟨huser, hid⟩, fun rsId hrsId => by cases hrsId⟩

theorem newNow_confined {userId : Uuid} (h : tenant.is userId = side) (keyword : String) :
    (ResearchJob.newNow userId keyword).Confined tenant.jobBoundary side fun result =>
      ∀ job, result = .ok job → tenant.JobOf side job := by
  unfold ResearchJob.newNow
  split_ifs
  · exact .done fun job heq => by cases heq
  · exact .done fun job heq => by cases heq
  · refine (askJob_confined .newUuid trivial trivial).bind fun id hid =>
      (askJob_confined .utcNow trivial trivial).bind fun clock _ => ?_
    exact .done fun job heq => Tenant.JobOf.new hid h heq

theorem dispatchOrFail_confined (infrastructure : PortError → ε) (dispatchFailed : ε)
    {job : ResearchJob} (h : tenant.JobOf side job) (seenUrls : List String) :
    JobsConfined tenant side (dispatchOrFail infrastructure dispatchFailed job seenUrls) := by
  refine (confined_lift (askJob_confined (.dispatch job seenUrls) trivial trivial)).bind
    fun dispatched _ => ?_
  cases dispatched with
  | ok _ => exact confined_pure trivial
  | error e =>
      exact (confined_lift (failNow_confined h _)).bind fun failed hfailed =>
        (update_confined hfailed).bind fun _ _ => confined_throw _

theorem launchSearch_confined (dailyQuota : Nat) {userId : Uuid} (h : tenant.is userId = side)
    (keyword : String) (mode : JobMode) :
    JobsConfined tenant side (launchSearch dailyQuota userId keyword mode) := by
  refine (confined_lift (askJob_confined .utcNow trivial trivial)).bind fun now _ =>
    (confined_attempt (askJob_confined (.countCreatedSince userId _) trivial h)).bind
      fun used _ => ?_
  split
  · exact confined_throw _
  · refine (confined_orFail (newNow_confined h keyword)).bind fun job hjob => ?_
    have hinsert : tenant.JobOf side (job.withMode mode) := hjob
    exact (confined_attempt (askJob_confined (.insert (job.withMode mode)) trivial hinsert)).bind
      fun _ _ => dispatchOrFail_confined _ _ hinsert []

theorem notifyAll_confined (digest : Digest) (channels : List NotificationChannel) :
    (IngestResults.notifyAll digest channels).Confined tenant.jobBoundary side fun _ => True := by
  induction channels with
  | nil => exact .done trivial
  | cons channel channels ih =>
      exact (askJob_confined (.notify channel digest) trivial trivial).bind fun _ _ => ih

theorem notifyChannels_confined {userId : Uuid} (h : tenant.is userId = side) (digest : Digest) :
    (IngestResults.notifyChannels userId digest).Confined tenant.jobBoundary side fun _ => True := by
  refine (askJob_confined (.listChannels userId) trivial h).bind fun channels _ => ?_
  cases channels with
  | error e => exact .done trivial
  | ok channels => exact notifyAll_confined digest channels

theorem maybeSendDigest_confined {job : ResearchJob} (h : tenant.JobOf side job)
    (results : List SearchResult) :
    (IngestResults.maybeSendDigest job results).Confined tenant.jobBoundary side fun _ => True := by
  unfold IngestResults.maybeSendDigest
  cases hlink : job.recurringSearchId with
  | none => exact .done trivial
  | some rsId =>
      dsimp only
      split
      · exact .done trivial
      refine (askJob_confined (.findRecurring rsId) trivial (h.2 rsId hlink)).bind
        fun found hfound => ?_
      rcases found with e | _ | search
      · exact .done trivial
      · exact .done trivial
      have huser : tenant.is search.userId = side := hfound search rfl
      dsimp only
      cases search.webhookUrl with
      | none => exact notifyChannels_confined huser _
      | some url =>
          exact (askJob_confined (.sendDigest url _) trivial trivial).bind fun _ _ =>
            notifyChannels_confined huser _

theorem start_confined {jobId : Uuid} (h : tenant.owned jobId = side) :
    JobsConfined tenant side (IngestResults.start jobId) :=
  (findJob_confined h).bind fun _ hjob => update_confined (hjob.2.apply .start)

theorem complete_confined {jobId : Uuid} (h : tenant.owned jobId = side)
    (results : List SearchResult) :
    JobsConfined tenant side (IngestResults.complete jobId results) := by
  refine (findJob_confined h).bind fun job hjob =>
    (confined_attempt (askJob_confined (.storeResults jobId results) trivial h)).bind fun _ _ => ?_
  have hcomplete : job.completeNow.Confined tenant.jobBoundary side (tenant.JobOf side) :=
    (askJob_confined .utcNow trivial trivial).bind fun clock _ => .done (hjob.2.apply (.complete clock))
  exact (confined_lift hcomplete).bind fun completed hcompleted =>
    (update_confined hcompleted).bind fun _ _ =>
      confined_lift (maybeSendDigest_confined hcompleted results)

theorem recordStep_confined {jobId : Uuid} (h : tenant.owned jobId = side) (step : AgentStep) :
    JobsConfined tenant side (IngestResults.recordStep jobId step) :=
  (findJob_confined h).bind fun _ _ =>
    confined_attempt (askJob_confined (.appendStep jobId step) trivial h)

theorem requestInput_confined {jobId : Uuid} (h : tenant.owned jobId = side) (question : String) :
    JobsConfined tenant side (IngestResults.requestInput jobId question) := by
  refine (findJob_confined h).bind fun job hjob => ?_
  have hasked : tenant.JobOf side (job.requestInput question).2 :=
    hjob.2.apply (.requestInput question)
  generalize job.requestInput question = requested at hasked ⊢
  rcases requested with ⟨e | _, asked⟩
  · exact confined_throw _
  · exact update_confined hasked

theorem recordUsage_confined {jobId : Uuid} (h : tenant.owned jobId = side) (usage : JobUsage) :
    JobsConfined tenant side (IngestResults.recordUsage jobId usage) :=
  (findJob_confined h).bind fun _ _ =>
    confined_attempt (askJob_confined (.addUsage jobId usage) trivial h)

theorem fail_confined {jobId : Uuid} (h : tenant.owned jobId = side) (error : String) :
    JobsConfined tenant side (IngestResults.fail jobId error) := by
  refine (findJob_confined h).bind fun job hjob => ?_
  refine (confined_lift (failNow_confined hjob.2 error)).bind fun failed hfailed => ?_
  exact update_confined hfailed

-- What follows a lookup that any identifier may be given to.
theorem found_blind {I : Interface} {wrap : PortError → ε}
    {next : Option ResearchJob → Fallible I ε α}
    (hother : ∀ job, tenant.is job.userId = false → next (some job) = next none)
    {answer answer' : Except PortError (Option ResearchJob)}
    (h : tenant.shown answer = tenant.shown answer') :
    ((orFail wrap (.done answer) : Fallible I ε (Option ResearchJob)) >>= next).run =
      ((orFail wrap (.done answer') : Fallible I ε (Option ResearchJob)) >>= next).run := by
  refine @next_of_shown tenant _ (fun answer => (orFail wrap (.done answer) >>= next).run)
    (fun job hjob => ?_) answer answer' h
  exact congrArg ExceptT.run (hother job hjob)

theorem found_confined {I : Interface} {b : Boundary I} {wrap : PortError → ε} {post : α → Prop}
    {next : Option ResearchJob → Fallible I ε α} {answer : Except PortError (Option ResearchJob)}
    (h : ∀ found, answer = .ok found → Fallible.Confined b side post (next found)) :
    Fallible.Confined b side post (orFail wrap (.done answer) >>= next) := by
  cases answer with
  | error e => exact confined_throw (wrap e)
  | ok found => exact h found rfl

theorem find_bind_confined (jobId : Uuid) {wrap : PortError → ε} {post : α → Prop}
    {next : Option ResearchJob → Job.UseCase ε α}
    (hother : side = true → ∀ job, tenant.is job.userId = false → next (some job) = next none)
    (hnext : ∀ found, (∀ job, found = some job →
      job.id = jobId ∧ tenant.JobOf (tenant.is job.userId) job) →
        Fallible.Confined tenant.jobBoundary side post (next found)) :
    Fallible.Confined tenant.jobBoundary side post (orFail wrap (Job.ask (.find jobId)) >>= next) := by
  refine .call trivial (fun hside answer answer' halike => found_blind (hother hside) halike.1)
    fun answer hadmits => ?_
  refine found_confined fun found heq => hnext found fun job hjob => ?_
  exact hadmits job (by rw [heq, hjob])

theorem answerClarification_confined {userId : Uuid} (h : tenant.is userId = side) (jobId : Uuid)
    (text : String) : JobsConfined tenant side (answerClarification userId jobId text) := by
  refine find_bind_confined jobId (fun hside job hjob => ?_) fun found hfound => ?_
  · have hne : ¬ job.userId = userId := by
      rintro heq
      rw [heq, h, hside] at hjob
      cases hjob
    have hfilter : (some job).filter (fun job => job.userId = userId) = none := by
      simp [Option.filter, hne]
    rw [hfilter]
    rfl
  · cases found with
    | none => exact confined_throw _
    | some job =>
      by_cases huser : job.userId = userId
      · have hfilter : (some job).filter (fun job => job.userId = userId) = some job := by
          simp [Option.filter, huser]
        rw [hfilter]
        dsimp only
        obtain ⟨hid, hof⟩ := hfound job rfl
        rw [huser, h] at hof
        have hanswered : tenant.JobOf side (job.provideAnswer text).2 :=
          hof.apply (.provideAnswer text)
        generalize job.provideAnswer text = provided at hanswered ⊢
        rcases provided with ⟨e | _, answered⟩
        · exact confined_throw _
        have hjobId : tenant.owned jobId = side := by rw [← hid, hof.1.2]
        refine (confined_attempt (askJob_confined (.clearSteps jobId) trivial hjobId)).bind fun _ _ =>
          (update_confined hanswered).bind fun _ _ => ?_
        cases hlink : answered.recurringSearchId with
        | none => exact dispatchOrFail_confined _ _ hanswered []
        | some rsId =>
            have hrsId := hanswered.2 rsId hlink
            have hrecent := askJob_confined (.recentUrlsForRecurring rsId 200) trivial hrsId
            exact (confined_attempt hrecent).bind fun seenUrls _ =>
              dispatchOrFail_confined _ _ hanswered seenUrls
      · have hfilter : (some job).filter (fun job => job.userId = userId) = none := by
          simp [Option.filter, huser]
        rw [hfilter]
        exact confined_throw _

theorem jobOp_confined (config : JobConfig) {op : JobOp} (h : JobOp.Of tenant side op) :
    (op.program config).Confined tenant.jobBoundary side fun _ => True := by
  cases op with
  | launch userId keyword mode =>
      exact (launchSearch_confined config.dailyQuota h keyword mode).outcome _
  | runDue => exact h.elim
  | start jobId => exact (start_confined h).outcome _
  | complete jobId results => exact (complete_confined h results).outcome _
  | recordStep jobId step => exact (recordStep_confined h step).outcome _
  | requestInput jobId question =>
      exact (requestInput_confined h question).outcome _
  | recordUsage jobId usage => exact (recordUsage_confined h usage).outcome _
  | fail jobId error => exact (fail_confined h error).outcome _
  | answer userId jobId text =>
      exact (answerClarification_confined h jobId text).outcome _
  | failStale => exact h.elim

end Jobs

section Queries

theorem query_confined (request : QueryCall) (h : tenant.queryBoundary.allowed side request) :
    (query request).Confined (tenant.jobBoundary.sum tenant.queryBoundary) side fun _ => True :=
  (Program.confined_call h fun _ _ _ halike => halike).inr

theorem list_confined {userId : Uuid} (h : tenant.is userId = side) :
    Fallible.Confined (tenant.jobBoundary.sum tenant.queryBoundary) side (fun _ => True)
      (SearchQueries.list userId) :=
  confined_attempt (query_confined (.listForUser userId) h)

theorem get_confined {userId : Uuid} (h : tenant.is userId = side) (jobId : Uuid) :
    Fallible.Confined (tenant.jobBoundary.sum tenant.queryBoundary) side (fun _ => True)
      (SearchQueries.get userId jobId) := by
  refine .call trivial (fun hside answer answer' halike => found_blind ?_ halike.1)
    fun answer hadmits => found_confined fun found heq => ?_
  · intro job hjob
    have hne : job.userId ≠ userId := by
      rintro rfl
      rw [h, hside] at hjob
      cases hjob
    dsimp only
    rw [if_pos hne]
  · cases found with
    | none => exact confined_pure trivial
    | some job =>
      dsimp only
      split
      · exact confined_pure trivial
      · rename_i hsame
        obtain ⟨hid, hof⟩ := hadmits job heq
        rw [not_not.mp hsame, h] at hof
        have howned : tenant.owned jobId = side := by rw [← hid, hof.1.2]
        exact (confined_attempt (query_confined (.resultsFor jobId) howned)).bind fun _ _ =>
          (confined_attempt (query_confined (.stepsFor jobId) howned)).bind fun _ _ =>
            confined_pure trivial

end Queries

section Documents

theorem askKnowledge_confined (request : KnowledgeCall)
    (h : tenant.knowledgeBoundary.allowed side request) :
    (Knowledge.ask request).Confined tenant.knowledgeBoundary side
      (tenant.knowledgeBoundary.admits side request) :=
  Program.confined_call h fun _ _ _ halike => halike

theorem newDocument_confined {userId : Uuid} (h : tenant.is userId = side) (name : String) :
    (Document.new userId name).Confined tenant.knowledgeBoundary side fun result =>
      ∀ document, result = .ok document → tenant.Holds side document.userId document.id := by
  unfold Document.new
  dsimp only
  split_ifs
  · exact .done fun document heq => by cases heq
  · exact .done fun document heq => by cases heq
  · refine (askKnowledge_confined .newUuid trivial).bind fun id hid =>
      (askKnowledge_confined .utcNow trivial).bind fun now _ => .done fun document heq => ?_
    cases heq
    exact ⟨h, hid⟩

theorem upload_confined {userId : Uuid} (h : tenant.is userId = side) (name content : String) :
    Fallible.Confined tenant.knowledgeBoundary side (fun _ => True)
      (Knowledge.upload userId name content) := by
  have hvalid : Fallible.Confined tenant.knowledgeBoundary side (fun _ => True)
      (orFail KnowledgeError.invalid (pure (validateContent content))) :=
    confined_orFail (.done fun _ _ => trivial)
  refine hvalid.bind fun _ _ =>
    (confined_orFail (newDocument_confined h name)).bind fun document hdocument => ?_
  refine (confined_attempt (askKnowledge_confined (.insert document) hdocument)).bind fun _ _ =>
    (confined_lift (askKnowledge_confined (.dispatchEmbed _ _ _) trivial)).bind fun dispatched _ => ?_
  cases dispatched with
  | ok _ => exact confined_pure trivial
  | error e =>
      exact (confined_lift (askKnowledge_confined (.markFailed document.id _) hdocument.2)).bind
        fun _ _ => confined_pure trivial

theorem storeChunks_confined {documentId : Uuid} (h : tenant.owned documentId = side)
    (batch : List NewChunk) :
    Fallible.Confined tenant.knowledgeBoundary side (fun _ => True)
      (Knowledge.storeChunks documentId batch) := by
  have hfound : Fallible.Confined tenant.knowledgeBoundary side
      (fun found => ∀ document, found = some document →
        tenant.Holds side document.userId document.id)
      (orFail KnowledgeError.infrastructure (Knowledge.ask (.find documentId))) := by
    refine confined_orFail ((askKnowledge_confined (.find documentId) h).mono ?_)
    exact fun answer hadmits found heq document hsome => hadmits document (by rw [heq, hsome])
  refine hfound.bind fun found hfound => ?_
  cases found with
  | none => exact confined_throw _
  | some document =>
      exact confined_attempt (askKnowledge_confined (.storeChunks document batch) (hfound document rfl))

theorem knowledgeOp_confined {op : KnowledgeOp} (h : KnowledgeOp.Of tenant side op) :
    op.program.Confined tenant.knowledgeBoundary side fun _ => True := by
  cases op with
  | upload userId name content => exact (upload_confined h name content).outcome _
  | list userId =>
      have hlist : Fallible.Confined tenant.knowledgeBoundary side (fun _ => True)
          (Knowledge.list userId) :=
        confined_attempt (askKnowledge_confined (.listForUser userId) h)
      exact hlist.outcome _
  | delete userId id =>
      have hdelete : Fallible.Confined tenant.knowledgeBoundary side (fun _ => True)
          (Knowledge.delete userId id) :=
        confined_attempt (askKnowledge_confined (.delete userId id) h)
      exact hdelete.outcome _
  | storeChunks documentId batch => exact (storeChunks_confined h batch).outcome _
  | markFailed documentId error =>
      have hmark : Fallible.Confined tenant.knowledgeBoundary side (fun _ => True)
          (Knowledge.markFailed documentId error) :=
        confined_attempt (askKnowledge_confined (.markFailed documentId error) h)
      exact hmark.outcome _

end Documents

section Accounts

theorem deleteAccount_confined {userId : Uuid} (h : tenant.is userId = side) :
    Fallible.Confined tenant.deletionBoundary side (fun _ => True) (Deletion.deleteAccount userId) := by
  have hask : ∀ request : DeletionCall, tenant.deletionBoundary.allowed side request →
      (Deletion.ask request).Confined tenant.deletionBoundary side fun _ => True :=
    fun _ hallowed => Program.confined_call hallowed fun _ _ _ halike => halike
  exact (confined_attempt (hask (.recurring userId) h)).bind fun _ _ =>
    (confined_attempt (hask (.jobs userId) h)).bind fun _ _ =>
      (confined_attempt (hask (.refreshTokens userId) h)).bind fun _ _ =>
        (confined_attempt (hask (.channels userId) h)).bind fun _ _ =>
          (confined_attempt (hask (.documents userId) h)).bind fun _ _ =>
            confined_attempt (hask (.user userId) h)

theorem askProfile_confined (request : ProfileCall)
    (h : tenant.profileBoundary.allowed side request) :
    (Profile.ask request).Confined tenant.profileBoundary side
      (tenant.profileBoundary.admits side request) :=
  Program.confined_call h fun _ _ _ halike => halike

theorem newSearch_confined {userId : Uuid} (h : tenant.is userId = side) (keyword : String)
    (mode : JobMode) (intervalMinutes : Nat) (webhookUrl : Option String) :
    (newSearch userId keyword mode intervalMinutes webhookUrl).Confined tenant.profileBoundary side
      fun result => ∀ search, result = .ok search → tenant.Holds side search.userId search.id := by
  unfold newSearch
  cases checkSearch keyword intervalMinutes webhookUrl with
  | error e => exact .done fun search heq => by cases heq
  | ok webhookUrl =>
      refine (askProfile_confined .newUuid trivial).bind fun id hid =>
        (askProfile_confined .utcNow trivial).bind fun now _ => .done fun search heq => ?_
      cases heq
      exact ⟨h, hid⟩

theorem newChannel_userId {id userId : Uuid} {now : Int} {kind : ChannelKind} {target : String}
    {secret : Option String} {channel : NotificationChannel}
    (h : Notify.newChannel id now userId kind target secret = .ok channel) :
    channel.userId = userId := by
  unfold Notify.newChannel at h
  dsimp only at h
  -- only the last of the checks leaves a channel
  split_ifs at h <;> cases kind <;> cases h <;> rfl

theorem newChannel_confined {userId : Uuid} (h : tenant.is userId = side) (kind : ChannelKind)
    (target : String) (secret : Option String) :
    (newChannel userId kind target secret).Confined tenant.profileBoundary side
      fun result => ∀ channel, result = .ok channel → tenant.Holds side channel.userId channel.id := by
  unfold newChannel
  cases hchecked : Notify.newChannel userId 0 userId kind target secret with
  | error e => exact .done fun channel heq => by cases heq
  | ok checked =>
      refine (askProfile_confined .newUuid trivial).bind fun id hid =>
        (askProfile_confined .utcNow trivial).bind fun now _ => .done fun channel heq => ?_
      cases heq
      refine ⟨?_, hid⟩
      rw [newChannel_userId hchecked]
      exact h

theorem createSearch_confined {userId : Uuid} (h : tenant.is userId = side) (keyword : String)
    (mode : JobMode) (intervalMinutes : Nat) (webhookUrl : Option String) :
    Fallible.Confined tenant.profileBoundary side (fun _ => True)
      (RecurringSearches.create userId keyword mode intervalMinutes webhookUrl) := by
  refine (confined_attempt (askProfile_confined (.listSearches userId) h)).bind fun searches _ => ?_
  split
  · exact confined_throw _
  · exact (confined_orFail (newSearch_confined h keyword mode intervalMinutes webhookUrl)).bind
      fun search hsearch =>
        (confined_attempt (askProfile_confined (.insertSearch search) hsearch)).bind fun _ _ =>
          confined_pure trivial

theorem addChannel_confined (emailEnabled : Bool) {userId : Uuid} (h : tenant.is userId = side)
    (kind : ChannelKind) (target : String) (secret : Option String) :
    Fallible.Confined tenant.profileBoundary side (fun _ => True)
      (addChannel emailEnabled userId kind target secret) := by
  unfold addChannel
  split
  · exact confined_throw _
  · exact (confined_orFail (newChannel_confined h kind target secret)).bind fun channel hchannel =>
      (confined_attempt (askProfile_confined (.insertChannel channel) hchannel)).bind fun _ _ =>
        confined_pure trivial

theorem view_confined {userId : Uuid} (h : tenant.is userId = side) :
    Fallible.Confined tenant.profileBoundary side (fun _ => True) (Profile.view userId) := by
  refine (confined_attempt (askProfile_confined (.findUser userId) h)).bind fun found _ => ?_
  cases found with
  | none => exact confined_throw _
  | some user =>
      exact (confined_attempt (askProfile_confined (.listChannels userId) h)).bind fun _ _ =>
        confined_pure trivial

theorem profileOp_confined (emailEnabled : Bool) {op : ProfileOp} (h : ProfileOp.Of tenant side op) :
    (op.program emailEnabled).Confined tenant.profileBoundary side fun _ => True := by
  cases op with
  | createSearch userId keyword mode intervalMinutes webhookUrl =>
      exact (createSearch_confined h keyword mode intervalMinutes webhookUrl).outcome _
  | listSearches userId =>
      have hlist : Fallible.Confined tenant.profileBoundary side (fun _ => True)
          (RecurringSearches.list userId) :=
        confined_attempt (askProfile_confined (.listSearches userId) h)
      exact hlist.outcome _
  | deleteSearch userId id =>
      have hdelete : Fallible.Confined tenant.profileBoundary side (fun _ => True)
          (RecurringSearches.delete userId id) := by
        refine (confined_attempt (askProfile_confined (.deleteSearch userId id) h)).bind
          fun deleted _ => ?_
        cases deleted with
        | true => exact confined_pure trivial
        | false => exact confined_throw _
      exact hdelete.outcome _
  | view userId => exact (view_confined h).outcome _
  | addChannel userId kind target secret =>
      exact (addChannel_confined emailEnabled h kind target secret).outcome _
  | removeChannel userId id =>
      have hremove : Fallible.Confined tenant.profileBoundary side (fun _ => True)
          (Profile.removeChannel userId id) :=
        confined_attempt (askProfile_confined (.deleteChannel userId id) h)
      exact hremove.outcome _

end Accounts

theorem retrieveForJob_confined {jobId : Uuid} (h : tenant.owned jobId = side) (embedding : Embedding)
    (k : Int) : Fallible.Confined tenant.boundary side (fun _ => True)
      (Tenancy.retrieveForJob jobId embedding k) := by
  have hfound : Fallible.Confined tenant.boundary side
      (fun found => ∀ job, found = some job → tenant.is job.userId = side)
      (orFail KnowledgeError.infrastructure (askJobs (.find jobId)).inl) := by
    refine confined_orFail
      ((lookup_confined h).inl.inl.mono fun answer hadmits found heq job hjob => ?_)
    obtain ⟨hid, hof⟩ := hadmits job (by rw [heq, hjob])
    exact (hof.apart (by rw [hid, h])).1.1
  refine hfound.bind fun found hfound => ?_
  cases found with
  | none => exact confined_throw _
  | some job =>
      have hretrieve := askKnowledge_confined (.retrieve job.userId embedding k) (hfound job rfl)
      exact confined_attempt hretrieve.inl.inr

-- Every operation stays on its side.
theorem tenantOp_confined (config : ServiceConfig) {op : TenantOp} (h : TenantOp.Of tenant side op) :
    (op.program config).Confined tenant.boundary side fun _ => True := by
  cases op with
  | job op => exact (jobOp_confined config.jobs h).inl.inl.bind fun _ _ => .done trivial
  | list userId => exact (list_confined h).inl.bind fun _ _ => .done trivial
  | get userId jobId => exact (get_confined h jobId).inl.bind fun _ _ => .done trivial
  | knowledge op => exact (knowledgeOp_confined h).inl.inr.bind fun _ _ => .done trivial
  | retrieveForJob jobId embedding k => exact (retrieveForJob_confined h embedding k).outcome _
  | deleteAccount userId => exact (deleteAccount_confined h).inl.inr.inr.bind fun _ _ => .done trivial
  | profile op =>
      exact (profileOp_confined config.emailEnabled h).inr.inr.inr.bind fun _ _ => .done trivial

theorem given_admits {given : Surroundings TenantPorts} (h : Fresh tenant side given) (n : Nat)
    (request : TenantPorts.Call) (hexternal : external request = true) :
    tenant.boundary.admits side request (given n request) := by
  rcases request with (request | request) | request | request | request
  · cases request with
    | newUuid => exact h.jobs n
    | find id => cases hexternal
    | findRecurring id => cases hexternal
    | _ => trivial
  · trivial
  · cases request with
    | newUuid => exact h.documents n
    | find id => cases hexternal
    | _ => trivial
  · trivial
  · cases request with
    | newUuid => exact h.profile n
    | _ => trivial

theorem thread_confined (config : ServiceConfig) {op : TenantOp} (h : TenantOp.Of tenant side op)
    {given : Surroundings TenantPorts} (hgiven : Fresh tenant side given) :
    (((op.program config).surrounded external given 0).Confined (tenant.boundary.beyond external) side
      fun _ => True) :=
  (tenantOp_confined config h).surrounded (given_admits hgiven) 0

end AgentBoilerplate.Tenancy
