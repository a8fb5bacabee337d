import AgentBoilerplate.Deletion
import AgentBoilerplate.Notify

namespace AgentBoilerplate.Profile

open Effects Collections Job

def minIntervalMinutes : Nat := 1
def maxIntervalMinutes : Nat := 7 * 24 * 60
def maxWebhookUrlLen : Nat := 2048
def maxPerUser : Nat := 20

-- What the management of recurring searches and of a profile asks of its ports
-- and of the clock.
inductive ProfileCall where
  | findUser (id : Uuid)
  | insertChannel (channel : NotificationChannel)
  | listChannels (userId : Uuid)
  | deleteChannel (userId id : Uuid)
  | insertSearch (search : RecurringSearch)
  | listSearches (userId : Uuid)
  | deleteSearch (userId id : Uuid)
  | utcNow
  | newUuid
deriving DecidableEq

@[reducible] def ProfileCall.Answer : ProfileCall → Type
  | .findUser _ => Except PortError (Option Session.User)
  | .insertChannel _ => Except PortError Unit
  | .listChannels _ => Except PortError (List NotificationChannel)
  | .deleteChannel _ _ => Except PortError Bool
  | .insertSearch _ => Except PortError Unit
  | .listSearches _ => Except PortError (List RecurringSearch)
  | .deleteSearch _ _ => Except PortError Bool
  | .utcNow => Int
  | .newUuid => Uuid

@[reducible] def ProfilePorts : Interface := ⟨ProfileCall, ProfileCall.Answer⟩

abbrev UseCase (ε : Type) := Fallible ProfilePorts ε

@[simp] def ask (request : ProfileCall) : Program ProfilePorts request.Answer :=
  .call request .done

-- The webhook of a recurring search: none where its text is blank.
def checkWebhook (webhookUrl : Option String) : Except JobError (Option String) :=
  match (webhookUrl.map trim).filter fun url => ¬ url.isEmpty with
  | none => .ok none
  | some url =>
      if url.length > maxWebhookUrlLen then
        .error .webhookUrlTooLong
      else if "https://".toList.isPrefixOf url.toList ∨ "http://".toList.isPrefixOf url.toList then
        .ok (some url)
      else
        .error .invalidWebhookUrl

-- The checks of `RecurringSearch::new`, which do not look at what it draws.
def checkSearch (keyword : String) (intervalMinutes : Nat) (webhookUrl : Option String) :
    Except JobError (Option String) :=
  if (trim keyword).isEmpty then
    .error .emptyKeyword
  else if (trim keyword).length > maxKeywordLen then
    .error .keywordTooLong
  else if ¬ (minIntervalMinutes ≤ intervalMinutes ∧ intervalMinutes ≤ maxIntervalMinutes) then
    .error .invalidInterval
  else
    checkWebhook webhookUrl

-- `RecurringSearch::new`.
def newSearch (userId : Uuid) (keyword : String) (mode : JobMode) (intervalMinutes : Nat)
    (webhookUrl : Option String) : Program ProfilePorts (Except JobError RecurringSearch) :=
  match checkSearch keyword intervalMinutes webhookUrl with
  | .error e => return .error e
  | .ok webhookUrl => do
      let id ← ask .newUuid
      let now ← ask .utcNow
      return .ok {
        id, userId, mode, intervalMinutes, webhookUrl
        keyword := trim keyword
        createdAt := truncSubsecs6 now
        lastRunAt := none }

-- `NotificationChannel::new`, whose checks do not look at what it draws.
def newChannel (userId : Uuid) (kind : ChannelKind) (target : String) (secret : Option String) :
    Program ProfilePorts (Except Notify.ChannelError NotificationChannel) :=
  match Notify.newChannel userId 0 userId kind target secret with
  | .error e => return .error e
  | .ok channel => do
      let id ← ask .newUuid
      let now ← ask .utcNow
      return .ok { channel with id, createdAt := truncSubsecs6 now }

inductive RecurringError where
  | invalid (e : JobError)
  | notFound
  | tooMany (max : Nat)
  | infrastructure (e : PortError)
deriving DecidableEq, Repr

namespace RecurringSearches

def create (userId : Uuid) (keyword : String) (mode : JobMode) (intervalMinutes : Nat)
    (webhookUrl : Option String) : UseCase RecurringError RecurringSearch := do
  let searches ← orFail .infrastructure (ask (.listSearches userId))
  if searches.length ≥ maxPerUser then
    throw (.tooMany maxPerUser)
  else
    let search ← orFail .invalid (newSearch userId keyword mode intervalMinutes webhookUrl)
    orFail .infrastructure (ask (.insertSearch search))
    return search

def list (userId : Uuid) : UseCase RecurringError (List RecurringSearch) :=
  orFail .infrastructure (ask (.listSearches userId))

def delete (userId id : Uuid) : UseCase RecurringError Unit := do
  let deleted ← orFail .infrastructure (ask (.deleteSearch userId id))
  if deleted then
    return
  else
    throw .notFound

end RecurringSearches

inductive ProfileError where
  | notFound
  | emailNotConfigured
  | invalidChannel (e : Notify.ChannelError)
  | infrastructure (e : PortError)
deriving DecidableEq, Repr

-- `Profile::view`.
def view (userId : Uuid) : UseCase ProfileError (Session.User × List NotificationChannel) := do
  let some user ← orFail .infrastructure (ask (.findUser userId)) | throw .notFound
  let channels ← orFail .infrastructure (ask (.listChannels userId))
  return (user, channels)

def addChannel (emailEnabled : Bool) (userId : Uuid) (kind : ChannelKind) (target : String)
    (secret : Option String) : UseCase ProfileError NotificationChannel := do
  if kind = .email ∧ ¬ emailEnabled then
    throw .emailNotConfigured
  else
    let channel ← orFail .invalidChannel (newChannel userId kind target secret)
    orFail .infrastructure (ask (.insertChannel channel))
    return channel

def removeChannel (userId id : Uuid) : UseCase PortError Bool :=
  orFail (fun e => e) (ask (.deleteChannel userId id))

inductive ProfileOp where
  | createSearch (userId : Uuid) (keyword : String) (mode : JobMode) (intervalMinutes : Nat)
      (webhookUrl : Option String)
  | listSearches (userId : Uuid)
  | deleteSearch (userId id : Uuid)
  | view (userId : Uuid)
  | addChannel (userId : Uuid) (kind : ChannelKind) (target : String) (secret : Option String)
  | removeChannel (userId id : Uuid)
deriving DecidableEq

inductive ProfileOutcome where
  | createSearch (result : Except RecurringError RecurringSearch)
  | listSearches (result : Except RecurringError (List RecurringSearch))
  | deleteSearch (result : Except RecurringError Unit)
  | view (result : Except ProfileError (Session.User × List NotificationChannel))
  | addChannel (result : Except ProfileError NotificationChannel)
  | removeChannel (result : Except PortError Bool)

def ProfileOp.program (emailEnabled : Bool) : ProfileOp → Program ProfilePorts ProfileOutcome
  | .createSearch userId keyword mode intervalMinutes webhookUrl => do
      return .createSearch
        (← (RecurringSearches.create userId keyword mode intervalMinutes webhookUrl).run)
  | .listSearches userId => do return .listSearches (← (RecurringSearches.list userId).run)
  | .deleteSearch userId id => do return .deleteSearch (← (RecurringSearches.delete userId id).run)
  | .view userId => do return .view (← (Profile.view userId).run)
  | .addChannel userId kind target secret => do
      return .addChannel (← (Profile.addChannel emailEnabled userId kind target secret).run)
  | .removeChannel userId id => do return .removeChannel (← (Profile.removeChannel userId id).run)

end AgentBoilerplate.Profile
