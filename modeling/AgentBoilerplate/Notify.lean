import AgentBoilerplate.Job.UseCases
import AgentBoilerplate.Notify.Address

namespace AgentBoilerplate.Notify

open Effects Job

-- The host and the port of a parsed URL; the port is the scheme's by default.
inductive Host where
  | domain (name : String)
  | ipv4 (addr : Ipv4Addr)
  | ipv6 (addr : Ipv6Addr)
deriving DecidableEq, Repr

structure Url where
  scheme : String
  host : Option Host
  port : Option Nat
deriving DecidableEq, Repr

structure HttpRequest where
  url : String
  headers : List (String × String)
  body : String
deriving DecidableEq, Repr

-- What the senders ask of the network. `lookup_host` asks for the addresses of
-- a host that is not written as an IPv4 address.
inductive NetCall where
  | lookup (host : String) (port : Nat)
  | connect (addr : IpAddr) (port : Nat)
  | exchange (request : HttpRequest)
deriving DecidableEq, Repr

@[reducible] def NetCall.Answer : NetCall → Type
  | .lookup _ _ => Except String (List IpAddr)
  | .connect _ _ => Bool
  | .exchange _ => Except String Nat

@[reducible] def NetPorts : Interface := ⟨NetCall, NetCall.Answer⟩

def ask (request : NetCall) : Program NetPorts request.Answer := .call request .done

-- The code the senders call and that is not in the repository: the URL parser,
-- the text of an IPv6 address and of a status, the JSON writer, and the MAC.
structure HttpStack where
  parse : String → Except String Url
  ipv6Text : Ipv6Addr → String
  statusText : Nat → String
  digestJson : Digest → Except String String
  slackJson : String → String
  hmacSha256Hex : String → String → String

variable (stack : HttpStack)

def HttpStack.ipText : IpAddr → String
  | .v4 addr => addr.text
  | .v6 addr => stack.ipv6Text addr

-- `host_str`: an IPv6 address is in brackets.
def HttpStack.hostStr (url : Url) : Option String :=
  url.host.map fun
    | .domain name => name
    | .ipv4 addr => addr.text
    | .ipv6 addr => "[" ++ stack.ipv6Text addr ++ "]"

-- `tokio::net::lookup_host`: an address is its own answer.
def lookupHost (host : String) (port : Nat) : Program NetPorts (Except String (List IpAddr)) :=
  match Ipv4Addr.parse host with
  | some addr => return .ok [.v4 addr]
  | none => ask (.lookup host port)

def nonPublic (addr : IpAddr) : String :=
  "webhook host resolves to a non-public address (" ++ stack.ipText addr ++ ")"

-- `ensure_public_host`.
def ensurePublicHost (url : String) (allowPrivate : Bool) :
    Program NetPorts (Except PortError Unit) :=
  if allowPrivate then
    return .ok ()
  else
    match stack.parse url with
    | .error e => return .error ⟨"invalid webhook url: " ++ e⟩
    | .ok parsed =>
        match stack.hostStr parsed with
        | none => return .error ⟨"webhook url has no host"⟩
        | some host => do
            match ← lookupHost host (parsed.port.getD 0) with
            | .error e => return .error ⟨"cannot resolve webhook host: " ++ e⟩
            | .ok resolved =>
                if resolved = [] then
                  return .error ⟨"webhook host did not resolve"⟩
                else
                  match resolved.find? isBlockedIp with
                  | some addr => return .error ⟨nonPublic stack addr⟩
                  | none => return .ok ()

-- `PublicOnlyResolver::resolve`.
def PublicOnlyResolver.resolve (name : String) : Program NetPorts (Except String (List IpAddr)) := do
  match ← lookupHost name 0 with
  | .error e => return .error e
  | .ok addrs =>
      match addrs.find? isBlockedIp with
      | some addr => return .error (nonPublic stack addr)
      | none => return .ok addrs

-- A client without redirects, with the filtering resolver or without.
structure Client where
  publicOnly : Bool

namespace Client

-- The addresses are tried until one connects.
def connectAny (port : Nat) : List IpAddr → Program NetPorts Bool
  | [] => return false
  | addr :: rest => do
      if ← ask (.connect addr port) then return true else connectAny port rest

def exchange (request : HttpRequest) (port : Nat) (addrs : List IpAddr) :
    Program NetPorts (Except String Nat) := do
  if ← connectAny port addrs then
    ask (.exchange request)
  else
    return .error "error sending request"

-- The resolver is asked for host names only.
def resolve (client : Client) : Host → Program NetPorts (Except String (List IpAddr))
  | .ipv4 addr => return .ok [.v4 addr]
  | .ipv6 addr => return .ok [.v6 addr]
  | .domain name =>
      if client.publicOnly then PublicOnlyResolver.resolve stack name else lookupHost name 0

def post (client : Client) (request : HttpRequest) : Program NetPorts (Except String Nat) :=
  match stack.parse request.url with
  | .error e => return .error e
  | .ok url =>
      match url.host with
      | none => return .error "builder error"
      | some host =>
          if url.scheme ≠ "http" ∧ url.scheme ≠ "https" then
            return .error "builder error"
          else do
            match ← client.resolve stack host with
            | .error e => return .error e
            | .ok addrs => exchange request (url.port.getD 0) addrs

end Client

def isSuccess (status : Nat) : Bool := 200 ≤ status ∧ status < 300

-- What the senders do with the response.
def delivered (service : String) : Except String Nat → Except PortError Unit
  | .error e => .error ⟨service ++ " unreachable: " ++ e⟩
  | .ok status =>
      if isSuccess status then .ok ()
      else .error ⟨service ++ " returned " ++ stack.statusText status⟩

structure WebhookDigestSender where
  client : Client
  secret : Option String
  allowPrivate : Bool

namespace WebhookDigestSender

def new (secret : Option String) (allowPrivate : Bool) : WebhookDigestSender where
  client := ⟨!allowPrivate⟩
  secret := secret.filter fun text => text ≠ ""
  allowPrivate := allowPrivate

def send (sender : WebhookDigestSender) (webhookUrl : String) (digest : Digest) :
    Program NetPorts (Except PortError Unit) := do
  match ← ensurePublicHost stack webhookUrl sender.allowPrivate with
  | .error e => return .error e
  | .ok () =>
      match stack.digestJson digest with
      | .error e => return .error ⟨"digest serialization failed: " ++ e⟩
      | .ok body =>
          let signature := match sender.secret with
            | none => []
            | some secret => [("X-Signature-256", "sha256=" ++ stack.hmacSha256Hex secret body)]
          let headers := ("Content-Type", "application/json") :: signature
          return delivered stack "webhook" (← sender.client.post stack ⟨webhookUrl, headers, body⟩)

end WebhookDigestSender

def digestToText (digest : Digest) : String :=
  digest.newResults.foldl (fun text entry => text ++ "\n• " ++ entry.title ++ " — " ++ entry.url)
    ("New results for “" ++ digest.keyword ++ "” (" ++ toString digest.newCount ++ "):")

structure SlackNotifier where
  client : Client

namespace SlackNotifier

def new (allowPrivate : Bool) : SlackNotifier := ⟨⟨!allowPrivate⟩⟩

def notify (notifier : SlackNotifier) (channel : NotificationChannel) (digest : Digest) :
    Program NetPorts (Except PortError Unit) := do
  let headers := [("Content-Type", "application/json")]
  return delivered stack "slack"
    (← notifier.client.post stack ⟨channel.target, headers, stack.slackJson (digestToText digest)⟩)

end SlackNotifier

def maxTargetLen : Nat := 2048

def maxSecretLen : Nat := 512

inductive ChannelError where
  | emptyTarget
  | targetTooLong
  | secretTooLong
  | invalidSlackUrl
  | missingTelegramToken
  | invalidEmail
deriving DecidableEq, Repr

-- One `@`, with a local part before it and a dotted domain behind.
def isEmail (target : String) : Bool :=
  match target.toList.span fun c => c ≠ '@' with
  | (_, []) => false
  | (local_, _ :: domain) => local_ ≠ [] ∧ '.' ∈ domain ∧ domain.head? ≠ some '.'

-- `NotificationChannel::new`, with the identifier and the time it draws.
def newChannel (id : Uuid) (now : Int) (userId : Uuid) (kind : ChannelKind) (target : String)
    (secret : Option String) : Except ChannelError NotificationChannel :=
  let target := trim target
  let secret := (secret.map trim).filter fun text => text ≠ ""
  if target = "" then
    .error .emptyTarget
  else if target.length > maxTargetLen then
    .error .targetTooLong
  else if secret.any fun text => text.length > maxSecretLen then
    .error .secretTooLong
  else
    let channel : NotificationChannel := ⟨id, userId, kind, target, secret, truncSubsecs6 now⟩
    match kind with
    | .slack => if "https://".toList.isPrefixOf target.toList then .ok channel else .error .invalidSlackUrl
    | .telegram => if secret = none then .error .missingTelegramToken else .ok channel
    | .email => if isEmail target then .ok channel else .error .invalidEmail

end AgentBoilerplate.Notify
