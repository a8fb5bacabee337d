import AgentBoilerplate.Notify
import AgentBoilerplate.Text

namespace AgentBoilerplate.Notify

open Effects Job

-- The addresses that connections were opened to.
def connection (event : Event NetPorts) : Option IpAddr :=
  match event.call with
  | .connect addr _ => some addr
  | _ => none

def connections (events : List (Event NetPorts)) : List IpAddr := events.filterMap connection

theorem connections_append (past events : List (Event NetPorts)) :
    connections (past ++ events) = connections past ++ connections events := List.filterMap_append

-- The address a URL names itself, if the client sends anything there.
def literal (stack : HttpStack) (url : String) : Option IpAddr :=
  match stack.parse url with
  | .error _ => none
  | .ok parsed =>
      if parsed.scheme ≠ "http" ∧ parsed.scheme ≠ "https" then
        none
      else
        match parsed.host with
        | some (.ipv4 addr) => some (.v4 addr)
        | some (.ipv6 addr) => some (.v6 addr)
        | _ => none

-- A lookup of an IPv6 address in brackets finds nothing.
def Unbracketed (stack : HttpStack) (event : Event NetPorts) : Prop :=
  ∀ addr port addrs, event ≠ ⟨.lookup ("[" ++ stack.ipv6Text addr ++ "]") port, .ok addrs⟩

section Sends

variable {stack : HttpStack} {past : List (Event NetPorts)}

theorem lookup_ends (host : String) (port : Nat) :
    (lookupHost host port).Ends (fun later result => connections later = connections past ∧
      ((∃ addr, Ipv4Addr.parse host = some addr ∧ result = .ok [.v4 addr]) ∨
        Ipv4Addr.parse host = none ∧
          (⟨.lookup host port, result⟩ : Event NetPorts) ∈ later)) past := by
  unfold lookupHost
  cases hparse : Ipv4Addr.parse host with
  | some addr => exact ⟨rfl, Or.inl ⟨addr, rfl, rfl⟩⟩
  | none =>
      intro result
      refine ⟨?_, Or.inr ⟨rfl, by simp⟩⟩
      rw [connections_append]
      exact List.append_nil _

theorem find_blocked {addrs : List IpAddr} (h : addrs.find? isBlockedIp = none) :
    ∀ addr ∈ addrs, isBlockedIp addr = false := by
  intro addr haddr
  simpa using List.find?_eq_none.mp h addr haddr

-- The resolver answers with public addresses only.
theorem resolve_ends (name : String) :
    (PublicOnlyResolver.resolve stack name).Ends (fun later result =>
      connections later = connections past ∧
        ∀ addrs, result = .ok addrs → ∀ addr ∈ addrs, isBlockedIp addr = false) past := by
  refine (Program.ends_bind _ _ _ _).mpr ((lookup_ends name 0).mono fun later result h => ?_)
  cases result with
  | error e => exact ⟨h.1, fun addrs heq => by cases heq⟩
  | ok found =>
      dsimp only
      cases hfound : found.find? isBlockedIp with
      | some addr => exact ⟨h.1, fun addrs heq => by cases heq⟩
      | none =>
          refine ⟨h.1, fun addrs heq => ?_⟩
          obtain rfl := Except.ok.inj heq
          exact find_blocked hfound

-- The addresses are tried in order, the first of them for certain.
theorem connectAny_ends (port : Nat) (addrs : List IpAddr) (past : List (Event NetPorts)) :
    (Client.connectAny port addrs).Ends (fun later _ => ∃ tried, tried <+: addrs ∧
      (addrs ≠ [] → tried ≠ []) ∧ connections later = connections past ++ tried) past := by
  induction addrs generalizing past with
  | nil => exact ⟨[], List.prefix_refl _, fun h => h, (List.append_nil _).symm⟩
  | cons addr rest ih =>
      intro connected
      have hnext : connections (past ++ [⟨.connect addr port, connected⟩]) =
          connections past ++ [addr] := connections_append _ _
      cases connected with
      | true => exact ⟨[addr], ⟨rest, rfl⟩, fun _ => List.cons_ne_nil _ _, hnext⟩
      | false =>
          refine (ih _).mono fun later _ h => ?_
          obtain ⟨tried, htried, -, hlater⟩ := h
          refine ⟨addr :: tried, (List.prefix_cons_inj addr).mpr htried,
            fun _ => List.cons_ne_nil _ _, ?_⟩
          rw [hlater, hnext, List.append_assoc]
          rfl

theorem exchange_ends (request : HttpRequest) (port : Nat) (addrs : List IpAddr)
    (past : List (Event NetPorts)) :
    (Client.exchange request port addrs).Ends (fun later _ => ∃ tried, tried <+: addrs ∧
      (addrs ≠ [] → tried ≠ []) ∧ connections later = connections past ++ tried) past := by
  refine (Program.ends_bind _ _ _ _).mpr ((connectAny_ends port addrs past).mono ?_)
  intro later connected h
  cases connected with
  | false => exact h
  | true =>
      intro answer
      obtain ⟨tried, htried, hfirst, hlater⟩ := h
      refine ⟨tried, htried, hfirst, ?_⟩
      rw [connections_append, hlater]
      exact List.append_nil _

-- What a client opens: the address that the URL names, or addresses that the
-- resolver let through.
def Opens (target : Option IpAddr) (opened : List IpAddr) : Prop :=
  (∀ addr, target = some addr → opened = [addr]) ∧
    (target = none → ∀ addr ∈ opened, isBlockedIp addr = false)

theorem opens_nothing : Opens none [] :=
  ⟨fun addr heq => (by cases heq), fun _ addr haddr => (by cases haddr)⟩

theorem opens_literal {addr : IpAddr} {opened : List IpAddr} (h : opened <+: [addr])
    (hfirst : opened ≠ []) : Opens (some addr) opened := by
  refine ⟨fun other heq => ?_, fun heq => by cases heq⟩
  obtain rfl := Option.some.inj heq
  rcases List.prefix_cons_iff.mp h with hempty | ⟨rest, hrest, hnil⟩
  · exact absurd hempty hfirst
  · rw [hrest, List.prefix_nil.mp hnil]

theorem post_ends (request : HttpRequest) :
    (Client.post stack ⟨true⟩ request).Ends (fun later _ => ∃ opened,
      connections later = connections past ++ opened ∧
        Opens (literal stack request.url) opened) past := by
  have hnone : ∀ {target : Option IpAddr} {later : List (Event NetPorts)}, target = none →
      connections later = connections past → ∃ opened,
        connections later = connections past ++ opened ∧ Opens target opened := by
    intro target later heq hsame
    exact ⟨[], by rw [hsame, List.append_nil], heq ▸ opens_nothing⟩
  unfold Client.post
  cases hparse : stack.parse request.url with
  | error e => exact hnone (by simp only [literal, hparse]) rfl
  | ok url =>
      dsimp only
      cases hhost : url.host with
      | none => exact hnone (by simp only [literal, hparse, hhost, ite_self]) rfl
      | some host =>
          dsimp only
          by_cases hscheme : url.scheme ≠ "http" ∧ url.scheme ≠ "https"
          · rw [if_pos hscheme]
            exact hnone (by simp only [literal, hparse, if_pos hscheme]) rfl
          · rw [if_neg hscheme]
            have hdirect : ∀ addr, literal stack request.url = some addr →
                (Client.exchange request (url.port.getD 0) [addr]).Ends (fun later _ => ∃ opened,
                  connections later = connections past ++ opened ∧
                    Opens (literal stack request.url) opened) past := by
              intro addr hliteral
              refine (exchange_ends request _ _ past).mono fun later _ h => ?_
              obtain ⟨tried, htried, hfirst, hlater⟩ := h
              exact ⟨tried, hlater, hliteral ▸ opens_literal htried (hfirst (List.cons_ne_nil _ _))⟩
            cases host with
            | ipv4 addr =>
                exact hdirect (.v4 addr) (by simp only [literal, hparse, hhost, if_neg hscheme])
            | ipv6 addr =>
                exact hdirect (.v6 addr) (by simp only [literal, hparse, hhost, if_neg hscheme])
            | domain name =>
                have hliteral : literal stack request.url = none := by
                  simp only [literal, hparse, hhost, if_neg hscheme]
                refine (Program.ends_bind _ _ _ _).mpr ((resolve_ends name).mono ?_)
                intro later resolved h
                obtain ⟨hsame, hpublic⟩ := h
                cases resolved with
                | error e => exact hnone hliteral hsame
                | ok addrs =>
                    refine (exchange_ends request _ addrs later).mono fun last _ h => ?_
                    obtain ⟨tried, htried, -, hlast⟩ := h
                    refine ⟨tried, by rw [hlast, hsame], fun addr heq => ?_, fun _ addr haddr => ?_⟩
                    · rw [hliteral] at heq
                      cases heq
                    · exact hpublic addrs rfl addr (htried.subset haddr)

-- The check of a webhook URL lets a public address through only.
theorem ensurePublicHost_ends (url : String) :
    (ensurePublicHost stack url false).Ends (fun later result =>
      connections later = connections past ∧
        (result = .ok () → (∀ event ∈ later, Unbracketed stack event) →
          ∀ addr, literal stack url = some addr → isBlockedIp addr = false)) past := by
  unfold ensurePublicHost
  rw [if_neg Bool.false_ne_true]
  cases hparse : stack.parse url with
  | error e => exact ⟨rfl, fun heq => by cases heq⟩
  | ok parsed =>
      dsimp only
      cases hhost : parsed.host with
      | none =>
          simp only [HttpStack.hostStr, hhost, Option.map_none]
          exact ⟨rfl, fun heq => by cases heq⟩
      | some host =>
          simp only [HttpStack.hostStr, hhost, Option.map_some]
          refine (Program.ends_bind _ _ _ _).mpr ((lookup_ends _ _).mono fun later result h => ?_)
          obtain ⟨hsame, hanswer⟩ := h
          cases result with
          | error e => exact ⟨hsame, fun heq => by cases heq⟩
          | ok resolved =>
              dsimp only
              by_cases hempty : resolved = []
              · rw [if_pos hempty]
                exact ⟨hsame, fun heq => by cases heq⟩
              · rw [if_neg hempty]
                cases hfound : resolved.find? isBlockedIp with
                | some addr => exact ⟨hsame, fun heq => by cases heq⟩
                | none =>
                    refine ⟨hsame, fun _ hunbracketed addr hliteral => ?_⟩
                    have hpublic := find_blocked hfound
                    have hscheme : ¬ (parsed.scheme ≠ "http" ∧ parsed.scheme ≠ "https") := by
                      intro hscheme
                      rw [literal, hparse] at hliteral
                      simp only [if_pos hscheme] at hliteral
                      cases hliteral
                    rw [literal, hparse] at hliteral
                    simp only [if_neg hscheme, hhost] at hliteral
                    cases host with
                    | domain name => cases hliteral
                    | ipv4 addr4 =>
                        obtain rfl := Option.some.inj hliteral
                        rcases hanswer with ⟨read, hread, hok⟩ | ⟨hread, -⟩
                        · rw [Ipv4Addr.parse_text] at hread
                          obtain rfl := Option.some.inj hread
                          rw [Except.ok.inj hok] at hpublic
                          exact hpublic _ List.mem_cons_self
                        · rw [Ipv4Addr.parse_text] at hread
                          cases hread
                    | ipv6 addr6 =>
                        rcases hanswer with ⟨read, hread, -⟩ | ⟨-, hevent⟩
                        · dsimp only at hread
                          rw [String.append_assoc, Ipv4Addr.parse_bracketed] at hread
                          cases hread
                        · exact absurd rfl (hunbracketed _ hevent addr6 _ resolved)

theorem notify_ends (channel : NotificationChannel) (digest : Digest) :
    ((SlackNotifier.new false).notify stack channel digest).Ends (fun later _ => ∃ opened,
      connections later = connections past ++ opened ∧
        Opens (literal stack channel.target) opened) past := by
  refine (Program.ends_bind _ _ _ _).mpr ?_
  exact post_ends ⟨channel.target, _, stack.slackJson (digestToText digest)⟩

theorem send_ends (secret : Option String) (webhookUrl : String) (digest : Digest) :
    ((WebhookDigestSender.new secret false).send stack webhookUrl digest).Ends (fun later _ =>
      (∀ event ∈ later, Unbracketed stack event) → ∃ opened,
        connections later = connections past ++ opened ∧
          ∀ addr ∈ opened, isBlockedIp addr = false) past := by
  have hnone : ∀ {later : List (Event NetPorts)}, connections later = connections past →
      ∃ opened, connections later = connections past ++ opened ∧
        ∀ addr ∈ opened, isBlockedIp addr = false :=
    fun hsame => ⟨[], by rw [hsame, List.append_nil], fun addr haddr => (by cases haddr)⟩
  refine (Program.ends_bind _ _ _ _).mpr ((ensurePublicHost_ends webhookUrl).mono ?_)
  intro later checked h
  obtain ⟨hsame, hpublic⟩ := h
  cases checked with
  | error e => exact fun _ => hnone hsame
  | ok _ =>
      dsimp only
      cases stack.digestJson digest with
      | error e => exact fun _ => hnone hsame
      | ok body =>
          refine (Program.ends_bind _ _ _ _).mpr ?_
          refine ((Program.ends_extends _ later).and (post_ends _)).mono fun last _ h => ?_
          obtain ⟨hextends, opened, hlast, hnamed, hresolved⟩ := h
          intro hunbracketed
          refine ⟨opened, by rw [hlast, hsame], ?_⟩
          cases hliteral : literal stack webhookUrl with
          | none => exact hresolved hliteral
          | some addr =>
              rw [hnamed addr hliteral]
              intro other hother
              rw [List.mem_singleton.mp hother]
              exact hpublic rfl (fun event hevent => hunbracketed event (hextends.subset hevent))
                addr hliteral

end Sends

-- Whatever the lookups answer, a webhook is sent to public addresses only. A
-- Slack channel is, too, exactly when its target does not name an address that
-- is blocked.
theorem destinations (stack : HttpStack) {oracle : Oracle NetPorts}
    (hbrackets : ∀ past addr port addrs,
      oracle past (.lookup ("[" ++ stack.ipv6Text addr ++ "]") port) ≠ .ok addrs)
    (secret : Option String) (webhookUrl : String) (channel : NotificationChannel)
    (digest : Digest) :
    let webhook := ((WebhookDigestSender.new secret false).send stack webhookUrl digest).execute oracle
    let slack := ((SlackNotifier.new false).notify stack channel digest).execute oracle
    (∀ addr ∈ connections webhook.2, isBlockedIp addr = false) ∧
      ((∀ addr ∈ connections slack.2, isBlockedIp addr = false) ↔
        ∀ addr, literal stack channel.target = some addr → isBlockedIp addr = false) := by
  intro webhook slack
  have hunbracketed : ∀ past request, Unbracketed stack ⟨request, oracle past request⟩ := by
    intro past request addr port addrs heq
    obtain ⟨hcall, hanswer⟩ := Event.mk.inj heq
    subst hcall
    exact hbrackets past addr port addrs (eq_of_heq hanswer)
  constructor
  · obtain ⟨opened, hopened, hpublic⟩ := (send_ends secret webhookUrl digest).execute oracle
      (Program.execute_events hunbracketed _)
    have hconnections : connections webhook.2 = opened := hopened
    rw [hconnections]
    exact hpublic
  · obtain ⟨opened, hopened, hnamed, hresolved⟩ := (notify_ends channel digest).execute oracle
    have hconnections : connections slack.2 = opened := hopened
    rw [hconnections]
    constructor
    · intro hpublic addr hliteral
      exact hpublic addr (hnamed addr hliteral ▸ List.mem_cons_self)
    · intro htarget
      cases hliteral : literal stack channel.target with
      | none => exact hresolved hliteral
      | some addr =>
          rw [hnamed addr hliteral]
          intro other hother
          rw [List.mem_singleton.mp hother]
          exact htarget addr hliteral

-- Concrete surroundings: two URLs that the parser knows, and one host name.
namespace Sample

def target : String := "https://hooks.slack.com/services/T0A1/B2C3/x9"

def metadata : String := "https://169.254.169.254/latest/meta-data"

def publicIp : IpAddr := .v4 ⟨34, 205, 17, 90⟩

def stack : HttpStack where
  parse text :=
    if text = target then .ok ⟨"https", some (.domain "hooks.slack.com"), some 443⟩
    else if text = metadata then .ok ⟨"https", some (.ipv4 ⟨169, 254, 169, 254⟩), some 443⟩
    else .error "relative URL without a base"
  ipv6Text addr := ":".intercalate ([addr.s0, addr.s1, addr.s2, addr.s3, addr.s4, addr.s5, addr.s6,
    addr.s7].map fun group => String.ofList (Nat.toDigits 16 group.toNat))
  statusText status := toString status
  digestJson digest := .ok ("\x7b\"keyword\":\"" ++ digest.keyword ++ "\"\x7d")
  slackJson text := "\x7b\"text\":\"" ++ text ++ "\"\x7d"
  hmacSha256Hex _ _ := ""

def oracle : Oracle NetPorts
  | _, .lookup host _ =>
      if host = "hooks.slack.com" then .ok [publicIp]
      else .error "failed to lookup address information"
  | _, .connect _ _ => true
  | _, .exchange _ => .ok 200

def digest : Digest where
  recurringSearchId := ⟨"6d8a40c5-0d53-4b6c-9a93-6a1e8f3b7c02"⟩
  jobId := ⟨"c1a7f6d2-5b0e-4e9b-9d34-7a2f80c6e915"⟩
  keyword := "lean 4"
  newCount := 0
  newResults := []

def channel (target : String) : NotificationChannel where
  id := ⟨"0b7de1c4-92f3-4a58-b1c6-7f05d2a9e863"⟩
  userId := ⟨"f0b7c7f2-8a4e-4f0e-a0f5-2c64dd1b6a10"⟩
  kind := .slack
  target := target
  secret := none
  createdAt := 1767225660000000000

end Sample

-- A channel that a user can create reaches the metadata service.
theorem notify_private :
    let channel := Sample.channel Sample.metadata
    newChannel channel.id channel.createdAt channel.userId .slack Sample.metadata none =
        .ok channel ∧
      connections (((SlackNotifier.new false).notify Sample.stack channel Sample.digest).execute
        Sample.oracle).2 = [.v4 ⟨169, 254, 169, 254⟩] ∧
      isBlockedIp (.v4 ⟨169, 254, 169, 254⟩) = true := by
  decide +kernel

theorem destinations_hooks :
    let webhook := ((WebhookDigestSender.new none false).send Sample.stack Sample.target
      Sample.digest).execute Sample.oracle
    let slack := ((SlackNotifier.new false).notify Sample.stack (Sample.channel Sample.target)
      Sample.digest).execute Sample.oracle
    connections webhook.2 = [Sample.publicIp] ∧ connections slack.2 = [Sample.publicIp] ∧
      (∀ addr ∈ connections webhook.2, isBlockedIp addr = false) ∧
      ∀ addr ∈ connections slack.2, isBlockedIp addr = false := by
  have hbrackets : ∀ past addr port addrs, Sample.oracle past
      (.lookup ("[" ++ Sample.stack.ipv6Text addr ++ "]") port) ≠ .ok addrs := by
    intro past addr port addrs
    have hname : "[" ++ Sample.stack.ipv6Text addr ++ "]" ≠ "hooks.slack.com" := by
      rw [String.append_assoc]
      exact append_ne (by decide : "[".toList.head? = some '[') (by decide) _
    simp [Sample.oracle, hname]
  have hdestinations := destinations Sample.stack hbrackets none Sample.target
    (Sample.channel Sample.target) Sample.digest
  refine ⟨by decide +kernel, by decide +kernel, hdestinations.1, hdestinations.2.mpr ?_⟩
  have hliteral : literal Sample.stack (Sample.channel Sample.target).target = none := by
    decide +kernel
  intro addr heq
  rw [hliteral] at heq
  cases heq

end AgentBoilerplate.Notify
