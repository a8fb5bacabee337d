import AgentBoilerplate.Agent.Dates

namespace AgentBoilerplate.Agent

open Python UrlParse Collections JsonDecoder

-- The first field of a socket address: a text, or a number for a family that
-- the interpreter does not know.
inductive SocketHost where
  | text (address : List Char)
  | number (family : Int)
deriving DecidableEq, Repr

-- What `ipaddress.ip_address` accepts.
def SocketHost.isAddress : SocketHost → Bool
  | .text address => isIpv4 address ∨ isIpv6 address
  | .number family => 0 ≤ family ∧ family < 2 ^ 128

-- What the parser of HTML calls the handlers for.
inductive HtmlEvent where
  | starttag (tag : List Char) (attrs : List (List Char × Option (List Char)))
  | endtag (tag : List Char)
  | data (text : List Char)

-- A response as it is read: its status, its chunks, and the end of the stream
-- may each raise.
structure Response where
  raiseForStatus : Except PyException Unit
  chunks : List (Except PyException (List UInt8))
  encoding : Except PyException (Option String)
  exit : Except PyException Unit

-- What a page is dated with: the resolver, the tables of public addresses, the
-- client, the codecs, the parser of HTML, and how deep the interpreter decodes
-- JSON and recurs.
structure Web where
  getaddrinfo : List Char → Except PyException (List SocketHost)
  isGlobal : SocketHost → Bool
  stream : String → Except PyException Response
  decode : String → List UInt8 → Except PyException (List Char)
  feed : List Char → Except PyException (List HtmlEvent)
  nesting : Nat
  frames : Nat

def maxBytes : Nat := 512 * 1024

section

variable [Unicode]

def SocketHost.repr : SocketHost → String
  | .text address => String.ofList (Str.repr address)
  | .number family => toString family

-- `all(ipaddress.ip_address(info[4][0]).is_global for info in infos)`.
def allGlobal (web : Web) : List SocketHost → Except PyException Bool
  | [] => .ok true
  | host :: hosts =>
      if ¬ host.isAddress then
        .error (valueError (host.repr ++ " does not appear to be an IPv4 or IPv6 address"))
      else if web.isGlobal host then
        allGlobal web hosts
      else
        .ok false

def isPublicHost (web : Web) (host : List Char) : Except PyException Bool :=
  match web.getaddrinfo host with
  | .error e => if e.type = "gaierror" then .ok false else .error e
  | .ok [] => .ok false
  | .ok infos => allGlobal web infos

structure MetadataCollector where
  jsonldChunks : List (List Char) := []
  ogDates : List (List Char) := []
  inJsonld : Bool := false

-- `attributes.get(name, "")`: of equal names, the last counts.
def attributeOf (attrs : List (List Char × Option (List Char))) (name : String) : List Char :=
  ((attrs.reverse.find? fun attr => Unicode.lower attr.1 = name.toList).bind Prod.snd).getD []

def handleStarttag (collector : MetadataCollector) (tag : List Char)
    (attrs : List (List Char × Option (List Char))) : MetadataCollector :=
  let collector :=
    if tag = "script".toList ∧
        Unicode.lower (attributeOf attrs "type") = "application/ld+json".toList then
      { collector with inJsonld := true, jsonldChunks := collector.jsonldChunks ++ [[]] }
    else
      collector
  if tag = "meta".toList ∧
      Unicode.lower (attributeOf attrs "property") = "article:published_time".toList then
    let content := Str.strip Str.isSpace (attributeOf attrs "content")
    if content = [] then collector
    else { collector with ogDates := collector.ogDates ++ [content] }
  else
    collector

def handleEndtag (collector : MetadataCollector) (tag : List Char) : MetadataCollector :=
  if tag = "script".toList then { collector with inJsonld := false } else collector

def handleData (collector : MetadataCollector) (data : List Char) : MetadataCollector :=
  match collector.inJsonld, collector.jsonldChunks.getLast? with
  | true, some chunk =>
      { collector with jsonldChunks := collector.jsonldChunks.dropLast ++ [chunk ++ data] }
  | _, _ => collector

def handle (collector : MetadataCollector) : HtmlEvent → MetadataCollector
  | .starttag tag attrs => handleStarttag collector tag attrs
  | .endtag tag => handleEndtag collector tag
  | .data data => handleData collector data

def maximumRecursion : PyException := ⟨"RecursionError", "maximum recursion depth exceeded"⟩

-- `frames` are the calls that are left to the interpreter.
def jsonldDates : Nat → Json → Except PyException (List String)
  | 0, _ => .error maximumRecursion
  | frames + 1, .array items => do
      let dates ← items.mapM (jsonldDates frames)
      return dates.flatten
  | frames + 1, .object fields => do
      let published := match Json.get fields "datePublished" with
        | some (.string date) => [date]
        | _ => []
      let dates ← jsonldDates frames ((Json.get fields "@graph").getD (.array []))
      return published ++ dates
  | _ + 1, _ => .ok []

-- A chunk that is not JSON is passed over.
def chunkDates (web : Web) (chunk : List Char) : Except PyException (List String) :=
  orOnValueError [] do
    let payload ← loads web.nesting chunk
    jsonldDates web.frames payload

-- The first candidate that is a date.
def firstDate : List String → Except PyException (Option DateTime)
  | [] => .ok none
  | candidate :: candidates => do
      match ← parseExtractedDate candidate with
      | some date => return some date
      | none => firstDate candidates

def extractPublishedDate (web : Web) (html : List Char) : Except PyException (Option DateTime) :=
  match web.feed html with
  | .error _ => .ok none
  | .ok events => do
      let collector : MetadataCollector := events.foldl handle {}
      let candidates ← collector.jsonldChunks.mapM (chunkDates web)
      firstDate (candidates.flatten ++ collector.ogDates.map String.ofList)

-- Reads chunks until there are enough bytes.
def readChunks (size : Nat) : List (Except PyException (List UInt8)) →
    Except PyException (List UInt8)
  | [] => .ok []
  | chunk :: chunks => do
      let bytes ← chunk
      if size + bytes.length ≥ maxBytes then
        return bytes
      else do
        let rest ← readChunks (size + bytes.length) chunks
        return bytes ++ rest

-- The body of the `try`.
def fetchPage (web : Web) (url : String) : Except PyException (Option DateTime) := do
  let response ← web.stream url
  response.raiseForStatus
  let bytes ← readChunks 0 response.chunks
  let encoding ← response.encoding
  let html ← web.decode ((encoding.filter fun name => name ≠ "").getD "utf-8") bytes
  response.exit
  extractPublishedDate web html

-- `try: ... except Exception: return None`.
def orNone {α : Type} : Except PyException (Option α) → Option α
  | .ok value => value
  | .error _ => none

-- The URL is split and its host is looked up outside the `try`.
def fetchPublishedDate (web : Web) (url : String) : Except PyException (Option DateTime) := do
  let parts ← urlsplit url.toList
  let host := parts.hostname.getD []
  if host = [] then
    return none
  else
    let isPublic ← isPublicHost web host
    if isPublic then
      return orNone (fetchPage web url)
    else
      return none

-- Up to the first address that is not public, all are addresses.
def Judgeable (web : Web) : List SocketHost → Prop
  | [] => True
  | host :: hosts => host.isAddress = true ∧ (web.isGlobal host = true → Judgeable web hosts)

-- The resolver answers with such addresses, or with its own error.
def Resolvable (web : Web) (host : List Char) : Prop :=
  (∃ infos, web.getaddrinfo host = .ok infos ∧ Judgeable web infos) ∨
    ∃ e, web.getaddrinfo host = .error e ∧ e.type = "gaierror"

theorem allGlobal_returns (web : Web) (hosts : List SocketHost) :
    Returns (allGlobal web hosts) ↔ Judgeable web hosts := by
  induction hosts with
  | nil => exact iff_of_true ⟨true, rfl⟩ trivial
  | cons host hosts ih =>
      unfold allGlobal Judgeable
      by_cases haddress : host.isAddress = true
      · rw [if_neg (not_not.mpr haddress)]
        by_cases hglobal : web.isGlobal host = true
        · rw [if_pos hglobal, ih]
          exact ⟨fun h => ⟨haddress, fun _ => h⟩, fun h => h.2 hglobal⟩
        · rw [if_neg hglobal]
          exact iff_of_true ⟨false, rfl⟩ ⟨haddress, fun h => absurd h hglobal⟩
      · rw [if_pos haddress]
        exact iff_of_false (not_returns_error _) fun h => haddress h.1

theorem isPublicHost_returns (web : Web) (host : List Char) :
    Returns (isPublicHost web host) ↔ Resolvable web host := by
  unfold isPublicHost Resolvable
  cases web.getaddrinfo host with
  | error e =>
      by_cases hgaierror : e.type = "gaierror"
      · exact iff_of_true ⟨false, if_pos hgaierror⟩ (Or.inr ⟨e, rfl, hgaierror⟩)
      · have hraised : ¬ Returns (if e.type = "gaierror" then Except.ok false else .error e) := by
          rw [if_neg hgaierror]
          exact not_returns_error e
        refine iff_of_false hraised ?_
        rintro (⟨infos, hinfos, -⟩ | ⟨e', herror, htype⟩)
        · cases hinfos
        · cases herror
          exact hgaierror htype
  | ok infos =>
      have hanswer : ((∃ infos', (.ok infos : Except PyException (List SocketHost)) = .ok infos' ∧
          Judgeable web infos') ∨ ∃ e, (.ok infos : Except PyException (List SocketHost)) =
            .error e ∧ e.type = "gaierror") ↔ Judgeable web infos := by
        constructor
        · rintro (⟨infos', heq, hjudgeable⟩ | ⟨e, heq, -⟩)
          · cases heq
            exact hjudgeable
          · cases heq
        · exact fun h => Or.inl ⟨infos, rfl, h⟩
      rw [hanswer]
      cases infos with
      | nil => exact iff_of_true ⟨false, rfl⟩ trivial
      | cons host hosts => exact allGlobal_returns web (host :: hosts)

-- The dating of a page raises exactly if its URL cannot be split, or if its
-- host gets neither addresses nor the resolver's own error.
theorem fetchPublishedDate_returns (web : Web) (url : String) :
    Returns (fetchPublishedDate web url) ↔ ∃ parts, urlsplit url.toList = .ok parts ∧
      ∀ host, parts.hostname = some host → host ≠ [] → Resolvable web host := by
  unfold fetchPublishedDate
  rw [returns_bind]
  refine exists_congr fun parts => and_congr_right fun _ => ?_
  dsimp only
  cases hhost : parts.hostname with
  | none =>
      refine iff_of_true ⟨none, rfl⟩ fun host heq => ?_
      cases heq
  | some host =>
      have honly : (∀ other, some host = some other → other ≠ [] → Resolvable web other) ↔
          (host ≠ [] → Resolvable web host) := by
        refine ⟨fun h => h host rfl, fun h other heq => ?_⟩
        cases heq
        exact h
      rw [honly, Option.getD_some]
      by_cases hempty : host = []
      · rw [if_pos hempty]
        exact iff_of_true ⟨none, rfl⟩ fun h => absurd hempty h
      · rw [if_neg hempty, returns_bind]
        constructor
        · rintro ⟨isPublic, hpublic, -⟩ -
          exact (isPublicHost_returns web host).mp ⟨isPublic, hpublic⟩
        · intro hresolves
          obtain ⟨isPublic, hpublic⟩ := (isPublicHost_returns web host).mpr (hresolves hempty)
          refine ⟨isPublic, hpublic, ?_⟩
          cases isPublic with
          | true => exact ⟨orNone (fetchPage web url), rfl⟩
          | false => exact ⟨none, rfl⟩

end

-- A page whose host is not known.
def Sample.offline : Web where
  getaddrinfo _ := .error ⟨"gaierror", "[Errno -2] Name or service not known"⟩
  isGlobal _ := false
  stream _ := .error ⟨"ConnectError", "[Errno -2] Name or service not known"⟩
  decode _ bytes := .ok (Utf8.decode bytes)
  feed _ := .ok []
  nesting := 1000
  frames := 1000

-- A resolver that refuses to encode the host.
def Sample.unencodable : Web :=
  { offline with getaddrinfo := fun _ => .error ⟨"UnicodeError", "label empty or too long"⟩ }

-- A bracket that is not closed, with every host unknown; and a host with an
-- empty label.
theorem fetchPublishedDate_raises :
    letI := Sample.unicode
    ¬ Returns (fetchPublishedDate Sample.offline "http://[::1/news") ∧
      ¬ Returns (fetchPublishedDate Sample.unencodable "http://ex..com/news") := by
  constructor <;> decide +kernel

end AgentBoilerplate.Agent
