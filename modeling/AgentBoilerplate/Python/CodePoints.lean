import AgentBoilerplate.Collections.Traversal
import AgentBoilerplate.Python.UrlParse

namespace AgentBoilerplate.Python

open Collections

-- What a string is made of: a lone surrogate is a code point of its own.
inductive CodePoint where
  | scalar (c : Char)
  | surrogate (offset : Fin 0x800)
deriving DecidableEq, Repr

abbrev PyStr := List CodePoint

namespace CodePoint

def value : CodePoint → Nat
  | scalar c => c.toNat
  | surrogate offset => 0xD800 + offset.val

def isSurrogate : CodePoint → Bool
  | scalar _ => false
  | surrogate _ => true

-- A surrogate is in none of the classes that are looked for here.
def satisfies (p : Char → Bool) : CodePoint → Bool
  | scalar c => p c
  | surrogate _ => false

def scalar? : CodePoint → Option Char
  | scalar c => some c
  | surrogate _ => none

end CodePoint

-- An exception whose text may quote a surrogate.
structure PyError where
  type : String
  message : PyStr
deriving DecidableEq, Repr

namespace PyStr

def ofChars (s : List Char) : PyStr := s.map .scalar

def ofString (s : String) : PyStr := ofChars s.toList

def scalars (s : PyStr) : List Char := s.filterMap CodePoint.scalar?

-- No surrogate is in the text.
def Encodable (s : PyStr) : Prop := ∀ c ∈ s, c.isSurrogate = false

instance (s : PyStr) : Decidable s.Encodable := List.decidableBAll _ s

-- A text of scalar values that has the property.
def readable (p : List Char → Bool) (s : PyStr) : Bool :=
  (s.all fun c => !c.isSurrogate) && p s.scalars

def valueError (message : PyStr) : PyError := ⟨"ValueError", message⟩

-- `lower` and NFKC leave a surrogate alone, and never look past it.
def mapRuns (f : List Char → List Char) : List Char → PyStr → PyStr
  | run, [] => ofChars (f run)
  | run, .scalar c :: rest => mapRuns f (run ++ [c]) rest
  | run, .surrogate offset :: rest => ofChars (f run) ++ .surrogate offset :: mapRuns f [] rest

def lower [Unicode] (s : PyStr) : PyStr := mapRuns Unicode.lower [] s

def nfkc [Unicode] (s : PyStr) : PyStr := mapRuns Unicode.nfkc [] s

def strip (p : Char → Bool) (s : PyStr) : PyStr :=
  (s.dropWhile (CodePoint.satisfies p)).rdropWhile (CodePoint.satisfies p)

-- The text before the first separator, whether there is one, the text after it.
def partition (sep : Char) : PyStr → PyStr × Bool × PyStr
  | [] => ([], false, [])
  | c :: rest =>
      if c = .scalar sep then
        ([], true, rest)
      else
        let (before, found, after) := partition sep rest
        (c :: before, found, after)

def rpartition (sep : Char) (s : PyStr) : PyStr × Bool × PyStr :=
  let (after, found, before) := partition sep s.reverse
  if found then
    (before.reverse, true, after.reverse)
  else
    ([], false, s)

def replace (old new : Char) (s : PyStr) : PyStr :=
  s.map fun c => if c = .scalar old then .scalar new else c

def remove (old : List Char) (s : PyStr) : PyStr :=
  s.filter fun c => !c.satisfies fun c => c ∈ old

-- The order of `<=` on strings, by code points.
def le : PyStr → PyStr → Bool
  | [], _ => true
  | _ :: _, [] => false
  | a :: as, b :: bs => if a = b then le as bs else a.value < b.value

-- The order of `<=` on pairs of strings.
def pairLe (a b : PyStr × PyStr) : Bool := if a.1 = b.1 then le a.2 b.2 else le a.1 b.1

def reprPoint [Unicode] (quote : Char) : CodePoint → List Char
  | .scalar c => Str.reprChar quote c
  | .surrogate offset => ['\\', 'u'] ++ Str.hex false 4 (0xD800 + offset.val)

def repr [Unicode] (s : PyStr) : List Char :=
  let quote := if .scalar '\'' ∈ s ∧ .scalar '"' ∉ s then '"' else '\''
  [quote] ++ s.flatMap (reprPoint quote) ++ [quote]

-- A run of surrogates, by the positions of its first code point and of the one after it.
def unicodeEncodeError (s : PyStr) (start : Nat) : PyError :=
  let run := (s.drop start).takeWhile CodePoint.isSurrogate
  ⟨"UnicodeEncodeError", match run with
    | [.surrogate offset] => ofChars ("'utf-8' codec can't encode character '\\u".toList ++
        Str.hex false 4 (0xD800 + offset.val) ++ ("' in position " ++ toString start ++
          ": surrogates not allowed").toList)
    | run => ofString ("'utf-8' codec can't encode characters in position " ++ toString start ++
        "-" ++ toString (start + run.length - 1) ++ ": surrogates not allowed")⟩

-- `s.encode("utf-8", "strict")`.
def encode (s : PyStr) : Except PyError (List UInt8) :=
  match s.findIdx? CodePoint.isSurrogate with
  | none => .ok (Utf8.encode s.scalars)
  | some start => .error (s.unicodeEncodeError start)

theorem encode_returns (s : PyStr) : Returns s.encode ↔ s.Encodable := by
  unfold encode Encodable
  cases hfound : s.findIdx? CodePoint.isSurrogate with
  | none => exact iff_of_true (returns_ok _) (List.findIdx?_eq_none_iff.mp hfound)
  | some start =>
      refine iff_of_false (not_returns_error _) fun h => ?_
      rw [List.findIdx?_eq_none_iff.mpr h] at hfound
      cases hfound

end PyStr

-- `urllib.parse` on such strings.
namespace PyUrl

open PyStr UrlParse

structure SplitResult where
  scheme : PyStr
  netloc : PyStr
  path : PyStr
  query : PyStr
  fragment : PyStr
deriving DecidableEq, Repr

-- The scope of an address may be any text.
def isIpv6 (s : PyStr) : Bool :=
  let (address, found, scope) := PyStr.partition '%' s
  .scalar '/' ∉ s ∧ readable isIpv6Address address ∧ (found → scope ≠ [] ∧ .scalar '%' ∉ scope)

-- `v` hexdigits `.` text, on one line.
def isIpvFuture (s : PyStr) : Bool :=
  let rest := (s.drop 1).dropWhile (CodePoint.satisfies isHexDigit)
  s.head? = some (.scalar 'v') ∧ rest.length < (s.drop 1).length ∧
    rest.head? = some (.scalar '.') ∧ rest.drop 1 ≠ [] ∧ .scalar '\n' ∉ rest

def checkBracketedHost [Unicode] (hostname : PyStr) : Except PyError Unit :=
  if hostname.head? = some (.scalar 'v') then
    if isIpvFuture hostname then
      .ok ()
    else
      .error (PyStr.valueError (ofString "IPvFuture address is invalid"))
  else if isIpv6 hostname then
    .ok ()
  else if readable isIpv4 hostname then
    .error (PyStr.valueError (ofString "An IPv4 address cannot be in brackets"))
  else
    .error (PyStr.valueError (ofChars (PyStr.repr hostname) ++
      ofString " does not appear to be an IPv4 or IPv6 address"))

-- No data before the bracket, nor between the bracket and the port.
def checkBracketedNetloc [Unicode] (netloc : PyStr) : Except PyError Unit :=
  let (_, _, hostnameAndPort) := PyStr.rpartition '@' netloc
  let (beforeBracket, haveOpenBr, bracketed) := PyStr.partition '[' hostnameAndPort
  if haveOpenBr then
    let (hostname, _, port) := PyStr.partition ']' bracketed
    if beforeBracket ≠ [] then
      .error (PyStr.valueError (ofString "Invalid IPv6 URL"))
    else if port ≠ [] ∧ port.head? ≠ some (.scalar ':') then
      .error (PyStr.valueError (ofString "Invalid IPv6 URL"))
    else
      checkBracketedHost hostname
  else
    checkBracketedHost (PyStr.partition ':' hostnameAndPort).1

-- Rejects characters that compatibility normalization turns into delimiters.
def checkNetloc [Unicode] (netloc : PyStr) : Except PyError Unit :=
  let n := PyStr.remove ['@', ':', '#', '?'] netloc
  let netloc2 := nfkc n
  if netloc.all (CodePoint.satisfies Str.isAscii) ∨ n = netloc2 then
    .ok ()
  else if ['/', '?', '#', '@', ':'].any fun c => .scalar c ∈ netloc2 then
    .error (PyStr.valueError (ofString "netloc '" ++ netloc ++
      ofString "' contains invalid characters under NFKC normalization"))
  else
    .ok ()

def splitNetloc (url : PyStr) : PyStr × PyStr :=
  url.span fun c => !c.satisfies fun c => c ∈ ['/', '?', '#']

def splitScheme [Unicode] (url : PyStr) : PyStr × PyStr :=
  let (scheme, found, rest) := PyStr.partition ':' url
  if found ∧ (scheme.head?.map (CodePoint.satisfies isAlpha)).getD false ∧
      scheme.all (CodePoint.satisfies isSchemeChar) then
    (PyStr.lower scheme, rest)
  else
    ([], url)

def urlsplit [Unicode] (url : PyStr) : Except PyError SplitResult := do
  let url := PyStr.remove ['\t', '\r', '\n']
    (url.dropWhile (CodePoint.satisfies isC0ControlOrSpace))
  let (scheme, url) := splitScheme url
  let (netloc, url) :=
    if url.take 2 = ofString "//" then splitNetloc (url.drop 2) else ([], url)
  if (.scalar '[' ∈ netloc) ≠ (.scalar ']' ∈ netloc) then
    throw (PyStr.valueError (ofString "Invalid IPv6 URL"))
  else
    if .scalar '[' ∈ netloc then
      checkBracketedNetloc netloc
    let (url, _, fragment) := PyStr.partition '#' url
    let (url, _, query) := PyStr.partition '?' url
    checkNetloc netloc
    return ⟨scheme, netloc, url, query, fragment⟩

namespace SplitResult

-- The host and the text of the port.
def hostinfo (parts : SplitResult) : PyStr × Option PyStr :=
  let (_, _, hostinfo) := PyStr.rpartition '@' parts.netloc
  let (_, haveOpenBr, bracketed) := PyStr.partition '[' hostinfo
  let (hostname, port) :=
    if haveOpenBr then
      let (hostname, _, rest) := PyStr.partition ']' bracketed
      (hostname, (PyStr.partition ':' rest).2.2)
    else
      let (hostname, _, port) := PyStr.partition ':' hostinfo
      (hostname, port)
  (hostname, if port = [] then none else some port)

-- The zone of a scoped address keeps its case.
def hostname [Unicode] (parts : SplitResult) : Option PyStr :=
  let hostname := parts.hostinfo.1
  if hostname = [] then
    none
  else
    let (hostname, percent, zone) := PyStr.partition '%' hostname
    some (PyStr.lower hostname ++ (if percent then [.scalar '%'] else []) ++ zone)

-- `int` refuses to read more than 4300 digits.
def port [Unicode] (parts : SplitResult) : Except PyError (Option Nat) :=
  match parts.hostinfo.2 with
  | none => .ok none
  | some port =>
      if ¬ port.all (CodePoint.satisfies isDigit) then
        .error (PyStr.valueError (ofString "Port could not be cast to integer value as " ++
          ofChars (PyStr.repr port)))
      else if port.length > 4300 then
        .error (PyStr.valueError (ofString (
          "Exceeds the limit (4300 digits) for integer string conversion: value has " ++
          toString port.length ++
          " digits; use sys.set_int_max_str_digits() to increase the limit")))
      else if Nat.ofDigitChars 10 port.scalars 0 > 65535 then
        .error (PyStr.valueError (ofString "Port out of range 0-65535"))
      else
        .ok (some (Nat.ofDigitChars 10 port.scalars 0))

end SplitResult

-- Only runs of ASCII characters are read for escapes.
def unquote (s : PyStr) : PyStr :=
  if .scalar '%' ∉ s then
    s
  else
    (s.splitBy fun a b => a.satisfies Str.isAscii == b.satisfies Str.isAscii).flatMap fun run =>
      if run.all (CodePoint.satisfies Str.isAscii) then
        ofChars (Utf8.decode (unquoteToBytes (PyStr.scalars run)))
      else
        run

def unquotePlus (s : PyStr) : PyStr := unquote (PyStr.replace '+' ' ' s)

-- The fields of a query, blank values kept.
def parseQsl (qs : PyStr) : List (PyStr × PyStr) :=
  ((qs.splitOn (.scalar '&')).filter fun nameValue => nameValue ≠ []).map fun nameValue =>
    let (name, _, value) := PyStr.partition '=' nameValue
    (unquotePlus name, unquotePlus value)

-- A surrogate cannot be quoted.
def quotePlus (s : PyStr) : Except PyError PyStr := do
  let bytes ← s.encode
  return ofChars (bytes.flatMap quoteByte)

def quoteField (field : PyStr × PyStr) : Except PyError PyStr := do
  let name ← quotePlus field.1
  let value ← quotePlus field.2
  return name ++ [.scalar '='] ++ value

def urlencode (query : List (PyStr × PyStr)) : Except PyError PyStr := do
  let fields ← query.mapM quoteField
  return [.scalar '&'].intercalate fields

-- Of a URL with a host and no fragment.
def urlunsplit (scheme netloc path query : PyStr) : PyStr :=
  let path := if path ≠ [] ∧ path.head? ≠ some (.scalar '/') then .scalar '/' :: path else path
  let url := scheme ++ ofString "://" ++ netloc ++ path
  if query = [] then url else url ++ [.scalar '?'] ++ query

theorem quoteField_returns (field : PyStr × PyStr) :
    Returns (quoteField field) ↔ field.1.Encodable ∧ field.2.Encodable := by
  have hquote : ∀ s : PyStr, Returns (quotePlus s) ↔ s.Encodable := by
    intro s
    unfold quotePlus
    rw [returns_bind, ← encode_returns]
    exact exists_congr fun bytes => and_iff_left (returns_ok _)
  rw [← hquote, ← hquote]
  unfold quoteField
  rw [returns_bind]
  constructor
  · intro ⟨name, hname, hrest⟩
    obtain ⟨value, hvalue, -⟩ := (returns_bind _ _).mp hrest
    exact ⟨⟨name, hname⟩, value, hvalue⟩
  · intro ⟨⟨name, hname⟩, value, hvalue⟩
    exact ⟨name, hname, (returns_bind _ _).mpr ⟨value, hvalue, returns_ok _⟩⟩

theorem urlencode_returns (query : List (PyStr × PyStr)) :
    Returns (urlencode query) ↔ ∀ field ∈ query, field.1.Encodable ∧ field.2.Encodable := by
  unfold urlencode
  rw [returns_bind]
  refine Iff.trans (exists_congr fun fields => and_iff_left (returns_ok _)) ?_
  refine (mapM_returns quoteField query).trans ?_
  exact forall₂_congr fun field _ => quoteField_returns field

end PyUrl

end AgentBoilerplate.Python
