import AgentBoilerplate.Python.Str

namespace AgentBoilerplate.Python.UrlParse

-- What normalizing a URL uses of `urllib.parse`, as of Python 3.12.

structure SplitResult where
  scheme : List Char
  netloc : List Char
  path : List Char
  query : List Char
  fragment : List Char
deriving DecidableEq, Repr

def isC0ControlOrSpace (c : Char) : Bool := c.val ≤ 0x20

def isAlpha (c : Char) : Bool := ('a' ≤ c ∧ c ≤ 'z') ∨ ('A' ≤ c ∧ c ≤ 'Z')

def isDigit (c : Char) : Bool := '0' ≤ c ∧ c ≤ '9'

def isHexDigit (c : Char) : Bool := isDigit c ∨ ('a' ≤ c ∧ c ≤ 'f') ∨ ('A' ≤ c ∧ c ≤ 'F')

def isSchemeChar (c : Char) : Bool := isAlpha c ∨ isDigit c ∨ c = '+' ∨ c = '-' ∨ c = '.'

-- An octet of a dotted address: no leading zero, at most 255.
def isOctet (s : List Char) : Bool :=
  s ≠ [] ∧ s.all isDigit ∧ s.length ≤ 3 ∧ (s.length = 1 ∨ s.head? ≠ some '0') ∧
    Nat.ofDigitChars 10 s 0 ≤ 255

def isIpv4 (s : List Char) : Bool := (s.splitOn '.').length = 4 ∧ (s.splitOn '.').all isOctet

def isHextet (s : List Char) : Bool := s ≠ [] ∧ s.all isHexDigit ∧ s.length ≤ 4

-- A dotted last part counts as two hextets.
def ipv6Parts (s : List Char) : Option (List (List Char)) :=
  let parts := s.splitOn ':'
  match parts.getLast? with
  | some last =>
      if '.' ∈ last then
        if isIpv4 last then some (parts.dropLast ++ [['0'], ['0']]) else none
      else
        some parts
  | none => none

-- The hextets before and after the run of zeros that an inner empty part stands
-- for. An empty first or last part must belong to that run.
def isIpv6Address (s : List Char) : Bool :=
  match ipv6Parts s with
  | none => false
  | some parts =>
      let inner := parts.tail.dropLast
      if (s.splitOn ':').length < 3 ∨ parts.length > 9 then
        false
      else if inner.count [] > 1 then
        false
      else if [] ∈ inner then
        let skip := inner.idxOf [] + 1
        let high := if parts.take skip = [[]] then [] else parts.take skip
        let low := if parts.drop (skip + 1) = [[]] then [] else parts.drop (skip + 1)
        high.length + low.length < 8 ∧ high.all isHextet ∧ low.all isHextet
      else
        parts.length = 8 ∧ parts.all isHextet

-- `ipaddress.ip_address` on an address that is not dotted; the scope must not
-- be empty.
def isIpv6 (s : List Char) : Bool :=
  let (address, found, scope) := Str.partition '%' s
  '/' ∉ s ∧ isIpv6Address address ∧ (found → scope ≠ [] ∧ '%' ∉ scope)

-- `v` hexdigits `.` text, on one line.
def isIpvFuture (s : List Char) : Bool :=
  let rest := (s.drop 1).dropWhile isHexDigit
  s.head? = some 'v' ∧ rest.length < (s.drop 1).length ∧ rest.head? = some '.' ∧
    rest.drop 1 ≠ [] ∧ '\n' ∉ rest

def checkBracketedHost [Unicode] (hostname : List Char) : Except PyException Unit :=
  if hostname.head? = some 'v' then
    if isIpvFuture hostname then .ok () else .error (valueError "IPvFuture address is invalid")
  else if isIpv6 hostname then
    .ok ()
  else if isIpv4 hostname then
    .error (valueError "An IPv4 address cannot be in brackets")
  else
    .error (valueError
      (String.ofList (Str.repr hostname) ++ " does not appear to be an IPv4 or IPv6 address"))

-- No data before the bracket, nor between the bracket and the port.
def checkBracketedNetloc [Unicode] (netloc : List Char) : Except PyException Unit :=
  let (_, _, hostnameAndPort) := Str.rpartition '@' netloc
  let (beforeBracket, haveOpenBr, bracketed) := Str.partition '[' hostnameAndPort
  if haveOpenBr then
    let (hostname, _, port) := Str.partition ']' bracketed
    if beforeBracket ≠ [] then
      .error (valueError "Invalid IPv6 URL")
    else if port ≠ [] ∧ port.head? ≠ some ':' then
      .error (valueError "Invalid IPv6 URL")
    else
      checkBracketedHost hostname
  else
    checkBracketedHost (Str.partition ':' hostnameAndPort).1

-- Rejects characters that compatibility normalization turns into delimiters.
def checkNetloc [Unicode] (netloc : List Char) : Except PyException Unit :=
  let n := Str.remove ['@', ':', '#', '?'] netloc
  let netloc2 := Unicode.nfkc n
  if netloc.all Str.isAscii ∨ n = netloc2 then
    .ok ()
  else if ['/', '?', '#', '@', ':'].any fun c => c ∈ netloc2 then
    .error (valueError ("netloc '" ++ String.ofList netloc ++
      "' contains invalid characters under NFKC normalization"))
  else
    .ok ()

def splitNetloc (url : List Char) : List Char × List Char :=
  url.span fun c => c ∉ ['/', '?', '#']

def splitScheme [Unicode] (url : List Char) : List Char × List Char :=
  let (scheme, found, rest) := Str.partition ':' url
  if found ∧ (scheme.head?.map isAlpha).getD false ∧ scheme.all isSchemeChar then
    (Unicode.lower scheme, rest)
  else
    ([], url)

def urlsplit [Unicode] (url : List Char) : Except PyException SplitResult := do
  let url := Str.remove ['\t', '\r', '\n'] (url.dropWhile isC0ControlOrSpace)
  let (scheme, url) := splitScheme url
  let (netloc, url) := if url.take 2 = ['/', '/'] then splitNetloc (url.drop 2) else ([], url)
  if ('[' ∈ netloc) ≠ (']' ∈ netloc) then
    throw (valueError "Invalid IPv6 URL")
  else
    if '[' ∈ netloc then
      checkBracketedNetloc netloc
    let (url, _, fragment) := Str.partition '#' url
    let (url, _, query) := Str.partition '?' url
    checkNetloc netloc
    return ⟨scheme, netloc, url, query, fragment⟩

namespace SplitResult

-- The host and the text of the port.
def hostinfo (parts : SplitResult) : List Char × Option (List Char) :=
  let (_, _, hostinfo) := Str.rpartition '@' parts.netloc
  let (_, haveOpenBr, bracketed) := Str.partition '[' hostinfo
  let (hostname, port) :=
    if haveOpenBr then
      let (hostname, _, rest) := Str.partition ']' bracketed
      (hostname, (Str.partition ':' rest).2.2)
    else
      let (hostname, _, port) := Str.partition ':' hostinfo
      (hostname, port)
  (hostname, if port = [] then none else some port)

-- The zone of a scoped address keeps its case.
def hostname [Unicode] (parts : SplitResult) : Option (List Char) :=
  let hostname := parts.hostinfo.1
  if hostname = [] then
    none
  else
    let (hostname, percent, zone) := Str.partition '%' hostname
    some (Unicode.lower hostname ++ (if percent then ['%'] else []) ++ zone)

-- `int` refuses to read more than 4300 digits.
def port [Unicode] (parts : SplitResult) : Except PyException (Option Nat) :=
  match parts.hostinfo.2 with
  | none => .ok none
  | some port =>
      if ¬ port.all isDigit then
        .error (valueError ("Port could not be cast to integer value as " ++
          String.ofList (Str.repr port)))
      else if port.length > 4300 then
        .error (valueError ("Exceeds the limit (4300 digits) for integer string conversion: " ++
          "value has " ++ toString port.length ++
          " digits; use sys.set_int_max_str_digits() to increase the limit"))
      else if Nat.ofDigitChars 10 port 0 > 65535 then
        .error (valueError "Port out of range 0-65535")
      else
        .ok (some (Nat.ofDigitChars 10 port 0))

end SplitResult

def hexValue (c : Char) : Nat :=
  if isDigit c then c.toNat - 0x30
  else if 'a' ≤ c then c.toNat - 0x61 + 10
  else c.toNat - 0x41 + 10

-- Reads the escapes of a run of ASCII characters.
def unquoteToBytes : List Char → List UInt8
  | [] => []
  | '%' :: a :: b :: rest =>
      if isHexDigit a ∧ isHexDigit b then
        UInt8.ofNat (hexValue a * 16 + hexValue b) :: unquoteToBytes rest
      else
        0x25 :: unquoteToBytes (a :: b :: rest)
  | c :: rest => UInt8.ofNat c.toNat :: unquoteToBytes rest

def unquote (s : List Char) : List Char :=
  if '%' ∉ s then
    s
  else
    (s.splitBy fun a b => Str.isAscii a == Str.isAscii b).flatMap fun run =>
      if run.all Str.isAscii then Utf8.decode (unquoteToBytes run) else run

def unquotePlus (s : List Char) : List Char := unquote (Str.replace '+' ' ' s)

-- The fields of a query, blank values kept.
def parseQsl (qs : List Char) : List (List Char × List Char) :=
  ((qs.splitOn '&').filter fun nameValue => nameValue ≠ []).map fun nameValue =>
    let (name, _, value) := Str.partition '=' nameValue
    (unquotePlus name, unquotePlus value)

def isAlwaysSafe (b : UInt8) : Bool :=
  (0x41 ≤ b ∧ b ≤ 0x5A) ∨ (0x61 ≤ b ∧ b ≤ 0x7A) ∨ (0x30 ≤ b ∧ b ≤ 0x39) ∨ b = 0x5F ∨ b = 0x2E ∨
    b = 0x2D ∨ b = 0x7E

-- A space becomes a plus sign.
def quoteByte (b : UInt8) : List Char :=
  if isAlwaysSafe b then [Char.ofNat b.toNat]
  else if b = 0x20 then ['+']
  else '%' :: Str.hex true 2 b.toNat

def quotePlus (s : List Char) : List Char := (Utf8.encode s).flatMap quoteByte

def urlencode (query : List (List Char × List Char)) : List Char :=
  ['&'].intercalate (query.map fun (k, v) => quotePlus k ++ ['='] ++ quotePlus v)

-- Of a URL with a host and no fragment.
def urlunsplit (scheme netloc path query : List Char) : List Char :=
  let path := if path ≠ [] ∧ path.head? ≠ some '/' then '/' :: path else path
  let url := scheme ++ [':', '/', '/'] ++ netloc ++ path
  if query = [] then url else url ++ ['?'] ++ query

end AgentBoilerplate.Python.UrlParse
