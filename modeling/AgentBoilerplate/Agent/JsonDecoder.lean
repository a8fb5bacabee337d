import AgentBoilerplate.Agent

namespace AgentBoilerplate.Agent.JsonDecoder

open Python

-- `json.loads`, as of Python 3.12. Messages come without their position.

def decodeError (message : String) : PyException := ⟨"JSONDecodeError", message⟩

def recursionError (kind : String) : PyException :=
  ⟨"RecursionError", "maximum recursion depth exceeded while decoding a JSON " ++ kind ++
    " from a unicode string"⟩

def isWhitespace (c : Char) : Bool := c = ' ' ∨ c = '\t' ∨ c = '\n' ∨ c = '\r'

def isDigit (c : Char) : Bool := '0' ≤ c ∧ c ≤ '9'

def hexValue (c : Char) : Option Nat :=
  if isDigit c then some (c.toNat - 0x30)
  else if 'a' ≤ c ∧ c ≤ 'f' then some (c.toNat - 0x61 + 10)
  else if 'A' ≤ c ∧ c ≤ 'F' then some (c.toNat - 0x41 + 10)
  else none

def codeUnit (digits : List Char) : Option Nat :=
  digits.foldlM (fun unit c => (hexValue c).map fun digit => unit * 16 + digit) 0

def isHighSurrogate (unit : Nat) : Bool := 0xD800 ≤ unit ∧ unit ≤ 0xDBFF

def isLowSurrogate (unit : Nat) : Bool := 0xDC00 ≤ unit ∧ unit ≤ 0xDFFF

-- A surrogate without its pair has no character here.
def charOfUnit (unit : Nat) : Char :=
  if isHighSurrogate unit ∨ isLowSurrogate unit then Utf8.replacement else Char.ofNat unit

def joinSurrogates (high low : Nat) : Char :=
  Char.ofNat (0x10000 + (high - 0xD800) * 0x400 + (low - 0xDC00))

def unescape (c : Char) : Option Char :=
  if c = '"' ∨ c = '\\' ∨ c = '/' then some c
  else if c = 'b' then some (Char.ofNat 0x8)
  else if c = 'f' then some (Char.ofNat 0xC)
  else if c = 'n' then some '\n'
  else if c = 'r' then some '\r'
  else if c = 't' then some '\t'
  else none

-- An escape, after its backslash: its character, and how much of the text it is.
def scanEscape : List Char → Except PyException (Char × Nat)
  | [] => .error (decodeError "Unterminated string starting at")
  | 'u' :: text =>
      match codeUnit (text.take 4) with
      | none => .error (decodeError "Invalid \\uXXXX escape")
      | some unit =>
          let rest := text.drop 4
          if text.length ≤ 4 then
            .error (decodeError "Invalid \\uXXXX escape")
          else if isHighSurrogate unit ∧ rest.take 2 = ['\\', 'u'] ∧ rest.length > 6 then
            match codeUnit ((rest.drop 2).take 4) with
            | none => .error (decodeError "Invalid \\uXXXX escape")
            | some low =>
                if isLowSurrogate low then .ok (joinSurrogates unit low, 11)
                else .ok (charOfUnit unit, 5)
          else
            .ok (charOfUnit unit, 5)
  | c :: _ =>
      match unescape c with
      | some c => .ok (c, 1)
      | none => .error (decodeError "Invalid \\escape: ")

-- A string, after its opening quote.
def scanstring (text : List Char) : Except PyException (List Char × List Char) :=
  match text with
  | [] => .error (decodeError "Unterminated string starting at")
  | '"' :: rest => .ok ([], rest)
  | '\\' :: rest => do
      let (c, length) ← scanEscape rest
      let (chars, last) ← scanstring (rest.drop length)
      return (c :: chars, last)
  | c :: rest =>
      if c.val ≤ 0x1F then
        .error (decodeError "Invalid control character at")
      else do
        let (chars, last) ← scanstring rest
        return (c :: chars, last)
termination_by text.length
decreasing_by
  · simp only [List.length_drop, List.length_cons]
    omega
  · simp only [List.length_cons]
    omega

-- What is left of a text is a proper suffix of it.
structure Shorter (rest text : List Char) : Prop where
  suffix : rest <:+ text
  length : rest.length < text.length

theorem Shorter.trans {first second third : List Char} (h : Shorter first second)
    (h' : second <:+ third) : Shorter first third :=
  ⟨h.suffix.trans h', h.length.trans_le h'.length_le⟩

theorem Shorter.of_suffix {first second third : List Char} (h : Shorter second third)
    (h' : first <:+ second) : Shorter first third :=
  ⟨h'.trans h.suffix, h'.length_le.trans_lt h.length⟩

theorem shorter_cons {rest text : List Char} (c : Char) (h : rest <:+ text) :
    Shorter rest (c :: text) :=
  ⟨h.trans (List.suffix_cons c text), Nat.lt_succ_of_le h.length_le⟩

def Shrinks {α : Type} (run : List Char → Except PyException (α × List Char)) : Prop :=
  ∀ text value rest, run text = .ok (value, rest) → Shorter rest text

-- What reads a value off the start of a text.
structure Scanner (α : Type) where
  run : List Char → Except PyException (α × List Char)
  shrinks : Shrinks run

theorem scanstring_shrinks : Shrinks scanstring := by
  intro text value rest h
  fun_induction scanstring text generalizing value rest with
  | case1 => cases h
  | case2 text =>
      cases h
      exact shorter_cons _ (List.suffix_refl text)
  | case3 text ih =>
      cases hescape : scanEscape text with
      | error e =>
          rw [hescape] at h
          cases h
      | ok escape =>
          obtain ⟨c, length⟩ := escape
          cases hlast : scanstring (text.drop length) with
          | error e =>
              rw [hescape] at h
              simp only [bind, Except.bind, hlast] at h
              cases h
          | ok last =>
              rw [hescape] at h
              simp only [bind, Except.bind, hlast] at h
              cases h
              have hshorter := ih length _ _ hlast
              exact shorter_cons _ (hshorter.suffix.trans (List.drop_suffix length text))
  | case4 => cases h
  | case5 c text hquote hbackslash hcontrol ih =>
      cases hlast : scanstring text with
      | error e =>
          simp only [bind, Except.bind, hlast] at h
          cases h
      | ok last =>
          simp only [bind, Except.bind, hlast] at h
          cases h
          exact shorter_cons _ (ih _ _ hlast).suffix

-- The digits after a point, and an exponent, if there are any.
def scanFraction : List Char → List Char
  | '.' :: rest =>
      let digits := rest.takeWhile isDigit
      if digits = [] then [] else '.' :: digits
  | _ => []

def scanExponent : List Char → List Char
  | e :: rest =>
      if e = 'e' ∨ e = 'E' then
        let sign := (rest.take 1).filter fun c => c = '-' ∨ c = '+'
        let digits := (rest.drop sign.length).takeWhile isDigit
        if digits = [] then [] else e :: sign ++ digits
      else
        []
  | [] => []

structure Number where
  sign : List Char
  digits : List Char
  fraction : List Char
  exponent : List Char

def Number.text (number : Number) : List Char :=
  number.sign ++ number.digits ++ number.fraction ++ number.exponent

def readNumber (text : List Char) : Number :=
  let sign := (text.take 1).filter fun c => c = '-'
  let unsigned := text.drop sign.length
  let digits := if unsigned.head? = some '0' then ['0'] else unsigned.takeWhile isDigit
  let fraction := scanFraction (unsigned.drop digits.length)
  ⟨sign, digits, fraction, scanExponent (unsigned.drop (digits.length + fraction.length))⟩

-- `_match_number_unicode`. An integer of more than 4300 digits is refused.
def matchNumber (text : List Char) : Except PyException (Json × List Char) :=
  let number := readNumber text
  if number.digits = [] then
    .error (decodeError "Expecting value")
  else if number.fraction = [] ∧ number.exponent = [] ∧ number.digits.length > 4300 then
    .error (valueError ("Exceeds the limit (4300 digits) for integer string conversion: value has " ++
      toString number.digits.length ++
      " digits; use sys.set_int_max_str_digits() to increase the limit"))
  else
    .ok (.number (String.ofList number.text), text.drop number.text.length)

theorem shorter_drop {text : List Char} {count : Nat} (hcount : 0 < count) (htext : text ≠ []) :
    Shorter (text.drop count) text := by
  have hpos := List.length_pos_of_ne_nil htext
  refine ⟨List.drop_suffix count text, ?_⟩
  rw [List.length_drop]
  omega

theorem matchNumber_shrinks : Shrinks matchNumber := by
  intro text value rest h
  have htext : text ≠ [] := by
    intro hnil
    rw [hnil] at h
    cases h
  unfold matchNumber at h
  dsimp only at h
  by_cases hdigits : (readNumber text).digits = []
  · rw [if_pos hdigits] at h
    cases h
  · rw [if_neg hdigits] at h
    have hpos := List.length_pos_of_ne_nil hdigits
    have hlength : 0 < (readNumber text).text.length := by
      simp only [Number.text, List.length_append]
      omega
    by_cases hlong : (readNumber text).fraction = [] ∧ (readNumber text).exponent = [] ∧
        (readNumber text).digits.length > 4300
    · rw [if_pos hlong] at h
      cases h
    · rw [if_neg hlong] at h
      cases h
      exact shorter_drop hlength htext

-- The names that are values; `NaN` and the infinities are numbers here.
def constants : List (List Char × Json) :=
  [("null".toList, .null), ("true".toList, .bool true), ("false".toList, .bool false),
    ("NaN".toList, .number "NaN"), ("Infinity".toList, .number "Infinity"),
    ("-Infinity".toList, .number "-Infinity")]

def scanConstant (text : List Char) : Except PyException (Json × List Char) :=
  match constants.find? fun constant => constant.1.isPrefixOf text with
  | some (name, value) => .ok (value, text.drop name.length)
  | none => matchNumber text

theorem constants_nonempty : ∀ constant ∈ constants, constant.1 ≠ [] := by
  simp [constants]

theorem scanConstant_shrinks : Shrinks scanConstant := by
  intro text value rest h
  unfold scanConstant at h
  cases hfind : constants.find? fun constant => constant.1.isPrefixOf text with
  | none =>
      rw [hfind] at h
      exact matchNumber_shrinks text value rest h
  | some constant =>
      rw [hfind] at h
      cases h
      have hname := constants_nonempty constant (List.mem_of_find?_eq_some hfind)
      have hmatch : constant.1.isPrefixOf text = true := by
        have hsome := List.find?_some hfind
        exact hsome
      have hprefix := List.isPrefixOf_iff_prefix.mp hmatch
      refine shorter_drop (List.length_pos_of_ne_nil hname) fun hnil => ?_
      rw [hnil, List.prefix_nil] at hprefix
      exact hname hprefix

section

variable {α : Type}

-- Values up to `close`, with commas between them.
def scanSeparated (item : Scanner α) (close : Char) (text : List Char) :
    Except PyException (List α × List Char) :=
  match _hitem : item.run text with
  | .error e => .error e
  | .ok (value, rest) =>
      match _hspace : rest.dropWhile isWhitespace with
      | [] => .error (decodeError "Expecting ',' delimiter")
      | c :: rest' =>
          if c = close then
            .ok ([value], rest')
          else if c = ',' then do
            let (values, last) ← scanSeparated item close (rest'.dropWhile isWhitespace)
            return (value :: values, last)
          else
            .error (decodeError "Expecting ',' delimiter")
termination_by text.length
decreasing_by
  have hlength := (item.shrinks _ _ _ _hitem).length
  have hsuffix := (List.dropWhile_suffix isWhitespace (l := rest)).length_le
  have hsuffix' := (List.dropWhile_suffix isWhitespace (l := rest')).length_le
  rw [_hspace, List.length_cons] at hsuffix
  omega

theorem Shorter.spaced {rest rest' text : List Char} {c : Char} (h : Shorter rest text)
    (hspace : rest.dropWhile isWhitespace = c :: rest') : Shorter rest' text := by
  have hsuffix := List.dropWhile_suffix isWhitespace (l := rest)
  rw [hspace] at hsuffix
  exact h.of_suffix ((List.suffix_cons c rest').trans hsuffix)

theorem scanSeparated_shrinks (item : Scanner α) (close : Char) :
    Shrinks (scanSeparated item close) := by
  intro text values last h
  fun_induction scanSeparated item close text generalizing values last with
  | case1 => cases h
  | case2 => cases h
  | case3 text value rest hitem rest' hspace =>
      cases h
      exact (item.shrinks _ _ _ hitem).spaced hspace
  | case4 text value rest hitem rest' hspace hclose ih =>
      have hshorter := (item.shrinks _ _ _ hitem).spaced hspace
      cases hlast : scanSeparated item close (rest'.dropWhile isWhitespace) with
      | error e =>
          rw [hlast] at h
          cases h
      | ok later =>
          rw [hlast] at h
          cases h
          exact (ih _ _ hlast).trans ((List.dropWhile_suffix isWhitespace).trans hshorter.suffix)
  | case5 => cases h

-- What is between brackets, if anything.
def scanEnclosed (item : Scanner α) (close : Char) (text : List Char) :
    Except PyException (List α × List Char) :=
  match text.dropWhile isWhitespace with
  | [] => scanSeparated item close []
  | c :: rest => if c = close then .ok ([], rest) else scanSeparated item close (c :: rest)

theorem scanEnclosed_suffix (item : Scanner α) (close : Char) {text last : List Char}
    {values : List α} (h : scanEnclosed item close text = .ok (values, last)) : last <:+ text := by
  have hspace := List.dropWhile_suffix isWhitespace (l := text)
  unfold scanEnclosed at h
  cases htext : text.dropWhile isWhitespace with
  | nil =>
      rw [htext] at h hspace
      exact (scanSeparated_shrinks item close _ _ _ h).suffix.trans hspace
  | cons c rest =>
      rw [htext] at h hspace
      dsimp only at h
      by_cases hclose : c = close
      · rw [if_pos hclose] at h
        cases h
        exact (List.suffix_cons c last).trans hspace
      · rw [if_neg hclose] at h
        exact (scanSeparated_shrinks item close _ _ _ h).suffix.trans hspace

end

-- A member of an object: its name, a colon and its value.
def scanMember (item : Scanner Json) (text : List Char) :
    Except PyException ((String × Json) × List Char) :=
  match text with
  | '"' :: rest => do
      let (name, rest) ← scanstring rest
      match rest.dropWhile isWhitespace with
      | ':' :: rest => do
          let (value, rest) ← item.run (rest.dropWhile isWhitespace)
          return ((String.ofList name, value), rest)
      | _ => .error (decodeError "Expecting ':' delimiter")
  | _ => .error (decodeError "Expecting property name enclosed in double quotes")

theorem scanMember_shrinks (item : Scanner Json) : Shrinks (scanMember item) := by
  intro text value last h
  unfold scanMember at h
  split at h
  · rename_i rest
    cases hname : scanstring rest with
    | error e =>
        rw [hname] at h
        cases h
    | ok named =>
        obtain ⟨name, named⟩ := named
        have hshorter := scanstring_shrinks rest name named hname
        rw [hname] at h
        simp only [bind, Except.bind] at h
        split at h
        · rename_i colon hcolon
          have hrest := hshorter.spaced hcolon
          cases hvalue : item.run (colon.dropWhile isWhitespace) with
          | error e =>
              rw [hvalue] at h
              cases h
          | ok scanned =>
              rw [hvalue] at h
              cases h
              have hlast := (item.shrinks _ _ _ hvalue).suffix
              have hspace := hlast.trans (List.dropWhile_suffix isWhitespace)
              exact shorter_cons _ (hspace.trans hrest.suffix)
        · cases h
  · cases h

def memberScanner (item : Scanner Json) : Scanner (String × Json) :=
  ⟨scanMember item, scanMember_shrinks item⟩

-- `scan_once`. There is no `deeper` scanner where the interpreter allows no
-- further recursion.
def scanValue (deeper : Option (Scanner Json)) (text : List Char) :
    Except PyException (Json × List Char) :=
  match text with
  | '"' :: rest => do
      let (value, last) ← scanstring rest
      return (.string (String.ofList value), last)
  | '[' :: rest =>
      match deeper with
      | none => .error (recursionError "array")
      | some item => do
          let (items, last) ← scanEnclosed item ']' rest
          return (.array items, last)
  | '\x7b' :: rest =>
      match deeper with
      | none => .error (recursionError "object")
      | some item => do
          let (fields, last) ← scanEnclosed (memberScanner item) '\x7d' rest
          return (.object fields, last)
  | text => scanConstant text

theorem scanValue_shrinks (deeper : Option (Scanner Json)) : Shrinks (scanValue deeper) := by
  intro text value last h
  unfold scanValue at h
  split at h
  · rename_i rest
    cases hstring : scanstring rest with
    | error e =>
        rw [hstring] at h
        cases h
    | ok scanned =>
        rw [hstring] at h
        cases h
        exact shorter_cons _ (scanstring_shrinks _ _ _ hstring).suffix
  · rename_i rest
    cases deeper with
    | none => cases h
    | some item =>
        dsimp only at h
        cases hitems : scanEnclosed item ']' rest with
        | error e =>
            rw [hitems] at h
            cases h
        | ok scanned =>
            rw [hitems] at h
            cases h
            exact shorter_cons _ (scanEnclosed_suffix item ']' hitems)
  · rename_i rest
    cases deeper with
    | none => cases h
    | some item =>
        dsimp only at h
        cases hfields : scanEnclosed (memberScanner item) '\x7d' rest with
        | error e =>
            rw [hfields] at h
            cases h
        | ok scanned =>
            rw [hfields] at h
            cases h
            exact shorter_cons _ (scanEnclosed_suffix _ '\x7d' hfields)
  · exact scanConstant_shrinks _ _ _ h

-- The scanner that may nest arrays and objects so deep.
def scanner : Nat → Scanner Json
  | 0 => ⟨scanValue none, scanValue_shrinks none⟩
  | depth + 1 => ⟨scanValue (some (scanner depth)), scanValue_shrinks _⟩

-- `limit` is the nesting that the recursion limit of the interpreter allows.
def loads (limit : Nat) (text : List Char) : Except PyException Json :=
  if text.head? = some (Char.ofNat 0xFEFF) then
    .error (decodeError "Unexpected UTF-8 BOM (decode using utf-8-sig)")
  else do
    let (value, rest) ← (scanner limit).run (text.dropWhile isWhitespace)
    if rest.dropWhile isWhitespace = [] then
      return value
    else
      throw (decodeError "Extra data")

-- How much a text can nest.
def brackets (text : List Char) : Nat := text.countP fun c => c = '[' ∨ c = '\x7b'

theorem brackets_suffix {rest text : List Char} (h : rest <:+ text) : brackets rest ≤ brackets text :=
  h.sublist.countP_le

-- An error that `except ValueError` catches, or too much nesting.
def Fails (depth : Nat) (text : List Char) (e : PyException) : Prop :=
  e.isValueError = true ∨ (∃ kind, e = recursionError kind) ∧ depth < brackets text

theorem Fails.of_suffix {depth : Nat} {rest text : List Char} {e : PyException}
    (h : Fails depth rest e) (hsuffix : rest <:+ text) : Fails depth text e :=
  h.imp_right fun hdeep => ⟨hdeep.1, hdeep.2.trans_le (brackets_suffix hsuffix)⟩

theorem fails_decodeError (depth : Nat) (text : List Char) (message : String) :
    Fails depth text (decodeError message) := Or.inl rfl

theorem scanEscape_error {text : List Char} {e : PyException} (h : scanEscape text = .error e) :
    e.isValueError = true := by
  unfold scanEscape at h
  dsimp only at h
  repeat' split at h
  all_goals cases h
  all_goals rfl

theorem scanstring_error {text : List Char} {e : PyException} (h : scanstring text = .error e) :
    e.isValueError = true := by
  fun_induction scanstring text generalizing e with
  | case1 =>
      cases h
      rfl
  | case2 => cases h
  | case3 text ih =>
      cases hescape : scanEscape text with
      | error e' =>
          rw [hescape] at h
          cases h
          exact scanEscape_error hescape
      | ok escape =>
          obtain ⟨c, length⟩ := escape
          cases hlast : scanstring (text.drop length) with
          | error e' =>
              rw [hescape] at h
              simp only [bind, Except.bind, hlast] at h
              cases h
              exact ih length hlast
          | ok last =>
              rw [hescape] at h
              simp only [bind, Except.bind, hlast] at h
              cases h
  | case4 =>
      cases h
      rfl
  | case5 c text hquote hbackslash hcontrol ih =>
      cases hlast : scanstring text with
      | error e' =>
          simp only [bind, Except.bind, hlast] at h
          cases h
          exact ih hlast
      | ok last =>
          simp only [bind, Except.bind, hlast] at h
          cases h

theorem scanConstant_error {text : List Char} {e : PyException} (h : scanConstant text = .error e) :
    e.isValueError = true := by
  unfold scanConstant at h
  cases hfind : constants.find? fun constant => constant.1.isPrefixOf text with
  | some constant =>
      rw [hfind] at h
      cases h
  | none =>
      rw [hfind] at h
      dsimp only [matchNumber] at h
      by_cases hdigits : (readNumber text).digits = []
      · rw [if_pos hdigits] at h
        cases h
        rfl
      · rw [if_neg hdigits] at h
        split at h
        · cases h
          rfl
        · cases h

section

variable {α : Type} {depth : Nat}

def Scanner.FailsBelow (item : Scanner α) (depth : Nat) : Prop :=
  ∀ text e, item.run text = .error e → Fails depth text e

theorem scanSeparated_error {item : Scanner α} {close : Char} (hitem : item.FailsBelow depth)
    {text : List Char} {e : PyException} (h : scanSeparated item close text = .error e) :
    Fails depth text e := by
  fun_induction scanSeparated item close text generalizing e with
  | case1 text e' herror =>
      cases h
      exact hitem _ _ herror
  | case2 =>
      cases h
      exact fails_decodeError _ _ _
  | case3 => cases h
  | case4 text value rest hvalue rest' hspace hclose ih =>
      have hshorter := (item.shrinks _ _ _ hvalue).spaced hspace
      cases hlast : scanSeparated item close (rest'.dropWhile isWhitespace) with
      | error e' =>
          rw [hlast] at h
          cases h
          have hsuffix := (List.dropWhile_suffix isWhitespace (l := rest')).trans hshorter.suffix
          exact (ih hlast).of_suffix hsuffix
      | ok later =>
          rw [hlast] at h
          cases h
  | case5 =>
      cases h
      exact fails_decodeError _ _ _

theorem scanEnclosed_error {item : Scanner α} {close : Char} (hitem : item.FailsBelow depth)
    {text : List Char} {e : PyException} (h : scanEnclosed item close text = .error e) :
    Fails depth text e := by
  have hspace := List.dropWhile_suffix isWhitespace (l := text)
  unfold scanEnclosed at h
  cases htext : text.dropWhile isWhitespace with
  | nil =>
      rw [htext] at h hspace
      exact (scanSeparated_error hitem h).of_suffix hspace
  | cons c rest =>
      rw [htext] at h hspace
      dsimp only at h
      by_cases hclose : c = close
      · rw [if_pos hclose] at h
        cases h
      · rw [if_neg hclose] at h
        exact (scanSeparated_error hitem h).of_suffix hspace

end

theorem memberScanner_fails {depth : Nat} {item : Scanner Json} (hitem : item.FailsBelow depth) :
    (memberScanner item).FailsBelow depth := by
  intro text e h
  change scanMember item text = .error e at h
  unfold scanMember at h
  split at h
  · rename_i rest
    cases hname : scanstring rest with
    | error e' =>
        rw [hname] at h
        cases h
        exact Or.inl (scanstring_error hname)
    | ok named =>
        obtain ⟨name, named⟩ := named
        have hshorter := scanstring_shrinks rest name named hname
        rw [hname] at h
        simp only [bind, Except.bind] at h
        split at h
        · rename_i colon hcolon
          have hrest := hshorter.spaced hcolon
          cases hvalue : item.run (colon.dropWhile isWhitespace) with
          | error e' =>
              rw [hvalue] at h
              cases h
              have hsuffix := (List.dropWhile_suffix isWhitespace (l := colon)).trans hrest.suffix
              exact (hitem _ _ hvalue).of_suffix (hsuffix.trans (List.suffix_cons _ rest))
          | ok scanned =>
              rw [hvalue] at h
              cases h
        · cases h
          exact fails_decodeError _ _ _
  · cases h
    exact fails_decodeError _ _ _

-- A bracket uses up one level of the nesting.
theorem Fails.nested {depth : Nat} {text : List Char} {e : PyException} (h : Fails depth text e)
    {c : Char} (hc : c = '[' ∨ c = '\x7b') : Fails (depth + 1) (c :: text) e := by
  refine h.imp_right fun hdeep => ⟨hdeep.1, ?_⟩
  have hcount : brackets (c :: text) = brackets text + 1 :=
    List.countP_cons_of_pos (decide_eq_true hc)
  omega

theorem scanValue_error {depth : Nat} {deeper : Option (Scanner Json)}
    (hnone : deeper = none → depth = 0)
    (hsome : ∀ item, deeper = some item → ∃ below, depth = below + 1 ∧ item.FailsBelow below)
    {text : List Char} {e : PyException} (h : scanValue deeper text = .error e) :
    Fails depth text e := by
  have hdeep : ∀ (c : Char) (rest : List Char) (kind : String), c = '[' ∨ c = '\x7b' →
      deeper = none → Fails depth (c :: rest) (recursionError kind) := by
    intro c rest kind hc hdeeper
    have hcount : brackets (c :: rest) = brackets rest + 1 :=
      List.countP_cons_of_pos (decide_eq_true hc)
    have hzero := hnone hdeeper
    exact Or.inr ⟨⟨kind, rfl⟩, by omega⟩
  unfold scanValue at h
  split at h
  · rename_i rest
    cases hstring : scanstring rest with
    | error e' =>
        rw [hstring] at h
        cases h
        exact Or.inl (scanstring_error hstring)
    | ok scanned =>
        rw [hstring] at h
        cases h
  · rename_i rest
    cases deeper with
    | none =>
        cases h
        exact hdeep _ _ _ (Or.inl rfl) rfl
    | some item =>
        obtain ⟨below, rfl, hitem⟩ := hsome item rfl
        dsimp only at h
        cases hitems : scanEnclosed item ']' rest with
        | error e' =>
            rw [hitems] at h
            cases h
            exact (scanEnclosed_error hitem hitems).nested (Or.inl rfl)
        | ok scanned =>
            rw [hitems] at h
            cases h
  · rename_i rest
    cases deeper with
    | none =>
        cases h
        exact hdeep _ _ _ (Or.inr rfl) rfl
    | some item =>
        obtain ⟨below, rfl, hitem⟩ := hsome item rfl
        dsimp only at h
        cases hfields : scanEnclosed (memberScanner item) '\x7d' rest with
        | error e' =>
            rw [hfields] at h
            cases h
            exact (scanEnclosed_error (memberScanner_fails hitem) hfields).nested (Or.inr rfl)
        | ok scanned =>
            rw [hfields] at h
            cases h
  · exact Or.inl (scanConstant_error h)

theorem scanner_fails (depth : Nat) : (scanner depth).FailsBelow depth := by
  induction depth with
  | zero =>
      intro text e h
      change scanValue none text = .error e at h
      refine scanValue_error (fun _ => rfl) (fun item heq => ?_) h
      cases heq
  | succ depth ih =>
      intro text e h
      change scanValue (some (scanner depth)) text = .error e at h
      refine scanValue_error (fun heq => ?_) (fun item heq => ?_) h
      · cases heq
      · cases heq
        exact ⟨depth, rfl, ih⟩

-- The text nests deeper than the interpreter recurs.
def TooDeep (limit : Nat) (text : List Char) : Prop :=
  ∃ kind, loads limit text = .error (recursionError kind)

theorem loads_fails {limit : Nat} {text : List Char} {e : PyException}
    (h : loads limit text = .error e) : Fails limit text e := by
  unfold loads at h
  split at h
  · cases h
    exact fails_decodeError _ _ _
  · cases hrun : (scanner limit).run (text.dropWhile isWhitespace) with
    | error e' =>
        rw [hrun] at h
        cases h
        exact (scanner_fails limit _ _ hrun).of_suffix (List.dropWhile_suffix isWhitespace)
    | ok scanned =>
        rw [hrun] at h
        simp only [bind, Except.bind] at h
        split at h
        · cases h
        · cases h
          exact fails_decodeError _ _ _

-- Everything else that is wrong with a text is a `ValueError`.
theorem loads_error {limit : Nat} {text : List Char} {e : PyException}
    (h : loads limit text = .error e) : e.isValueError = false ↔ TooDeep limit text := by
  constructor
  · intro hother
    rcases loads_fails h with hvalue | ⟨⟨kind, rfl⟩, -⟩
    · rw [hvalue] at hother
      cases hother
    · exact ⟨kind, h⟩
  · rintro ⟨kind, hdeep⟩
    rw [hdeep] at h
    cases h
    rfl

theorem TooDeep.brackets {limit : Nat} {text : List Char} (h : TooDeep limit text) :
    limit < brackets text := by
  obtain ⟨kind, hdeep⟩ := h
  rcases loads_fails hdeep with hvalue | ⟨-, hcount⟩
  · cases hvalue
  · exact hcount

end AgentBoilerplate.Agent.JsonDecoder
