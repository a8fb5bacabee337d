import Mathlib.Data.List.DropRight
import Mathlib.Tactic.Common

namespace AgentBoilerplate.Python

-- A raised exception: its class, and what `str` makes of it.
structure PyException where
  type : String
  message : String
deriving DecidableEq, Repr

def valueError (message : String) : PyException := ⟨"ValueError", message⟩

-- What `except ValueError` catches.
def PyException.isValueError (exc : PyException) : Bool :=
  exc.type ∈ ["ValueError", "JSONDecodeError", "UnicodeError", "UnicodeEncodeError",
    "UnicodeDecodeError"]

@[simp] theorem valueError_isValueError (message : String) :
    (valueError message).isValueError = true := rfl

-- What the interpreter looks up in the tables of its Unicode version.
class Unicode where
  lower : List Char → List Char
  nfkc : List Char → List Char
  isPrintable : Char → Bool

-- Strings are lists of characters here.
namespace Str

def isAscii (c : Char) : Bool := c.val < 0x80

-- `str.isspace` of one character.
def isSpace (c : Char) : Bool :=
  (0x9 ≤ c.val ∧ c.val ≤ 0xD) ∨ (0x1C ≤ c.val ∧ c.val ≤ 0x20) ∨ c.val = 0x85 ∨ c.val = 0xA0 ∨
    c.val = 0x1680 ∨ (0x2000 ≤ c.val ∧ c.val ≤ 0x200A) ∨ c.val = 0x2028 ∨ c.val = 0x2029 ∨
    c.val = 0x202F ∨ c.val = 0x205F ∨ c.val = 0x3000

def strip (p : Char → Bool) (s : List Char) : List Char := (s.dropWhile p).rdropWhile p

-- The text before the first separator, whether there is one, the text after it.
def partition (sep : Char) : List Char → List Char × Bool × List Char
  | [] => ([], false, [])
  | c :: rest =>
      if c = sep then
        ([], true, rest)
      else
        let (before, found, after) := partition sep rest
        (c :: before, found, after)

def rpartition (sep : Char) (s : List Char) : List Char × Bool × List Char :=
  let (after, found, before) := partition sep s.reverse
  if found then
    (before.reverse, true, after.reverse)
  else
    ([], false, s)

def replace (old new : Char) (s : List Char) : List Char := s.map fun c => if c = old then new else c

def remove (old : List Char) (s : List Char) : List Char := s.filter fun c => c ∉ old

-- The order of `<=` on strings, by code points.
def le : List Char → List Char → Bool
  | [], _ => true
  | _ :: _, [] => false
  | a :: as, b :: bs => if a = b then le as bs else a.val < b.val

-- The order of `<=` on pairs of strings.
def pairLe (a b : List Char × List Char) : Bool := if a.1 = b.1 then le a.2 b.2 else le a.1 b.1

def hexDigit (upper : Bool) (n : Nat) : Char :=
  if n < 10 then
    Char.ofNat (0x30 + n)
  else
    Char.ofNat ((if upper then 0x41 else 0x61) + (n - 10))

-- The last `width` hexadecimal digits.
def hex (upper : Bool) : Nat → Nat → List Char
  | 0, _ => []
  | width + 1, n => hex upper width (n / 16) ++ [hexDigit upper (n % 16)]

-- `repr` of one character inside the quote `quote`.
def reprChar [Unicode] (quote c : Char) : List Char :=
  if c = quote ∨ c = '\\' then ['\\', c]
  else if c = '\t' then ['\\', 't']
  else if c = '\n' then ['\\', 'n']
  else if c = '\r' then ['\\', 'r']
  else if c.val < 0x20 ∨ c.val = 0x7F then ['\\', 'x'] ++ hex false 2 c.toNat
  else if isAscii c ∨ Unicode.isPrintable c then [c]
  else if c.val < 0x100 then ['\\', 'x'] ++ hex false 2 c.toNat
  else if c.val < 0x10000 then ['\\', 'u'] ++ hex false 4 c.toNat
  else ['\\', 'U'] ++ hex false 8 c.toNat

def repr [Unicode] (s : List Char) : List Char :=
  let quote := if '\'' ∈ s ∧ '"' ∉ s then '"' else '\''
  [quote] ++ s.flatMap (reprChar quote) ++ [quote]

end Str

namespace Utf8

def encode (s : List Char) : List UInt8 := s.flatMap String.utf8EncodeChar

-- A started sequence: the bytes still due, the bits so far, and the range of
-- the next byte.
structure Pending where
  due : Nat
  bits : Nat
  low : UInt8
  high : UInt8
deriving DecidableEq, Repr

def replacement : Char := Char.ofNat 0xFFFD

def start (b : UInt8) : List Char × Option Pending :=
  if b < 0x80 then ([Char.ofNat b.toNat], none)
  else if 0xC2 ≤ b ∧ b ≤ 0xDF then ([], some ⟨1, b.toNat % 0x20, 0x80, 0xBF⟩)
  else if b = 0xE0 then ([], some ⟨2, 0, 0xA0, 0xBF⟩)
  else if b = 0xED then ([], some ⟨2, 0xD, 0x80, 0x9F⟩)
  else if 0xE1 ≤ b ∧ b ≤ 0xEF then ([], some ⟨2, b.toNat % 0x10, 0x80, 0xBF⟩)
  else if b = 0xF0 then ([], some ⟨3, 0, 0x90, 0xBF⟩)
  else if 0xF1 ≤ b ∧ b ≤ 0xF3 then ([], some ⟨3, b.toNat % 0x8, 0x80, 0xBF⟩)
  else if b = 0xF4 then ([], some ⟨3, 4, 0x80, 0x8F⟩)
  else ([replacement], none)

-- A byte out of range ends the sequence with one replacement character, and
-- starts anew.
def step : Option Pending → UInt8 → List Char × Option Pending
  | none, b => start b
  | some p, b =>
      if p.low ≤ b ∧ b ≤ p.high then
        let bits := p.bits * 0x40 + b.toNat % 0x40
        if p.due = 1 then
          ([Char.ofNat bits], none)
        else
          ([], some ⟨p.due - 1, bits, 0x80, 0xBF⟩)
      else
        (replacement :: (start b).1, (start b).2)

-- `bytes.decode("utf-8", "replace")`.
def decodeFrom : Option Pending → List UInt8 → List Char
  | none, [] => []
  | some _, [] => [replacement]
  | pending, b :: rest => (step pending b).1 ++ decodeFrom (step pending b).2 rest

def decode (bytes : List UInt8) : List Char := decodeFrom none bytes

end Utf8

end AgentBoilerplate.Python
