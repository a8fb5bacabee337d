import AgentBoilerplate.Effects.Program

namespace AgentBoilerplate

-- An identifier is known by its text; only equality is ever used.
structure Uuid where
  text : String
deriving DecidableEq, Repr

instance : ToString Uuid := ⟨Uuid.text⟩

-- Instants and durations are integers: nanoseconds, from any fixed origin.
namespace Duration

def seconds (n : Int) : Int := n * 1000000000
def minutes (n : Int) : Int := seconds (n * 60)
def hours (n : Int) : Int := seconds (n * 3600)
def days (n : Int) : Int := seconds (n * 86400)

end Duration

-- `trunc_subsecs(6)`: what the domain keeps of a clock reading.
def truncSubsecs6 (instant : Int) : Int := instant - instant % 1000

theorem truncSubsecs6_le (instant : Int) : truncSubsecs6 instant ≤ instant := by
  unfold truncSubsecs6
  omega

theorem truncSubsecs6_mod (instant : Int) : truncSubsecs6 instant % 1000 = 0 := by
  unfold truncSubsecs6
  omega

-- `domain::ports::PortError`.
structure PortError where
  message : String
deriving DecidableEq, Repr

-- The two implementations of the persistence ports.
inductive Adapter where
  | inMemory
  | postgres
deriving DecidableEq, Repr

-- What a timestamp keeps when it is stored or compared: the database works in
-- whole microseconds.
def Adapter.timestamp (adapter : Adapter) (instant : Int) : Int :=
  match adapter with
  | .inMemory => instant
  | .postgres => truncSubsecs6 instant

-- `str::trim` removes the characters with the Unicode property White_Space.
def isWhitespace (c : Char) : Bool :=
  (0x9 ≤ c.val ∧ c.val ≤ 0xD) ∨ c.val = 0x20 ∨ c.val = 0x85 ∨ c.val = 0xA0 ∨ c.val = 0x1680 ∨
    (0x2000 ≤ c.val ∧ c.val ≤ 0x200A) ∨ c.val = 0x2028 ∨ c.val = 0x2029 ∨ c.val = 0x202F ∨
    c.val = 0x205F ∨ c.val = 0x3000

def trimChars (chars : List Char) : List Char :=
  ((chars.dropWhile isWhitespace).reverse.dropWhile isWhitespace).reverse

def trim (text : String) : String := String.ofList (trimChars text.toList)

def Trimmed (text : String) : Prop := trim text = text

end AgentBoilerplate
