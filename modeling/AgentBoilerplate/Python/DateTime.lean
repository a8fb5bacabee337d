import AgentBoilerplate.Python.Str

namespace AgentBoilerplate.Python

-- The years 1 to 9999, in microseconds since 1970-01-01T00:00.
def Representable (wall : Int) : Prop :=
  -62135596800000000 ≤ wall ∧ wall ≤ 253402300799999999

instance (wall : Int) : Decidable (Representable wall) :=
  inferInstanceAs (Decidable (_ ∧ _))

-- A `datetime`: what its clock shows, and its offset from UTC, absent if it is
-- naive.
structure DateTime where
  wall : Int
  offset : Option Int
  representable : Representable wall
deriving DecidableEq, Repr

namespace DateTime

def isNaive (value : DateTime) : Bool := value.offset.isNone

-- The instant of `timestamp`, exactly. A naive date is read as UTC.
def instant (value : DateTime) : Int := value.wall - value.offset.getD 0

-- `value.replace(tzinfo=UTC)`.
def replaceUtc (value : DateTime) : DateTime := { value with offset := some 0 }

-- `value.astimezone(UTC)`, of an aware date.
def astimezoneUtc (value : DateTime) : Except PyException DateTime :=
  if h : Representable value.instant then
    .ok ⟨value.instant, some 0, h⟩
  else
    .error ⟨"OverflowError", "date value out of range"⟩

end DateTime

end AgentBoilerplate.Python
