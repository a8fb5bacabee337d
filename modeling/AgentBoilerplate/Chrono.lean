import AgentBoilerplate.Basic

-- The date-time library: what its values can hold, and the operations that
-- refuse to leave that range.
namespace AgentBoilerplate.Chrono

-- Days before January 1 of a year, in the proleptic Gregorian calendar.
def daysBeforeYear (year : Int) : Int :=
  365 * (year - 1) + (year - 1) / 4 - (year - 1) / 100 + (year - 1) / 400

-- January 1 of a year, as an instant from 1970.
def startOfYear (year : Int) : Int := Duration.days (daysBeforeYear year - daysBeforeYear 1970)

def minYear : Int := -262143
def maxYear : Int := 262142

def Representable (instant : Int) : Prop :=
  startOfYear minYear ≤ instant ∧ instant < startOfYear (maxYear + 1)

instance (instant : Int) : Decidable (Representable instant) :=
  inferInstanceAs (Decidable (_ ∧ _))

-- `DateTime<Utc>`.
structure DateTime where
  instant : Int
  representable : Representable instant
deriving DecidableEq, Repr

-- `i64::MAX / 1000`.
def maxDeltaSecs : Int := 9223372036854775

-- `TimeDelta`, of whole seconds: its limits are counted in milliseconds.
structure TimeDelta where
  secs : Int
  bounded : -maxDeltaSecs ≤ secs ∧ secs ≤ maxDeltaSecs
deriving DecidableEq, Repr

namespace TimeDelta

def tryNew (secs : Int) : Option TimeDelta :=
  if h : -maxDeltaSecs ≤ secs ∧ secs ≤ maxDeltaSecs then some ⟨secs, h⟩ else none

def tryDays (days : Int) : Option TimeDelta := tryNew (days * 86400)

def fromStd (secs : Nat) : Option TimeDelta := tryNew secs

theorem tryNew_of_le {secs : Int} (h : 0 ≤ secs) (hle : secs ≤ maxDeltaSecs) :
    ∃ delta, tryNew secs = some delta ∧ delta.secs = secs := by
  have hbounded : -maxDeltaSecs ≤ secs ∧ secs ≤ maxDeltaSecs := ⟨by unfold maxDeltaSecs; omega, hle⟩
  exact ⟨⟨secs, hbounded⟩, dif_pos hbounded, rfl⟩

theorem secs_of_tryNew {secs : Int} {delta : TimeDelta} (h : tryNew secs = some delta) :
    delta.secs = secs := by
  unfold tryNew at h
  split at h
  · cases h
    rfl
  · cases h

end TimeDelta

namespace DateTime

def checkedAdd (date : DateTime) (delta : TimeDelta) : Option DateTime :=
  if h : Representable (date.instant + Duration.seconds delta.secs) then some ⟨_, h⟩ else none

def checkedSub (date : DateTime) (delta : TimeDelta) : Option DateTime :=
  if h : Representable (date.instant - Duration.seconds delta.secs) then some ⟨_, h⟩ else none

-- `trunc_subsecs(6)` rounds down, and the range starts at a whole microsecond.
def truncSubsecs6 (date : DateTime) : DateTime where
  instant := AgentBoilerplate.truncSubsecs6 date.instant
  representable := by
    obtain ⟨hmin, hmax⟩ := date.representable
    have hle := truncSubsecs6_le date.instant
    have hlow : startOfYear minYear % 1000 = 0 := by decide
    refine ⟨?_, Int.lt_of_le_of_lt hle hmax⟩
    unfold AgentBoilerplate.truncSubsecs6
    omega

variable {date later : DateTime} {delta : TimeDelta}

theorem isSome_checkedAdd : (date.checkedAdd delta).isSome ↔
    Representable (date.instant + Duration.seconds delta.secs) := by
  unfold checkedAdd
  split <;> simp [*]

theorem isSome_checkedSub : (date.checkedSub delta).isSome ↔
    Representable (date.instant - Duration.seconds delta.secs) := by
  unfold checkedSub
  split <;> simp [*]

theorem instant_of_checkedAdd (h : date.checkedAdd delta = some later) :
    later.instant = date.instant + Duration.seconds delta.secs := by
  unfold checkedAdd at h
  split at h
  · cases h
    rfl
  · cases h

theorem instant_of_checkedSub (h : date.checkedSub delta = some later) :
    later.instant = date.instant - Duration.seconds delta.secs := by
  unfold checkedSub at h
  split at h
  · cases h
    rfl
  · cases h

end DateTime

end AgentBoilerplate.Chrono
