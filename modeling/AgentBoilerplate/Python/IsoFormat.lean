import AgentBoilerplate.Python.DateTime
import Mathlib.Algebra.GroupWithZero.Nat

namespace AgentBoilerplate.Python.IsoFormat

-- `datetime.fromisoformat`, as of Python 3.12. It reads the UTF-8 bytes of the
-- text, with zeros past their end.

def byteOf (c : Char) : UInt8 := UInt8.ofNat c.toNat

def isDigit (b : UInt8) : Bool := 0x30 ≤ b ∧ b ≤ 0x39

def parseDigits : Nat → Nat → List UInt8 → Option (Nat × List UInt8)
  | 0, value, s => some (value, s)
  | _ + 1, _, [] => none
  | width + 1, value, b :: rest =>
      if isDigit b then parseDigits width (value * 10 + (b.toNat - 0x30)) rest else none

def isLeap (year : Nat) : Bool := year % 4 = 0 ∧ (year % 100 ≠ 0 ∨ year % 400 = 0)

def daysInMonth (year month : Nat) : Nat :=
  if month = 2 ∧ isLeap year then 29
  else [31, 28, 31, 30, 31, 30, 31, 31, 30, 31, 30, 31].getD (month - 1) 0

def daysBeforeYear (year : Nat) : Nat :=
  (year - 1) * 365 + (year - 1) / 4 - (year - 1) / 100 + (year - 1) / 400

def daysBeforeMonth (year month : Nat) : Nat :=
  ((List.range (month - 1)).map fun earlier => daysInMonth year (earlier + 1)).sum

-- The first of January of the year 1 is day 1, a Monday.
def ymdToOrd (year month day : Nat) : Nat := daysBeforeYear year + daysBeforeMonth year month + day

def weekday (ordinal : Nat) : Nat := (ordinal + 6) % 7

def isoWeek1Monday (year : Nat) : Nat :=
  let firstDay := ymdToOrd year 1 1
  firstDay - weekday firstDay + if weekday firstDay > 3 then 7 else 0

inductive DateFields where
  | ymd (year month day : Nat)
  | week (year week day : Nat)
deriving DecidableEq, Repr

-- A week 53 is in the years that start on a Thursday, and in the leap years
-- that start on a Wednesday.
def isIsoWeek (year week day : Nat) : Bool :=
  let firstWeekday := weekday (ymdToOrd year 1 1)
  1 ≤ year ∧ 1 ≤ day ∧ day ≤ 7 ∧ 1 ≤ week ∧
    (week ≤ 52 ∨ week = 53 ∧ (firstWeekday = 3 ∨ firstWeekday = 2 ∧ isLeap year))

-- `parse_isoformat_date`, of the bytes before `len`.
def parseDate (s : List UInt8) (len : Nat) : Option DateFields := do
  let (year, s) ← parseDigits 4 0 s
  let usesSeparator : Bool := s.head? = some (byteOf '-')
  let s := if usesSeparator then s.drop 1 else s
  let position := if usesSeparator then 5 else 4
  if s.head? = some (byteOf 'W') then
    let (week, s) ← parseDigits 2 0 (s.drop 1)
    if position + 3 < len then
      if usesSeparator ∧ s.head? ≠ some (byteOf '-') then
        none
      else
        let (day, _) ← parseDigits 1 0 (if usesSeparator then s.drop 1 else s)
        if isIsoWeek year week day then some (.week year week day) else none
    else if isIsoWeek year week 1 then some (.week year week 1)
    else none
  else
    let (month, s) ← parseDigits 2 0 s
    if usesSeparator ∧ s.head? ≠ some (byteOf '-') then
      none
    else
      let (day, _) ← parseDigits 2 0 (if usesSeparator then s.drop 1 else s)
      some (.ymd year month day)

-- Hours, minutes and seconds, as far as they are given, and the microseconds.
structure Clock where
  values : List Nat
  microsecond : Nat := 0
deriving DecidableEq, Repr

def Clock.hour (clock : Clock) : Nat := clock.values.getD 0 0

def Clock.minute (clock : Clock) : Nat := clock.values.getD 1 0

def Clock.second (clock : Clock) : Nat := clock.values.getD 2 0

def Clock.seconds (clock : Clock) : Nat := clock.hour * 3600 + clock.minute * 60 + clock.second

-- At most six digits count. The flag says whether something else follows.
def parseFraction (values : List Nat) (s : List UInt8) (len : Nat) : Option (Clock × Bool) := do
  let width := min len 6
  let (fraction, rest) ← parseDigits width 0 s
  some (⟨values, fraction * 10 ^ (6 - width)⟩, (rest.dropWhile isDigit).headD 0 ≠ 0)

-- `parse_hh_mm_ss_ff`, of the next `len` bytes; the first component tells
-- whether the others are separated.
def parseComponents : Nat → Option Bool → List Nat → List UInt8 → Nat → Option (Clock × Bool)
  | 0, _, values, s, len => parseFraction values s len
  | count + 1, separated, values, s, len => do
      let (value, rest) ← parseDigits 2 0 s
      let c := rest.headD 0
      let hasSeparator := separated.getD (c = byteOf ':')
      let values := values ++ [value]
      if len ≤ 3 then some (⟨values, 0⟩, c ≠ 0)
      else if hasSeparator ∧ c = byteOf ':' then
        parseComponents count (some hasSeparator) values (rest.drop 1) (len - 3)
      else if c = byteOf '.' ∨ c = byteOf ',' then parseFraction values (rest.drop 1) (len - 3)
      else if ¬ hasSeparator then parseComponents count (some hasSeparator) values rest (len - 2)
      else none

def parseClock (s : List UInt8) (len : Nat) : Option (Clock × Bool) := parseComponents 3 none [] s len

-- A sign and the offset; none before microseconds count makes it UTC.
structure Zone where
  negative : Bool
  clock : Clock
deriving DecidableEq, Repr

-- The offset in microseconds. One of no seconds is UTC.
def Zone.offset (zone : Zone) : Int :=
  let size : Int := zone.clock.seconds * 1000000 + zone.clock.microsecond
  if zone.clock.seconds = 0 then 0 else if zone.negative then -size else size

def isZoneStart (b : UInt8) : Bool := b = byteOf '+' ∨ b = byteOf '-' ∨ b = byteOf 'Z'

-- `parse_isoformat_time`.
def parseTime (s : List UInt8) : Option (Clock × Option Zone) := do
  let (clock, left) ← parseClock s (s.findIdx isZoneStart)
  match s.drop (s.findIdx isZoneStart) with
  | [] => if left then none else some (clock, none)
  | sign :: rest =>
      if sign = byteOf 'Z' then
        if rest.headD 0 ≠ 0 then none else some (clock, some ⟨false, ⟨[], 0⟩⟩)
      else
        let (offset, left) ← parseClock rest rest.length
        if left then none else some (clock, some ⟨sign = byteOf '-', offset⟩)

-- `_find_isoformat_datetime_separator`.
def findSeparator (s : List UInt8) : Option Nat :=
  let isDash (i : Nat) : Bool := s.getD i 0 = byteOf '-'
  let isWeek (i : Nat) : Bool := s.getD i 0 = byteOf 'W'
  if s.length = 7 then some 7
  else if isDash 4 then
    if ¬ isWeek 5 then some 10
    else if s.length > 8 ∧ isDash 8 then
      if s.length = 9 then none
      else if s.length > 10 ∧ isDigit (s.getD 10 0) then some 8
      else some 10
    else some 8
  else if isWeek 4 then
    let position := 7 + (s.drop 7).findIdx fun b => ¬ isDigit b
    if position < 9 then some position
    else if position % 2 = 0 then some 7
    else some 8
  else some 8

-- The separator is any one character.
def dropSeparator (s : List UInt8) : List UInt8 :=
  let first := s.headD 0
  if first < 0x80 then s.drop 1
  else if 0xE0 ≤ first ∧ first < 0xF0 then s.drop 3
  else if 0xF0 ≤ first then s.drop 4
  else s.drop 2

def parse (s : List UInt8) : Option (DateFields × Clock × Option Zone) := do
  let separator ← findSeparator s
  let date ← parseDate s separator
  if separator < s.length then
    let (clock, zone) ← parseTime (dropSeparator (s.drop separator))
    some (date, clock, zone)
  else
    some (date, ⟨[], 0⟩, none)

-- `repr` of a `timedelta` of so many microseconds.
def timedeltaRepr (microseconds : Int) : String :=
  let days := microseconds / 86400000000
  let seconds := microseconds % 86400000000 / 1000000
  let fields := [("days", days), ("seconds", seconds), ("microseconds", microseconds % 1000000)]
  let shown := (fields.filter fun field => field.2 ≠ 0).map fun field =>
    field.1 ++ "=" ++ toString field.2
  "datetime.timedelta(" ++ (if shown = [] then "0" else ", ".intercalate shown) ++ ")"

-- `timezone`.
def checkZone : Option Zone → Except PyException (Option Int)
  | none => .ok none
  | some zone =>
      if zone.offset.natAbs < 86400000000 then
        .ok (some zone.offset)
      else
        .error (valueError ("offset must be a timedelta strictly between -timedelta(hours=24) and " ++
          "timedelta(hours=24), not " ++ timedeltaRepr zone.offset ++ "."))

-- The day of the fields. The days of a week may be out of the years, as only
-- the whole date is checked.
def checkDate : DateFields → Except PyException Nat
  | .week year week day => .ok (isoWeek1Monday year + (week - 1) * 7 + day - 1)
  | .ymd year month day =>
      if year < 1 ∨ year > 9999 then
        .error (valueError ("year " ++ toString year ++ " is out of range"))
      else if month < 1 ∨ month > 12 then
        .error (valueError "month must be in 1..12")
      else if day < 1 ∨ day > daysInMonth year month then
        .error (valueError "day is out of range for month")
      else
        .ok (ymdToOrd year month day)

def checkTime (clock : Clock) : Except PyException Int :=
  if clock.hour > 23 then .error (valueError "hour must be in 0..23")
  else if clock.minute > 59 then .error (valueError "minute must be in 0..59")
  else if clock.second > 59 then .error (valueError "second must be in 0..59")
  else .ok (clock.seconds * 1000000 + clock.microsecond)

-- 1970-01-01 is day 719163.
def wallOf (ordinal : Nat) (time : Int) : Int := ((ordinal : Int) - 719163) * 86400000000 + time

def fromFields (date : DateFields) (clock : Clock) (zone : Option Zone) :
    Except PyException DateTime := do
  let offset ← checkZone zone
  let ordinal ← checkDate date
  if Representable (wallOf ordinal 0) then
    let time ← checkTime clock
    if h : Representable (wallOf ordinal time) then
      return ⟨wallOf ordinal time, offset, h⟩
    else
      throw (valueError "year 10000 is out of range")
  else
    throw (valueError "year 10000 is out of range")

def fromisoformat [Unicode] (text : List Char) : Except PyException DateTime :=
  match if text.length < 7 then none else parse (Utf8.encode text) with
  | none => .error (valueError ("Invalid isoformat string: " ++ String.ofList (Str.repr text)))
  | some (date, clock, zone) => fromFields date clock zone

theorem checkZone_error {zone : Option Zone} {e : PyException} (h : checkZone zone = .error e) :
    e.isValueError = true := by
  unfold checkZone at h
  split at h
  · cases h
  · split at h
    · cases h
    · cases h
      rfl

theorem checkDate_error {date : DateFields} {e : PyException} (h : checkDate date = .error e) :
    e.isValueError = true := by
  unfold checkDate at h
  repeat' split at h
  all_goals cases h
  all_goals rfl

theorem checkTime_error {clock : Clock} {e : PyException} (h : checkTime clock = .error e) :
    e.isValueError = true := by
  unfold checkTime at h
  repeat' split at h
  all_goals cases h
  all_goals rfl

-- What is read of the fields: the checked offset, or an error that
-- `except ValueError` catches.
structure Read (zone : Option Zone) (result : Except PyException DateTime) : Prop where
  error : ∀ e, result = .error e → e.isValueError = true
  offset : ∀ value, result = .ok value → checkZone zone = .ok value.offset

theorem read_error (zone : Option Zone) {e : PyException} (h : e.isValueError = true) :
    Read zone (.error e) := by
  refine ⟨fun e' heq => ?_, fun value heq => ?_⟩
  · cases heq
    exact h
  · cases heq

theorem fromFields_read (date : DateFields) (clock : Clock) (zone : Option Zone) :
    Read zone (fromFields date clock zone) := by
  unfold fromFields
  cases hzone : checkZone zone with
  | error e => exact read_error zone (checkZone_error hzone)
  | ok offset =>
      cases hdate : checkDate date with
      | error e => exact read_error zone (checkDate_error hdate)
      | ok ordinal =>
          simp only [bind, Except.bind]
          split
          · cases htime : checkTime clock with
            | error e => exact read_error zone (checkTime_error htime)
            | ok time =>
                dsimp only
                split
                · refine ⟨fun e heq => ?_, fun value heq => ?_⟩
                  · cases heq
                  · cases heq
                    exact hzone
                · exact read_error zone rfl
          · exact read_error zone rfl

-- It raises nothing but a ValueError.
theorem fromisoformat_error [Unicode] {text : List Char} {e : PyException}
    (h : fromisoformat text = .error e) : e.isValueError = true := by
  unfold fromisoformat at h
  split at h
  · cases h
    rfl
  · exact (fromFields_read _ _ _).error e h

-- An offset is less than a day.
theorem fromisoformat_offset [Unicode] {text : List Char} {value : DateTime}
    (h : fromisoformat text = .ok value) {offset : Int} (hoffset : value.offset = some offset) :
    offset.natAbs < 86400000000 := by
  unfold fromisoformat at h
  split at h
  · cases h
  · have hzone := (fromFields_read _ _ _).offset value h
    unfold checkZone at hzone
    split at hzone
    · rw [hoffset] at hzone
      cases hzone
    · split at hzone
      · rename_i hday
        rw [hoffset] at hzone
        cases hzone
        exact hday
      · cases hzone

end AgentBoilerplate.Python.IsoFormat
