import AdmissionControl.Text

/-!
# Dates, times of day and instants

The calendar is the Gregorian one, extended backwards to the year one.

* `Date.make?` and `DateTime.make?` refuse numbers out of range and name the first one.
* `Offset` is a signed distance from universal time of less than one day.
* `Instant` counts microseconds from the start of 1970; `Instant.iso` writes it with its offset.
-/

namespace AdmissionControl

namespace Calendar

inductive RangeError
  | year (given : Nat)
  | month
  | day
  | hour
  | minute
  | second
deriving DecidableEq, Repr

def RangeError.message : RangeError → Text
  | .year given => "year " ++ Text.ofNat given ++ " is out of range"
  | .month => "month must be in 1..12"
  | .day => "day is out of range for month"
  | .hour => "hour must be in 0..23"
  | .minute => "minute must be in 0..59"
  | .second => "second must be in 0..59"

def isLeap (year : Nat) : Bool := year % 4 == 0 && (year % 100 != 0 || year % 400 == 0)

def daysInMonth (year month : Nat) : Nat :=
  if month = 2 then if isLeap year then 29 else 28
  else if month = 4 ∨ month = 6 ∨ month = 9 ∨ month = 11 then 30
  else 31

/-- Decimal digits, filled with zeros to a width. -/
def padded (width n : Nat) : Text :=
  let digits := Text.ofNat n
  List.replicate (width - digits.length) ('0' : CodePoint) ++ digits

end Calendar

open Calendar

structure Date where
  year : Nat
  month : Nat
  day : Nat
deriving DecidableEq, Repr

namespace Date

def make? (year month day : Nat) : Except RangeError Date :=
  if year = 0 ∨ 9999 < year then .error (.year year)
  else if month = 0 ∨ 12 < month then .error .month
  else if day = 0 ∨ daysInMonth year month < day then .error .day
  else .ok ⟨year, month, day⟩

def iso (d : Date) : Text :=
  padded 4 d.year ++ "-" ++ padded 2 d.month ++ "-" ++ padded 2 d.day

/-- Days since the first of March of the year zero, in a calendar whose years start in March. -/
def dayNumber (d : Date) : Nat :=
  let year := if d.month ≤ 2 then d.year - 1 else d.year
  let month := if d.month ≤ 2 then d.month + 9 else d.month - 3
  year * 365 + year / 4 - year / 100 + year / 400 + (month * 153 + 2) / 5 + (d.day - 1)

/-- The date with a given day number; the inverse of `dayNumber`. -/
def ofDayNumber (n : Nat) : Date :=
  let era := n / 146097
  let dayOfEra := n % 146097
  let yearOfEra := (dayOfEra - dayOfEra / 1460 + dayOfEra / 36524 - dayOfEra / 146096) / 365
  let dayOfYear := dayOfEra - (365 * yearOfEra + yearOfEra / 4 - yearOfEra / 100)
  let month := (5 * dayOfYear + 2) / 153
  let year := yearOfEra + era * 400
  ⟨if month < 10 then year else year + 1, if month < 10 then month + 3 else month - 9,
    dayOfYear - (153 * month + 2) / 5 + 1⟩

example : ofDayNumber (dayNumber ⟨2024, 2, 29⟩) = ⟨2024, 2, 29⟩ := by decide

example : ofDayNumber (dayNumber ⟨1970, 1, 1⟩) = ⟨1970, 1, 1⟩ := by decide

end Date

/-- Minutes east of universal time. -/
structure Offset where
  minutes : Int
  small : minutes.natAbs < 24 * 60
deriving DecidableEq, Repr

namespace Offset

/-- Universal time itself. -/
def zero : Offset := ⟨0, by decide⟩

def ofMinutes? (minutes : Int) : Option Offset :=
  if h : minutes.natAbs < 24 * 60 then some ⟨minutes, h⟩ else none

def iso (o : Offset) : Text :=
  (if o.minutes < 0 then ("-" : Text) else "+") ++
    padded 2 (o.minutes.natAbs / 60) ++ ":" ++ padded 2 (o.minutes.natAbs % 60)

end Offset

structure DateTime where
  date : Date
  hour : Nat
  minute : Nat
  second : Nat
  microsecond : Nat
  offset : Option Offset
deriving DecidableEq, Repr

namespace DateTime

def make? (year month day hour minute second microsecond : Nat) (offset : Option Offset) :
    Except RangeError DateTime := do
  let date ← Date.make? year month day
  if 23 < hour then .error .hour
  else if 59 < minute then .error .minute
  else if 59 < second then .error .second
  else .ok ⟨date, hour, minute, second, microsecond, offset⟩

/-- The date, the separator and the time of day, with a fraction of a second only if there is
one. -/
def iso (separator : Text) (t : DateTime) : Text :=
  t.date.iso ++ separator ++ padded 2 t.hour ++ ":" ++ padded 2 t.minute ++ ":" ++
    padded 2 t.second ++
    (if t.microsecond = 0 then [] else ('.' : CodePoint) :: padded 6 t.microsecond) ++
    (match t.offset with
      | some o => o.iso
      | none => [])

/-- Microseconds on the clock of universal time, for a time with an offset. -/
def universal? (t : DateTime) : Option Int :=
  t.offset.map fun o =>
    ((t.date.dayNumber * 1440 + t.hour * 60 + t.minute : Int) - o.minutes) * 60000000 +
      (t.second * 1000000 + t.microsecond : Int)

/-- Two times are the same if both have an offset and name one instant, or if they are equal. -/
def same (s t : DateTime) : Bool :=
  match s.universal?, t.universal? with
  | some a, some b => a == b
  | none, none => s == t
  | _, _ => false

end DateTime

/-- Microseconds since the start of 1970 in universal time. -/
structure Instant where
  microseconds : Nat
deriving DecidableEq, Repr, Inhabited

namespace Instant

def dateTime (t : Instant) : DateTime :=
  let seconds := t.microseconds / 1000000
  let ofDay := seconds % 86400
  { date := Date.ofDayNumber (seconds / 86400 + Date.dayNumber ⟨1970, 1, 1⟩)
    hour := ofDay / 3600
    minute := ofDay / 60 % 60
    second := ofDay % 60
    microsecond := t.microseconds % 1000000
    offset := some .zero }

def iso (t : Instant) : Text := t.dateTime.iso "T"

example : iso ⟨951782400000000⟩ = Text.ofString "2000-02-29T00:00:00+00:00" := by decide +kernel

end Instant

end AdmissionControl
