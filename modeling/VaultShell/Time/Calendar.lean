import VaultShell.Text.Basic

/-!
# Instants and the calendar

An instant is a number of whole seconds since the start of 1970 and a number of nanoseconds. A leap
second is written as the 59th second of its minute with 10⁹ nanoseconds or more, so instants are
ordered by their seconds and then by their nanoseconds.

Dates of the proleptic Gregorian calendar and the time of day are read off an instant. A year is
counted from March inside the computation, so that the leap day is the last day of its year and the
lengths of the months before it do not depend on the year.

## Main definitions

* `Instant`, `Instant.tick`: seconds and nanoseconds, and one minute later
* `Date`, `Date.ofDays`, `Date.toDays`: a date and its day number, day 0 being 1 January 1970
* `ClockTime.ofInstant`: the date and the time of day of an instant
* `ClockTime.short`, `ClockTime.full`: the two spellings used in listings and for the wall clock
-/

namespace VaultShell

/-! ## Instants -/

/-- A point in time, counted from the start of 1970. -/
structure Instant where
  /-- Whole seconds since the start of 1970, negative before it. -/
  seconds : Int
  /-- Nanoseconds; 10⁹ or more inside a leap second. -/
  nanos : Nat
  deriving DecidableEq, Repr, Inhabited

namespace Instant

/-- The nanoseconds of one second. -/
def nanosPerSecond : Nat := 1000000000

/-- The start of 1970. -/
def origin : Instant := ⟨0, 0⟩

/-- The start of a given second. -/
def ofSeconds (seconds : Int) : Instant := ⟨seconds, 0⟩

/-- Whether the instant lies inside a leap second. -/
def inLeapSecond (t : Instant) : Bool :=
  nanosPerSecond ≤ t.nanos

/-- One minute later. A leap second is left first: its nanoseconds beyond the second are counted
from the ordinary second it extends. -/
def tick (t : Instant) : Instant :=
  ⟨t.seconds + 60, if t.inLeapSecond then t.nanos - nanosPerSecond else t.nanos⟩

/-- Earlier or equal: by seconds, then by nanoseconds. -/
protected def le (s t : Instant) : Prop :=
  s.seconds < t.seconds ∨ (s.seconds = t.seconds ∧ s.nanos ≤ t.nanos)

instance : LE Instant := ⟨Instant.le⟩

end Instant

/-! ## Dates and times of day -/

/-- A day of the proleptic Gregorian calendar. -/
structure Date where
  year : Int
  /-- From 1 to 12. -/
  month : Nat
  /-- From 1. -/
  day : Nat
  deriving DecidableEq, Repr

namespace Date

/-- Whether a year has a 29 February. -/
def isLeapYear (year : Int) : Bool :=
  year % 4 == 0 && (year % 100 != 0 || year % 400 == 0)

/-- The number of days of a month of a year, 0 for a month that does not exist. -/
def daysInMonth (year : Int) : Nat → Nat
  | 2 => if isLeapYear year then 29 else 28
  | 4 | 6 | 9 | 11 => 30
  | 1 | 3 | 5 | 7 | 8 | 10 | 12 => 31
  | _ => 0

/-- Whether the date exists. -/
def isValid (d : Date) : Bool :=
  1 ≤ d.day && d.day ≤ daysInMonth d.year d.month

/-- The number of the day, day 0 being 1 January 1970. -/
def toDays (d : Date) : Int :=
  let year := if d.month ≤ 2 then d.year - 1 else d.year
  let era := year / 400
  let yearOfEra := year % 400
  let monthFromMarch := (d.month + 9) % 12
  let dayOfYear : Int := (153 * monthFromMarch + 2) / 5 + d.day - 1
  era * 146097 + (yearOfEra * 365 + yearOfEra / 4 - yearOfEra / 100 + dayOfYear) - 719468

/-- The date with a given day number. -/
def ofDays (days : Int) : Date :=
  let shifted := days + 719468
  let era := shifted / 146097
  let dayOfEra := shifted % 146097
  let yearOfEra :=
    (dayOfEra - dayOfEra / 1460 + dayOfEra / 36524 - dayOfEra / 146096) / 365
  let dayOfYear := dayOfEra - (365 * yearOfEra + yearOfEra / 4 - yearOfEra / 100)
  let monthFromMarch := (5 * dayOfYear + 2) / 153
  let day := (dayOfYear - (153 * monthFromMarch + 2) / 5 + 1).toNat
  let month := (if monthFromMarch < 10 then monthFromMarch + 3 else monthFromMarch - 9).toNat
  let year := yearOfEra + era * 400
  ⟨if month ≤ 2 then year + 1 else year, month, day⟩

end Date

/-- The date and the time of day of an instant. -/
structure ClockTime where
  /-- The number of the day, day 0 being 1 January 1970. -/
  days : Int
  hour : Nat
  minute : Nat
  second : Nat
  deriving DecidableEq, Repr

namespace ClockTime

/-- The seconds of one day. -/
def secondsPerDay : Int := 86400

/-- The date and the time of day of an instant. The 59th second stands for a leap second too. -/
def ofInstant (t : Instant) : ClockTime :=
  let secondOfDay := (t.seconds % secondsPerDay).toNat
  ⟨t.seconds / secondsPerDay, secondOfDay / 3600, secondOfDay / 60 % 60, secondOfDay % 60⟩

/-- The date of a clock time. -/
def date (c : ClockTime) : Date :=
  Date.ofDays c.days

/-- The second as it is shown: the 60th inside a leap second. -/
def shownSecond (t : Instant) : Nat :=
  (ofInstant t).second + if t.inLeapSecond then 1 else 0

/-- The abbreviated names of the months. -/
def monthNames : List String :=
  ["Jan", "Feb", "Mar", "Apr", "May", "Jun", "Jul", "Aug", "Sep", "Oct", "Nov", "Dec"]

/-- The abbreviated names of the days of the week, from the day of the week of day 0. -/
def weekdayNames : List String :=
  ["Thu", "Fri", "Sat", "Sun", "Mon", "Tue", "Wed"]

/-- The day of the month, two characters wide. -/
def dayText (d : Date) : String :=
  Text.padLeft ' ' 2 (toString d.day)

/-- Month, day, hour and minute, as a long listing shows a modification time. -/
def short (t : Instant) : String :=
  let c := ofInstant t
  let d := c.date
  let month := monthNames.getD (d.month - 1) ""
  s!"{month} {dayText d} " ++
    s!"{Text.zeroPadded 2 c.hour}:{Text.zeroPadded 2 c.minute}"

/-- A year with at least four digits, and with its sign where it does not lie between 0 and 9999. -/
def yearText (year : Int) : String :=
  if 0 ≤ year ∧ year ≤ 9999 then Text.zeroPadded 4 year.toNat
  else (if year < 0 then "-" else "+") ++ Text.zeroPadded 4 year.natAbs

/-- Weekday, month, day, time, zone and year, as the wall clock is shown. -/
def full (t : Instant) : String :=
  let c := ofInstant t
  let d := c.date
  let weekday := weekdayNames.getD (c.days % 7).toNat ""
  let month := monthNames.getD (d.month - 1) ""
  s!"{weekday} {month} {dayText d} " ++
    s!"{Text.zeroPadded 2 c.hour}:{Text.zeroPadded 2 c.minute}:" ++
    s!"{Text.zeroPadded 2 (shownSecond t)} UTC {yearText d.year}"

end ClockTime

end VaultShell
