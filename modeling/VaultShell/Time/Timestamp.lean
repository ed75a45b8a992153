import VaultShell.Time.Calendar

/-!
# Timestamps

The text of an instant: date, `T`, time of day, an optional fraction of a second and a zone, as
RFC 3339 lays it out. What is written always has the zone `Z`; what is read may have any offset from
it, may have a small `t` or a space between date and time, and may name a leap second at the end of
any minute.

A text that is no timestamp is refused for one of four causes. The rule that decides between them
is the order of reading: from left to right, the date is checked as soon as it has been read, the
time of day once its fraction has been read, and the size of the offset at the very end.

## Main definitions

* `Timestamp.Refusal`: the four causes, with their wording
* `Timestamp.read`: the instant that a text denotes
* `Timestamp.write`: the text of an instant
-/

namespace VaultShell.Timestamp

/-- Why a text is no timestamp. -/
inductive Refusal where
  /-- The text ends too early. -/
  | premature
  /-- A character stands where another one is needed. -/
  | invalid
  /-- The date, the time or the offset does not exist. -/
  | outOfRange
  /-- Something follows the timestamp. -/
  | trailing
  deriving DecidableEq, Repr

/-- The wording of a cause. -/
def Refusal.message : Refusal → String
  | .premature => "premature end of input"
  | .invalid => "input contains invalid characters"
  | .outOfRange => "input is out of range"
  | .trailing => "trailing input"

/-- A reader of the remaining characters: it gives a value and the characters that follow it, or
refuses. -/
abbrev Scan := StateT (List Char) (Except Refusal)

/-- Reads a given number of digits, each of them needed, and appends them to `value`. -/
def digitsOnto (value : Nat) : Nat → Scan Nat
  | 0, cs => .ok (value, cs)
  | _ + 1, [] => .error .invalid
  | count + 1, c :: rest =>
    if c.isDigit then digitsOnto (10 * value + Text.digitValue c) count rest else .error .invalid

/-- Reads the number that a given number of digits denotes. -/
def digits (count : Nat) : Scan Nat :=
  digitsOnto 0 count

/-- Reads one character of a class. -/
def one (accepts : Char → Bool) : Scan Unit
  | c :: rest => if accepts c then .ok ((), rest) else .error .invalid
  | [] => .error .invalid

/-- The length in bytes of the shortest date and time of day: every timestamp is longer. -/
def shortestMoment : Nat := 19

/-- Reads a date that exists. -/
def readDate : Scan Date := do
  let year ← digits 4
  one (· = '-')
  let month ← digits 2
  one (· = '-')
  let day ← digits 2
  let date : Date := ⟨year, month, day⟩
  if date.isValid then return date else throw .outOfRange

/-- Nanoseconds from the digits of a fraction; those after the ninth do not count. -/
def nanosOfDigits (ds : List Char) : Nat :=
  let kept := ds.take 9
  Text.numberOfDigits kept * Nat.pow 10 (9 - kept.length)

/-- Reads the fraction of a second, zero if no point follows. -/
def readFraction : Scan Nat
  | '.' :: rest =>
    match rest with
    | [] => .error .premature
    | c :: _ =>
      if c.isDigit then
        .ok (nanosOfDigits (rest.takeWhile Char.isDigit), rest.dropWhile Char.isDigit)
      else .error .invalid
  | cs => .ok (0, cs)

/-- Reads the time of day: the second of the day and the nanoseconds. The 60th second is the leap
second that extends the 59th. -/
def readTime : Scan (Nat × Nat) := do
  let hour ← digits 2
  one (· = ':')
  let minute ← digits 2
  one (· = ':')
  let shown ← digits 2
  let fraction ← readFraction
  let (second, nanos) :=
    if shown = 60 then (59, fraction + Instant.nanosPerSecond) else (shown, fraction)
  if hour < 24 ∧ minute < 60 ∧ second < 60 then
    return (3600 * hour + 60 * minute + second, nanos)
  else throw .outOfRange

/-- Reads two digits of an offset. Only here does a rest of less than two bytes end too early. -/
def readPair : Scan Nat
  | [] => .error .premature
  | [c] => if c.utf8Size < 2 then .error .premature else .error .invalid
  | c :: d :: rest =>
    if c.isDigit && d.isDigit then .ok (10 * Text.digitValue c + Text.digitValue d, rest)
    else .error .invalid

/-- Reads the colon of an offset. -/
def readColon : Scan Unit
  | [] => .error .premature
  | c :: rest => if c = ':' then .ok ((), rest) else .error .invalid

/-- Reads the hours and minutes of an offset, in seconds. -/
def readShift : Scan Int := do
  let hours ← readPair
  readColon
  let minutes ← readPair
  if minutes < 60 then return 3600 * hours + 60 * minutes else throw .outOfRange

/-- Reads the zone, as the seconds by which its clocks are ahead. The minus sign may be the hyphen
or the character U+2212. -/
def readZone : Scan Int
  | [] => .error .premature
  | c :: rest =>
    if c = 'Z' ∨ c = 'z' then .ok (0, rest)
    else if c = '+' then readShift rest
    else if c = '-' ∨ c = '\u2212' then (do return -(← readShift) : Scan Int) rest
    else .error .invalid

/-- Reads a timestamp: the instant that its clocks show, and how far they are ahead. -/
def readMoment : Scan (Instant × Int) := do
  let date ← readDate
  one fun c => c = 'T' || c = 't' || c = ' '
  let (secondOfDay, nanos) ← readTime
  let shift ← readZone
  return (⟨date.toDays * ClockTime.secondsPerDay + secondOfDay, nanos⟩, shift)

/-- The instant that a text denotes. -/
def read (s : String) : Except Refusal Instant :=
  if s.utf8ByteSize < shortestMoment then .error .premature
  else
    match readMoment s.toList with
    | .error refusal => .error refusal
    | .ok ((shown, shift), rest) =>
      if !rest.isEmpty then .error .trailing
      else if ClockTime.secondsPerDay ≤ shift.natAbs then .error .outOfRange
      else .ok { shown with seconds := shown.seconds - shift }

/-- The fraction of a second, in the fewest of 0, 3, 6 or 9 digits that lose nothing. -/
def fractionText (nanos : Nat) : String :=
  if nanos = 0 then ""
  else if nanos % 1000000 = 0 then "." ++ Text.zeroPadded 3 (nanos / 1000000)
  else if nanos % 1000 = 0 then "." ++ Text.zeroPadded 6 (nanos / 1000)
  else "." ++ Text.zeroPadded 9 nanos

/-- The text of an instant, in the zone `Z`. -/
def write (t : Instant) : String :=
  let c := ClockTime.ofInstant t
  let d := c.date
  s!"{ClockTime.yearText d.year}-{Text.zeroPadded 2 d.month}-{Text.zeroPadded 2 d.day}T" ++
    s!"{Text.zeroPadded 2 c.hour}:{Text.zeroPadded 2 c.minute}:" ++
    Text.zeroPadded 2 (ClockTime.shownSecond t) ++
    fractionText (t.nanos % Instant.nanosPerSecond) ++ "Z"

end VaultShell.Timestamp
