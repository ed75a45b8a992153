import VaultShell.Text.Basic

/-!
# JSON numbers

A number of JSON is a spelling: a sign, digits, a fraction, an exponent. Where the spelling is that
of an integer and a word of 64 bits holds it, the number is that integer; any other number stays the
spelling it is, except that a zero with a minus sign gets a fraction.

A spelling can name a magnitude beyond every float of 64 bits. Such a number may stand in a text,
but no value is made of it. Whether a magnitude is that large is decided as floats decide it, in exact
arithmetic: the leading digits that fill a word and the power of ten by which they are scaled are
each rounded to a float, and their product is finite if it is below the bound at which rounding goes
to infinity. No power of ten beyond the floats is ever computed, however long the exponent is.

## Main definitions

* `Number`, `Number.ofSpelling?`: a number and the one that a spelling denotes
* `Magnitude.ofSpelling`: the leading digits of a spelling and their power of ten
* `Number.isFinite`: whether a number is within the floats of 64 bits
-/

namespace VaultShell.Json

/-- A number: an integer of 64 bits, signed or not, or the spelling of any other number. -/
inductive Number where
  | integer (value : Int)
  | decimal (spelling : String)
  deriving DecidableEq, Repr

namespace Number

/-! ## Spellings -/

/-- Splits a spelling into whether it has a minus sign and what follows the sign. -/
def splitSign : List Char → Bool × List Char
  | '-' :: rest => (true, rest)
  | cs => (false, cs)

/-- Splits a spelling after its leading digits. -/
def splitDigits (cs : List Char) : List Char × List Char :=
  (cs.takeWhile Char.isDigit, cs.dropWhile Char.isDigit)

/-- Splits a spelling after its fraction: the digits after a point, if it begins with a point. -/
def splitFraction : List Char → List Char × List Char
  | '.' :: rest => splitDigits rest
  | cs => ([], cs)

/-- Whether the characters are a digit sequence of an integer part: no leading zero. -/
def isWhole : List Char → Bool
  | [] => false
  | ['0'] => true
  | c :: _ => c != '0'

/-- What follows the fraction, if the characters are an optional fraction and something else. -/
def afterFraction? : List Char → Option (List Char)
  | '.' :: rest =>
    let (ds, rest) := splitDigits rest
    if ds.isEmpty then none else some rest
  | cs => some cs

/-- Whether the characters are an exponent without its letter. -/
def isExponent : List Char → Bool
  | '+' :: ds => !ds.isEmpty && ds.all Char.isDigit
  | '-' :: ds => !ds.isEmpty && ds.all Char.isDigit
  | ds => !ds.isEmpty && ds.all Char.isDigit

/-- Whether the characters after the integer part are an optional fraction and an optional
exponent. -/
def isTail (cs : List Char) : Bool :=
  match afterFraction? cs with
  | none => false
  | some [] => true
  | some (c :: rest) => (c == 'e' || c == 'E') && isExponent rest

/-- The number of a sign and a magnitude, if it is an integer that a word of 64 bits holds. Zero
with a minus sign is none of these integers; it is the float of that name. -/
def ofMagnitude? (negative : Bool) (magnitude : Nat) : Option Number :=
  if negative then
    if magnitude = 0 then some (.decimal "-0.0")
    else if magnitude ≤ Nat.pow 2 63 then some (.integer (-magnitude)) else none
  else if magnitude < Nat.pow 2 64 then some (.integer magnitude) else none

/-- The number that a spelling denotes. -/
def ofSpelling? (cs : List Char) : Option Number :=
  let (negative, rest) := splitSign cs
  let (ds, tail) := splitDigits rest
  if !isWhole ds || !isTail tail then none
  else
    let whole := if tail.isEmpty then ofMagnitude? negative (Text.numberOfDigits ds) else none
    some (whole.getD (.decimal (String.ofList cs)))

/-- The exponent that characters without its letter denote; no characters denote zero. -/
def exponentOf : List Char → Int
  | '-' :: ds => -(Text.numberOfDigits ds : Int)
  | '+' :: ds => Text.numberOfDigits ds
  | ds => Text.numberOfDigits ds

end Number

/-! ## Magnitudes -/

/-- A magnitude by its leading digits, as many as a word of 64 bits holds, and the power of ten by
which they are scaled. -/
structure Magnitude where
  leading : Nat
  exponent : Int
  deriving DecidableEq, Repr

namespace Magnitude

/-- Appends a digit. One that does not fit into the word is counted as a place only, and so is every
digit after it. -/
def push (m : Magnitude) (c : Char) : Magnitude :=
  let leading := 10 * m.leading + Text.digitValue c
  if m.exponent = 0 ∧ leading < Nat.pow 2 64 then ⟨leading, 0⟩ else ⟨m.leading, m.exponent + 1⟩

/-- The magnitude of a run of digits. -/
def ofDigits (cs : List Char) : Magnitude :=
  cs.foldl push ⟨0, 0⟩

/-- The magnitude of the number that a spelling denotes: the digits of the fraction follow those
before the point, and each of them takes one from the exponent. -/
def ofSpelling (cs : List Char) : Magnitude :=
  let (whole, tail) := Number.splitDigits (Number.splitSign cs).2
  let (fraction, tail) := Number.splitFraction tail
  let m := ofDigits (whole ++ fraction)
  ⟨m.leading, m.exponent - fraction.length + Number.exponentOf (tail.drop 1)⟩

/-- The natural number of at most 53 significant bits that is nearest to `n`; of two that are
equally near, the one whose last such bit is zero. -/
def toFloatPrecision (n : Nat) : Nat :=
  let unit := Nat.pow 2 (n.log2 - 52)
  let quotient := n / unit
  let rest := n % unit
  if 2 * rest < unit ∨ (2 * rest = unit ∧ quotient % 2 = 0) then quotient * unit
  else (quotient + 1) * unit

/-- The bound from which on rounding to a float of 64 bits goes to infinity: half a step above the
largest finite one. -/
def floatBound : Nat := (Nat.pow 2 54 - 1) * Nat.pow 2 970

/-- The largest power of ten among the finite floats. -/
def maximalExponent : Nat := 308

/-- Whether the product of the leading digits and their power of ten is finite, each factor taken
to the precision of a float. A word that is not scaled up always is, and one that is scaled by more
than the largest power of ten never is, unless it is zero. -/
def isFinite (m : Magnitude) : Bool :=
  m.leading == 0 || m.exponent ≤ 0 || (m.exponent ≤ maximalExponent &&
    toFloatPrecision m.leading * toFloatPrecision (Nat.pow 10 m.exponent.toNat) < floatBound)

end Magnitude

/-- Whether a number is within the floats of 64 bits, as every integer of 64 bits is. -/
def Number.isFinite : Number → Bool
  | .integer _ => true
  | .decimal spelling => (Magnitude.ofSpelling spelling.toList).isFinite

end VaultShell.Json
