import VaultShell.Json.Number

/-!
# JSON tokens

A JSON text is a sequence of tokens with blanks between them, where a blank of JSON is one of four
characters only. The scan reads one character at a time and remembers what kind of token it is in;
a token that has no end mark of its own (a number, a word) ends at the first character that cannot
continue it.

A string is kept as characters only if it is text. An escape may name half of a surrogate pair, and
a string with an unpaired half denotes no text; such a string is a token all the same, because a
reader may pass over it.

## Main definitions

* `Token`, `Token.ofText?`: the tokens of a text
-/

namespace VaultShell.Json

/-- A token of a JSON text. -/
inductive Token where
  | openArray
  | closeArray
  | openObject
  | closeObject
  | comma
  | colon
  | null
  | boolean (value : Bool)
  | number (value : Number)
  /-- A string, `none` if it denotes no text. -/
  | string (text : Option String)
  deriving DecidableEq, Repr

namespace Token

/-- A piece of a string: a character, or a unit of 16 bits named by an escape. -/
inductive Piece where
  | char (c : Char)
  | unit (value : Nat)
  deriving DecidableEq, Repr

/-- The first half of a surrogate pair. -/
def isHighHalf (unit : Nat) : Bool :=
  0xD800 ≤ unit && unit ≤ 0xDBFF

/-- The second half of a surrogate pair. -/
def isLowHalf (unit : Nat) : Bool :=
  0xDC00 ≤ unit && unit ≤ 0xDFFF

/-- The character that a surrogate pair denotes. -/
def pairedChar (high low : Nat) : Char :=
  Char.ofNat (0x10000 + (high - 0xD800) * 0x400 + (low - 0xDC00))

/-- The characters that the pieces of a string denote, if every half has its partner. -/
def charsOfPieces? : List Piece → Option (List Char)
  | [] => some []
  | .char c :: rest => (charsOfPieces? rest).map (c :: ·)
  | .unit high :: .unit low :: rest =>
    if isHighHalf high && isLowHalf low then
      (charsOfPieces? rest).map (pairedChar high low :: ·)
    else if isHighHalf high || isLowHalf high then none
    else (charsOfPieces? (.unit low :: rest)).map (Char.ofNat high :: ·)
  | .unit unit :: rest =>
    if isHighHalf unit || isLowHalf unit then none
    else (charsOfPieces? rest).map (Char.ofNat unit :: ·)

/-- The string token of the pieces, last piece first. -/
def ofReversedPieces (reversed : List Piece) : Token :=
  .string ((charsOfPieces? reversed.reverse).map String.ofList)

/-- The token that a run of letters spells. -/
def ofWord? (cs : List Char) : Option Token :=
  match String.ofList cs with
  | "null" => some .null
  | "true" => some (.boolean true)
  | "false" => some (.boolean false)
  | _ => none

/-- The blanks that may stand between tokens. -/
def isSpace (c : Char) : Bool :=
  c == ' ' || c == '\t' || c == '\n' || c == '\r'

/-- The letters of the three words. -/
def isWordChar (c : Char) : Bool :=
  c.isLower

/-- The characters that a number may hold. -/
def isNumberChar (c : Char) : Bool :=
  c.isDigit || c == '-' || c == '+' || c == '.' || c == 'e' || c == 'E'

/-- The token that a single character is. -/
def ofMark? : Char → Option Token
  | '[' => some .openArray
  | ']' => some .closeArray
  | '\x7b' => some .openObject
  | '\x7d' => some .closeObject
  | ',' => some .comma
  | ':' => some .colon
  | _ => none

/-- The value of a hexadecimal digit. -/
def hexValue? (c : Char) : Option Nat :=
  if c.isDigit then some (c.toNat - '0'.toNat)
  else if 'a' ≤ c ∧ c ≤ 'f' then some (c.toNat - 'a'.toNat + 10)
  else if 'A' ≤ c ∧ c ≤ 'F' then some (c.toNat - 'A'.toNat + 10)
  else none

/-- The character that a one-letter escape denotes. -/
def ofEscape? : Char → Option Char
  | '"' => some '"'
  | '\\' => some '\\'
  | '/' => some '/'
  | 'b' => some '\x08'
  | 'f' => some '\x0c'
  | 'n' => some '\n'
  | 'r' => some '\r'
  | 't' => some '\t'
  | _ => none

/-- What the scan is in the middle of; what it has read of a token is kept last piece first. -/
inductive Mode where
  | between
  | number (reversed : List Char)
  | word (reversed : List Char)
  | string (reversed : List Piece)
  | escape (reversed : List Piece)
  /-- An escape by number, with the digits still to come and the value of those read. -/
  | hex (remaining value : Nat) (reversed : List Piece)
  deriving DecidableEq, Repr

/-- Reads a character that belongs to no token begun before it. -/
def start (c : Char) : Option (List Token × Mode) :=
  if isSpace c then some ([], .between)
  else if c = '"' then some ([], .string [])
  else if isWordChar c then some ([], .word [c])
  else if isNumberChar c then some ([], .number [c])
  else (ofMark? c).map fun token => ([token], .between)

/-- Reads one character: the tokens that are complete now, and the mode after it. -/
def step (mode : Mode) (c : Char) : Option (List Token × Mode) :=
  match mode with
  | .between => start c
  | .number reversed =>
    if isNumberChar c then some ([], .number (c :: reversed))
    else do
      let number ← Number.ofSpelling? reversed.reverse
      let (tokens, mode) ← start c
      return (.number number :: tokens, mode)
  | .word reversed =>
    if isWordChar c then some ([], .word (c :: reversed))
    else do
      let token ← ofWord? reversed.reverse
      let (tokens, mode) ← start c
      return (token :: tokens, mode)
  | .string reversed =>
    if c = '"' then some ([ofReversedPieces reversed], .between)
    else if c = '\\' then some ([], .escape reversed)
    else if c.toNat < 0x20 then none
    else some ([], .string (.char c :: reversed))
  | .escape reversed =>
    if c = 'u' then some ([], .hex 4 0 reversed)
    else (ofEscape? c).map fun d => ([], .string (.char d :: reversed))
  | .hex remaining value reversed =>
    (hexValue? c).map fun digit =>
      let value := 16 * value + digit
      if remaining ≤ 1 then ([], .string (.unit value :: reversed))
      else ([], .hex (remaining - 1) value reversed)

/-- The tokens that the end of the text completes; a string has to be closed before it. -/
def finish : Mode → Option (List Token)
  | .between => some []
  | .number reversed => (Number.ofSpelling? reversed.reverse).map fun n => [.number n]
  | .word reversed => (ofWord? reversed.reverse).map fun token => [token]
  | _ => none

/-- The tokens of the remaining characters, read in a mode. -/
def scan (mode : Mode) : List Char → Option (List Token)
  | [] => finish mode
  | c :: rest => do
    let (tokens, mode) ← step mode c
    return tokens ++ (← scan mode rest)

/-- The tokens of a text. -/
def ofText? (s : String) : Option (List Token) :=
  scan .between s.toList

end Token

end VaultShell.Json
