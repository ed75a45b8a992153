import VaultShell.Catalog.Basic
import VaultShell.Json.Tree

/-!
# JSON values

A value is what a JSON text means once the accidents of its spelling are gone: its strings are text,
each key of an object stands once, in the order of the keys, and no number is beyond the floats of
64 bits. Values nest to a bounded depth, which keeps a reader safe from a text that opens brackets
without end.

## Main definitions

* `Value`: a JSON value
* `Value.ofTree?`: the value of a tree of bounded depth
* `Value.write`: the shortest JSON text of a value
-/

namespace VaultShell.Json

/-- A JSON value. -/
inductive Value where
  | null
  | boolean (value : Bool)
  | number (value : Number)
  | string (text : String)
  | array (items : List Value)
  | object (members : List (String × Value))
  deriving Repr, Inhabited, BEq

namespace Value

/-- An integer as a value. -/
def integer (n : Int) : Value :=
  .number (.integer n)

mutual

/-- The value of a tree whose containers nest at most `depth` deep and whose numbers are finite. The
last of several members with one key counts. -/
def ofTree? (depth : Nat) : Tree → Option Value
  | .null => some .null
  | .boolean b => some (.boolean b)
  | .number n => if n.isFinite then some (.number n) else none
  | .string s => s.map .string
  | .array items =>
    match depth with
    | 0 => none
    | depth + 1 => (itemsOfTrees? depth items).map .array
  | .object members =>
    match depth with
    | 0 => none
    | depth + 1 => (membersOfTrees? depth members).map fun ms => .object (Catalog.ofList ms)

/-- The values of the items of an array. -/
def itemsOfTrees? (depth : Nat) : List Tree → Option (List Value)
  | [] => some []
  | tree :: rest => do
    let value ← ofTree? depth tree
    return value :: (← itemsOfTrees? depth rest)

/-- The values of the members of an object, each under its key. -/
def membersOfTrees? (depth : Nat) : List (Option String × Tree) → Option (List (String × Value))
  | [] => some []
  | (key, tree) :: rest => do
    let key ← key
    let value ← ofTree? depth tree
    return (key, value) :: (← membersOfTrees? depth rest)

end

/-- The lower-case hexadecimal digit of a number below 16. -/
def hexDigit (n : Nat) : Char :=
  Nat.digitChar n

/-- How a character is written inside a string: what has a short escape uses it, the other control
characters are named by number, and the rest stands for itself. -/
def escapeChar (c : Char) : List Char :=
  if c = '"' then ['\\', '"']
  else if c = '\\' then ['\\', '\\']
  else if c = '\x08' then ['\\', 'b']
  else if c = '\x0c' then ['\\', 'f']
  else if c = '\n' then ['\\', 'n']
  else if c = '\r' then ['\\', 'r']
  else if c = '\t' then ['\\', 't']
  else if c.toNat < 0x20 then
    ['\\', 'u', '0', '0', hexDigit (c.toNat / 16), hexDigit (c.toNat % 16)]
  else [c]

/-- A text between quotation marks. -/
def writeString (s : String) : List Char :=
  '"' :: s.toList.flatMap escapeChar ++ ['"']

/-- The spelling of a number. -/
def writeNumber : Number → List Char
  | .integer n => (toString n).toList
  | .decimal spelling => spelling.toList

mutual

/-- The characters of the shortest JSON text of a value. -/
def writeChars : Value → List Char
  | .null => "null".toList
  | .boolean true => "true".toList
  | .boolean false => "false".toList
  | .number n => writeNumber n
  | .string s => writeString s
  | .array [] => ['[', ']']
  | .array (value :: rest) => '[' :: writeChars value ++ writeItems rest
  | .object [] => ['\x7b', '\x7d']
  | .object ((key, value) :: rest) =>
    '\x7b' :: writeString key ++ ':' :: writeChars value ++ writeMembers rest

/-- The items of an array after the first one, and its end. -/
def writeItems : List Value → List Char
  | [] => [']']
  | value :: rest => ',' :: writeChars value ++ writeItems rest

/-- The members of an object after the first one, and its end. -/
def writeMembers : List (String × Value) → List Char
  | [] => ['\x7d']
  | (key, value) :: rest =>
    ',' :: writeString key ++ ':' :: writeChars value ++ writeMembers rest

end

/-- The shortest JSON text of a value, its members in the order they have. -/
def write (v : Value) : String :=
  String.ofList (writeChars v)

end Value

end VaultShell.Json
