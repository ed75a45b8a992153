import VaultShell.Json.Token

/-!
# JSON trees

The tree of a JSON text as it stands: members keep their order and may repeat a key, and a string
or a key may denote no text. What a reader makes of such a tree is its own affair; a value it passes
over may be anything that is a tree.

The tree is built from the tokens with a stack of open containers, one token at a time. The depth of
a text is bounded by the stack only, so a reader that wants a bound on it has to set one.

## Main definitions

* `Tree`: the tree of a JSON text
* `Tree.ofTokens?`, `Tree.ofText?`: the tree of a token sequence and of a text
-/

namespace VaultShell.Json

/-- A JSON text as it stands. Strings and keys that denote no text are `none`. -/
inductive Tree where
  | null
  | boolean (value : Bool)
  | number (value : Number)
  | string (text : Option String)
  | array (items : List Tree)
  | object (members : List (Option String × Tree))
  deriving Repr, Inhabited

namespace Tree

/-- A container that is still open, with what it holds so far, last item first. -/
inductive Frame where
  | array (reversed : List Tree)
  /-- An object between two members. -/
  | object (reversed : List (Option String × Tree))
  /-- An object whose last key waits for its value. -/
  | member (reversed : List (Option String × Tree)) (key : Option String)

/-- What may come next. -/
inductive Place where
  /-- A value has to come. -/
  | value
  /-- An array was opened: a value or its end. -/
  | firstItem
  /-- An object was opened: a key or its end. -/
  | firstKey
  /-- A key has to come. -/
  | key
  /-- The colon after a key has to come. -/
  | colon (key : Option String)
  /-- A value is complete: a comma or the end of its container. -/
  | next

/-- How far the tokens have been read. -/
inductive Progress where
  | reading (place : Place) (stack : List Frame)
  | complete (tree : Tree)

/-- Hands a complete value to the innermost open container. -/
def deliver (tree : Tree) : List Frame → Option Progress
  | [] => some (.complete tree)
  | .array reversed :: stack => some (.reading .next (.array (tree :: reversed) :: stack))
  | .member reversed key :: stack =>
    some (.reading .next (.object ((key, tree) :: reversed) :: stack))
  | .object _ :: _ => none

/-- Reads the first token of a value. -/
def openValue (stack : List Frame) : Token → Option Progress
  | .null => deliver .null stack
  | .boolean b => deliver (.boolean b) stack
  | .number n => deliver (.number n) stack
  | .string s => deliver (.string s) stack
  | .openArray => some (.reading .firstItem (.array [] :: stack))
  | .openObject => some (.reading .firstKey (.object [] :: stack))
  | _ => none

/-- Closes the innermost array. -/
def closeArray : List Frame → Option Progress
  | .array reversed :: stack => deliver (.array reversed.reverse) stack
  | _ => none

/-- Closes the innermost object. -/
def closeObject : List Frame → Option Progress
  | .object reversed :: stack => deliver (.object reversed.reverse) stack
  | _ => none

/-- Reads one token. -/
def step : Progress → Token → Option Progress
  | .complete _, _ => none
  | .reading .value stack, token => openValue stack token
  | .reading .firstItem stack, .closeArray => closeArray stack
  | .reading .firstItem stack, token => openValue stack token
  | .reading .firstKey stack, .closeObject => closeObject stack
  | .reading .firstKey stack, .string key => some (.reading (.colon key) stack)
  | .reading .key stack, .string key => some (.reading (.colon key) stack)
  | .reading (.colon key) (.object reversed :: stack), .colon =>
    some (.reading .value (.member reversed key :: stack))
  | .reading .next (.array reversed :: stack), .comma =>
    some (.reading .value (.array reversed :: stack))
  | .reading .next (.object reversed :: stack), .comma =>
    some (.reading .key (.object reversed :: stack))
  | .reading .next stack, .closeArray => closeArray stack
  | .reading .next stack, .closeObject => closeObject stack
  | _, _ => none

/-- Reads the remaining tokens; the tree has to be complete at their end. -/
def readFrom (progress : Progress) : List Token → Option Tree
  | [] =>
    match progress with
    | .complete tree => some tree
    | .reading .. => none
  | token :: rest => do readFrom (← step progress token) rest

/-- The tree of a token sequence. -/
def ofTokens? (tokens : List Token) : Option Tree :=
  readFrom (.reading .value []) tokens

/-- The tree of a JSON text. -/
def ofText? (s : String) : Option Tree := do
  ofTokens? (← Token.ofText? s)

end Tree

end VaultShell.Json
