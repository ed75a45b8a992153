import VaultShell.Catalog.Basic
import VaultShell.Text.Basic

/-!
# Command lines

A line is read as words: the first one is the name of a command and the others are its arguments.
There is no quoting, so no argument holds a blank.

An argument is a flag or an operand. A flag begins with a hyphen and has more characters than that; a
single hyphen is an operand. Flags and operands may be mixed in any order: what a command does depends
on which flags are given, and on the operands in their order. Flags stay among the arguments, because
each command decides for itself what they mean. They come in two styles. A word flag is compared as a
whole. A cluster is a hyphen and any number of letters, each of which is a flag of its own.

Two words end what a session shows or the session itself. They are handled by the session and not by
the vault: the answer to such a line is a token, and whoever shows the answers acts on the token
instead of printing it.

## Main definitions

* `isFlag`, `operandsOf`: the two kinds of arguments
* `hasFlag`, `hasLetter`: whether a flag is given, as a word or in a cluster
* `firstUnknown?`: the first flag that a command does not know
* `CommandLine`, `CommandLine.parse?`: a line as a name and arguments
* `Sentinel.token`, `Sentinel.ofToken?`: the form of a sentinel as an answer
* `Sentinel.word`, `Sentinel.ofLine?`: its form as a line, in any letter case
-/

namespace VaultShell

/-! ## Flags and operands -/

/-- Whether an argument begins with a hyphen and does not end there. -/
def isFlag (argument : String) : Bool :=
  match argument.toList with
  | '-' :: _ :: _ => true
  | _ => false

/-- The arguments that are no flags, in their order. -/
def operandsOf (arguments : List String) : List String :=
  arguments.filter (!isFlag ·)

/-- Whether one of several spellings of a flag is given. -/
def hasFlag (spellings arguments : List String) : Bool :=
  arguments.any (· ∈ spellings)

/-- The letters of a flag, a second hyphen among them. -/
def flagLetters (argument : String) : List Char :=
  if isFlag argument then argument.toList.tail else []

/-- Whether an argument is a flag with two hyphens in front. -/
def isLong (argument : String) : Bool :=
  (flagLetters argument).head? == some '-'

/-- Whether a cluster names one of several letters. -/
def hasLetter (letters : List Char) (arguments : List String) : Bool :=
  arguments.any fun argument => !isLong argument && (flagLetters argument).any (· ∈ letters)

/-- The first flag that is not known. -/
def firstUnknown? (known arguments : List String) : Option String :=
  arguments.find? fun argument => isFlag argument && argument ∉ known

/-- The flag by which commands are asked for help. -/
def helpFlag : String := "--help"

/-! ## Lines -/

/-- A line as a command name and its arguments. -/
structure CommandLine where
  /-- The line without the blanks around it. -/
  raw : String
  name : String
  arguments : List String
  deriving DecidableEq, Repr

namespace CommandLine

/-- Reads a line; a blank line holds no command. -/
def parse? (input : String) : Option CommandLine :=
  let raw := Text.trim input
  match Text.words raw with
  | [] => none
  | name :: arguments => some ⟨raw, name, arguments⟩

/-- The arguments that are flags, in the order of their characters, each once. -/
def flags (line : CommandLine) : List String :=
  Catalog.names (Catalog.ofList ((line.arguments.filter isFlag).map fun flag => (flag, ())))

/-- Whether an argument is given. -/
def has (line : CommandLine) (argument : String) : Bool :=
  line.arguments.contains argument

end CommandLine

/-! ## Sentinels -/

/-- An outcome that the session acts on. -/
inductive Sentinel where
  | clearScreen
  | exitSession
  deriving DecidableEq, Repr

namespace Sentinel

/-- The answer that stands for a sentinel. -/
def token : Sentinel → String
  | .clearScreen => "CLEAR_SCREEN"
  | .exitSession => "EXIT_SESSION"

/-- The sentinel that an answer stands for. -/
def ofToken? (answer : String) : Option Sentinel :=
  if answer = token .clearScreen then some .clearScreen
  else if answer = token .exitSession then some .exitSession
  else none

/-- The line that asks for a sentinel. -/
def word : Sentinel → String
  | .clearScreen => "clear"
  | .exitSession => "exit"

/-- The sentinel that a line asks for, whatever the case of its letters and the blanks around it. -/
def ofLine? (line : String) : Option Sentinel :=
  let lowered := (Text.trim line).toLower
  if lowered = word .clearScreen then some .clearScreen
  else if lowered = word .exitSession then some .exitSession
  else none

@[simp] theorem ofToken?_token (s : Sentinel) : ofToken? s.token = some s := by
  cases s <;> rfl

end Sentinel

end VaultShell
