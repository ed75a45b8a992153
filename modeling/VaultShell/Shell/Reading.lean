import VaultShell.Shell.CommandLine
import VaultShell.Shell.State
import VaultShell.Text.Basic

/-!
# Reading files

`cat` and `less` print whole files, `head` and `tail` the first or the last lines of them. A file
that cannot be read leaves a message in its place and does not keep the others from being printed.
-/

namespace VaultShell

namespace Shell

/-! ## Whole files -/

/-- The lines of a text, each behind its number. -/
def numberLines (text : String) : String :=
  let numbered := (Text.lines text).zipIdx 1 |>.map fun (line, number) =>
    Text.padLeft ' ' 6 (toString number) ++ "\t" ++ line
  Text.joinLines numbered

/-- What stands for one file: its content without the line feeds at its end, or why it cannot be
read. -/
def printedFile (shell : Shell) (command operand : String) : String :=
  match shell.vault.read (shell.resolve operand) with
  | .ok content => Text.dropFinalFeeds content
  | .error fault => s!"{command}: {operand}: {fault.message}"

/-- `cat` and `less`, which differ in nothing but their name: print whole files. -/
def print (command : String) (shell : Shell) (arguments : List String) : Except Failure String :=
  match operandsOf arguments with
  | [] => .error (.usage s!"Usage: {command} <filename>")
  | operands =>
    let text := Text.joinLines (operands.map (shell.printedFile command))
    .ok (if hasFlag ["-n", "--number"] arguments then numberLines text else text)

/-! ## The first and the last lines -/

/-- The end of a file that an excerpt is taken from. -/
inductive FileEnd where
  | front
  | back
  deriving DecidableEq, Repr

namespace FileEnd

/-- The command that prints lines from this end. -/
def command : FileEnd → String
  | .front => "head"
  | .back => "tail"

/-- A number of elements at this end, all of them if there are no more. -/
def pick {α : Type} (count : Nat) (elements : List α) : FileEnd → List α
  | .front => elements.take count
  | .back => elements.drop (elements.length - count)

end FileEnd

/-- The number of lines that is printed unless another one is asked for. -/
def defaultLineCount : Nat := 10

/-- Reads a number of lines. -/
def lineCount (side : FileEnd) (spelling : String) : Except Failure Nat :=
  match Text.readCount? spelling with
  | some count => .ok count
  | none => .error (.usage s!"{side.command}: invalid number of lines: '{spelling}'")

/-- The spelling of the number in an argument that carries it. -/
def attachedCount? (argument : String) : Option String :=
  match argument.toList with
  | '-' :: 'n' :: spelling => some (String.ofList spelling)
  | '-' :: '-' :: 'l' :: 'i' :: 'n' :: 'e' :: 's' :: '=' :: spelling =>
    some (String.ofList spelling)
  | '-' :: d :: ds => if (d :: ds).all Char.isDigit then some (String.ofList (d :: ds)) else none
  | _ => none

/-- Reads the arguments from left to right: the number of lines, the last one given, and the
operands. -/
def excerptRequest (side : FileEnd) (count : Nat) :
    List String → Except Failure (Nat × List String)
  | [] => .ok (count, [])
  | argument :: rest =>
    if argument = "-n" ∨ argument = "--lines" then
      match rest with
      | [] => .error (.usage s!"{side.command}: option requires an argument -- 'n'")
      | spelling :: rest =>
        match lineCount side spelling with
        | .error failure => .error failure
        | .ok count => excerptRequest side count rest
    else
      match attachedCount? argument with
      | some spelling =>
        match lineCount side spelling with
        | .error failure => .error failure
        | .ok count => excerptRequest side count rest
      | none =>
        if isFlag argument then excerptRequest side count rest
        else
          match excerptRequest side count rest with
          | .error failure => .error failure
          | .ok (count, operands) => .ok (count, argument :: operands)

/-- The picked lines of a text. -/
def excerptOf (side : FileEnd) (count : Nat) (content : String) : String :=
  Text.joinLines (side.pick count (Text.lines content))

/-- What stands for one file: its picked lines, under a heading if asked for, or why it cannot be
read. -/
def excerptSection (shell : Shell) (side : FileEnd) (count : Nat) (headed : Bool)
    (operand : String) : String :=
  match shell.vault.read (shell.resolve operand) with
  | .error fault => s!"{side.command}: cannot open '{operand}' for reading: {fault.message}"
  | .ok content =>
    let body := excerptOf side count content
    if headed then s!"==> {operand} <==\n{body}" else body

/-- `head` and `tail`: print lines from one end of each file. -/
def excerpt (side : FileEnd) (shell : Shell) (arguments : List String) : Except Failure String :=
  match excerptRequest side defaultLineCount arguments with
  | .error failure => .error failure
  | .ok (_, []) => .error (.usage s!"Usage: {side.command} <filename>")
  | .ok (count, operand :: rest) =>
    .ok (Text.joinLines
      ((operand :: rest).map (shell.excerptSection side count (!rest.isEmpty))))

end Shell

end VaultShell
