import VaultShell.Shell.Command
import VaultShell.Shell.CommandLine

/-!
# Running lines

A line is looked up in a table and carried out on the state. Whatever happens, a line has an answer:
failures become text. The clock advances once for each line that reaches a command of the vault,
whether the command succeeds or not; blank lines, unknown names and sentinels leave it alone.

## Main definitions

* `Reply`: text to show, or a sentinel
* `Shell.run`: one line
* `Shell.after`, `Shell.afterAll`: the state after one line and after a list of lines

Main statement: `Shell.run_fst`, the reading of the wall clock never reaches the state.
-/

namespace VaultShell

/-- The answer to a line. -/
inductive Reply where
  | output (text : String)
  | sentinel (sentinel : Sentinel)
  deriving DecidableEq, Repr

namespace Shell

/-- The text that a command's result is shown as. -/
def resultText : Except Failure String → String
  | .ok text => text
  | .error failure => failure.message

/-- Carries one line out. -/
def run (table : CommandTable) (wallClock : String) (shell : Shell) (input : String) :
    Shell × Reply :=
  match CommandLine.parse? input with
  | none => (shell, .output "")
  | some line =>
    match table.find? line.name with
    | none => (shell, .output (Failure.message (.unrecognized line.raw)))
    | some action =>
      match action.sentinel? with
      | some sentinel => (shell, .sentinel sentinel)
      | none =>
        let (after, result) := action.execute wallClock shell.tick line.arguments
        (after, .output (resultText result))

/-- The state after one line. What the line prints is dropped, so no wall clock is needed. -/
def after (table : CommandTable) (shell : Shell) (input : String) : Shell :=
  (shell.run table "" input).1

/-- The state after a list of lines, oldest first. -/
def afterAll (table : CommandTable) (shell : Shell) (inputs : List String) : Shell :=
  inputs.foldl (after table) shell

/-- The state after a line does not depend on the wall clock. -/
theorem run_fst (table : CommandTable) (wallClock : String) (shell : Shell) (input : String) :
    (shell.run table wallClock input).1 = shell.after table input := by
  unfold after run
  cases CommandLine.parse? input with
  | none => rfl
  | some line =>
    cases hfind : table.find? line.name with
    | none => simp only [hfind]
    | some action =>
      cases hsentinel : action.sentinel? with
      | none =>
        simp only [hfind, hsentinel]
        exact action.execute_fst wallClock "" shell.tick line.arguments
      | some sentinel => simp only [hfind, hsentinel]

/-- Lines run in two parts. -/
theorem afterAll_append (table : CommandTable) (shell : Shell) (inputs more : List String) :
    shell.afterAll table (inputs ++ more) = (shell.afterAll table inputs).afterAll table more :=
  List.foldl_append

end Shell

end VaultShell
