import VaultShell.Shell.Creation
import VaultShell.Shell.Directory
import VaultShell.Shell.Reading
import VaultShell.Shell.Removal
import VaultShell.Shell.CommandLine
import VaultShell.Shell.Transfer

/-!
# Commands

The commands of the shell, what each of them does to the state, and the tables in which a line's
first word is looked up.

Only `date` depends on anything outside the state: it prints the reading of a wall clock, which is
handed in as the text to show.

A table knows nothing of the commands but what it takes to run one, so that it may hold others than
these, and these under other names.

## Main definitions

* `Command`, `Command.name`, `Command.ofName?`: the commands
* `Command.sentinel?`: the commands that the session handles itself
* `Command.execute`: what a command does and prints
* `Action`: what there is to run under a name
* `CommandTable`: the names that are known in a place
-/

namespace VaultShell

/-- The commands of the shell. -/
inductive Command where
  | cat
  | cd
  | clear
  | cp
  | date
  | exit
  | head
  | less
  | ls
  | mkdir
  | mv
  | pwd
  | rm
  | rmdir
  | tail
  | touch
  | whoami
  deriving DecidableEq, Repr

namespace Command

/-- The name by which a line asks for a command. -/
def name : Command → String
  | .cat => "cat"
  | .cd => "cd"
  | .clear => "clear"
  | .cp => "cp"
  | .date => "date"
  | .exit => "exit"
  | .head => "head"
  | .less => "less"
  | .ls => "ls"
  | .mkdir => "mkdir"
  | .mv => "mv"
  | .pwd => "pwd"
  | .rm => "rm"
  | .rmdir => "rmdir"
  | .tail => "tail"
  | .touch => "touch"
  | .whoami => "whoami"

/-- All commands, in the order of their names. -/
def all : List Command :=
  [.cat, .cd, .clear, .cp, .date, .exit, .head, .less, .ls, .mkdir, .mv, .pwd, .rm, .rmdir, .tail,
   .touch, .whoami]

/-- The sentinel of a command that the session handles itself. -/
def sentinel? : Command → Option Sentinel
  | .clear => some .clearScreen
  | .exit => some .exitSession
  | _ => none

/-- What a command that leaves the state alone prints. -/
def readOnly (shell : Shell) (result : Except Failure String) : Shell × Except Failure String :=
  (shell, result)

/-- What a command does to the state and what it prints. -/
def execute (wallClock : String) (shell : Shell) (arguments : List String) :
    Command → Shell × Except Failure String
  | .cat => readOnly shell (Shell.print "cat" shell arguments)
  | .cd => shell.changeDirectory arguments
  | .clear => readOnly shell (.ok "")
  | .cp => shell.copy arguments
  | .date => readOnly shell (.ok wallClock)
  | .exit => readOnly shell (.ok "")
  | .head => readOnly shell (Shell.excerpt .front shell arguments)
  | .less => readOnly shell (Shell.print "less" shell arguments)
  | .ls => readOnly shell (shell.list arguments)
  | .mkdir => shell.makeDirectories arguments
  | .mv => shell.move arguments
  | .pwd => readOnly shell (shell.printDirectory arguments)
  | .rm => shell.remove arguments
  | .rmdir => shell.removeDirectories arguments
  | .tail => readOnly shell (Shell.excerpt .back shell arguments)
  | .touch => shell.touch arguments
  | .whoami => readOnly shell (.ok shell.identity)

/-- The command with a given name. -/
def ofName? (name : String) : Option Command :=
  all.find? (·.name = name)

/-- No command lets the wall clock into the state. -/
theorem execute_fst (wallClock other : String) (shell : Shell) (arguments : List String)
    (command : Command) :
    (command.execute wallClock shell arguments).1 = (command.execute other shell arguments).1 := by
  cases command <;> rfl

end Command

/-- What there is to run under a name. The reading of the wall clock may be printed, but the state
afterwards has to be the same whatever it was. -/
structure Action where
  /-- The sentinel, if the session handles the command itself. -/
  sentinel? : Option Sentinel
  /-- The state afterwards and what is printed, from the reading of the wall clock, the state and
  the arguments. -/
  execute : String → Shell → List String → Shell × Except Failure String
  execute_fst : ∀ wallClock other shell arguments,
    (execute wallClock shell arguments).1 = (execute other shell arguments).1

/-- What is run for a command. -/
def Command.action (command : Command) : Action where
  sentinel? := command.sentinel?
  execute wallClock shell arguments := command.execute wallClock shell arguments
  execute_fst wallClock other shell arguments :=
    Command.execute_fst wallClock other shell arguments command

/-- The names that are known in a place, and what is run for each of them. -/
structure CommandTable where
  actions : Catalog Action

namespace CommandTable

/-- The table with every command under its own name. -/
def standard : CommandTable := ⟨Command.all.map fun command => (command.name, command.action)⟩

/-- The table without commands. -/
def empty : CommandTable := ⟨[]⟩

/-- What is run for a given name. -/
def find? (table : CommandTable) (name : String) : Option Action :=
  Catalog.get? table.actions name

/-- The known names, in order. -/
def names (table : CommandTable) : List String :=
  Catalog.names table.actions

/-- The standard table runs each command under its own name, and nothing else. -/
theorem standard_find? (name : String) :
    standard.find? name = (Command.ofName? name).map Command.action := by
  have key : ∀ commands : List Command,
      Catalog.get? (commands.map fun command => (command.name, command.action)) name =
        (commands.find? (·.name = name)).map Command.action := by
    intro commands
    induction commands with
    | nil => rfl
    | cons command rest ih =>
      simp only [List.map_cons, Catalog.get?, List.find?_cons]
      by_cases hname : command.name = name
      · simp [hname]
      · simp [hname, ih]
  exact key Command.all

end CommandTable

end VaultShell
