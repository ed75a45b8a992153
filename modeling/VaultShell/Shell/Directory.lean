import VaultShell.Shell.CommandLine
import VaultShell.Shell.State
import VaultShell.Time.Calendar

/-!
# Directories

`cd` moves the working directory and `pwd` prints it. The working directory only ever moves onto a
directory that exists, and each move remembers the one before it, for `cd -`.

`ls` lists the children of a directory, or the one file it is given. Only the first operand counts.
Children whose name begins with a full stop are left out unless all are asked for, and then the
directory itself and its parent stand before them.

## Main definitions

* `Shell.changeDirectory`, `Shell.printDirectory`: moving the working directory, and printing it
* `Shell.list`: listing a directory or a file
-/

namespace VaultShell

/-! ## The working directory -/

namespace Shell

/-- The help text of `pwd`. -/
def printDirectoryHelp : String :=
  "Usage: pwd [OPTION]...\nPrint the full filename of the current working directory.\n\n" ++
    "      --help      display this help and exit"

/-- `pwd`: prints the working directory. There are no links, so all other flags ask for the same. -/
def printDirectory (shell : Shell) (arguments : List String) : Except Failure String :=
  if helpFlag ∈ arguments then .ok printDirectoryHelp else .ok shell.cwd

/-- The operand of `cd`; without one it is the tilde, which stands for the root. -/
def directoryOperand : List String → Except Failure String
  | [] => .ok "~"
  | [operand] => .ok operand
  | _ => .error (.usage "cd: too many arguments")

/-- Moves the working directory to a path, if a directory is there; a failure names the operand. -/
def enter (shell : Shell) (operand path : String) : Shell × Except Failure Unit :=
  match shell.vault.find? path with
  | some (.directory ..) => ({ shell with cwd := path, previous := some shell.cwd }, .ok ())
  | some (.file ..) => (shell, .error (.fault s!"cd: {operand}" .notDirectory))
  | none => (shell, .error (.fault s!"cd: {operand}" .notFound))

/-- `cd`: moves the working directory. A single hyphen goes back to the one before and prints it. -/
def changeDirectory (shell : Shell) (arguments : List String) : Shell × Except Failure String :=
  match directoryOperand arguments with
  | .error failure => (shell, .error failure)
  | .ok operand =>
    if operand = "-" then
      match shell.previous with
      | none => (shell, .error (.usage "cd: OLDPWD not set"))
      | some path =>
        let (after, result) := shell.enter operand path
        (after, result.map fun _ => path)
    else
      let (after, result) := shell.enter operand (shell.resolve operand)
      (after, result.map fun _ => "")

end Shell

/-! ## Listings -/

namespace Shell

/-- What the letters of the flags ask for. -/
structure ListSettings where
  showAll : Bool
  long : Bool
  onePerLine : Bool
  deriving DecidableEq, Repr

/-- The help text of `ls`. -/
def listHelp : String :=
  "Usage: ls [OPTION]... [FILE]...\n" ++
    "List information about the FILEs (the current directory by default).\n\n" ++
    "  -a             do not ignore entries starting with .\n" ++
    "  -l             use a long listing format\n" ++
    "  -1             list one file per line\n" ++
    "      --help     display this help and exit"

/-- Reads the settings. Every flag is taken as letters here, two hyphens in front or one. -/
def listSettings (arguments : List String) : ListSettings :=
  let letters := arguments.flatMap flagLetters
  ⟨'a' ∈ letters, 'l' ∈ letters, '1' ∈ letters⟩

/-- Whether a name is left out of a listing. -/
def isHidden (name : String) : Bool :=
  name.toList.head? == some '.'

/-- The letter of a node's kind and those of its permissions. -/
def modeLetters (node : Node) : String :=
  (if node.isDirectory then "d" else "-") ++ node.permissions.rwx

/-- One row of a long listing. -/
def longRow (identity : String) (row : String × Node) : String :=
  let (name, node) := row
  " ".intercalate
    [modeLetters node, Text.padLeft ' ' 2 "1", Text.padRight 8 identity, Text.padRight 8 "vault",
     Text.padLeft ' ' 5 (toString node.size), ClockTime.short node.modified, name]

/-- The rows for the node at a path: the children of a directory, or a file under the name it was
asked for. -/
def listRows (shell : Shell) (settings : ListSettings) (operand path : String) :
    Node → List (String × Node)
  | .file attributes content => [(operand, .file attributes content)]
  | .directory attributes children =>
    if settings.showAll then
      let here := Node.directory attributes children
      let above := (shell.vault.find? (Path.resolve path "..")).getD here
      (".", here) :: ("..", above) :: children
    else children.filter fun child => !isHidden child.1

/-- The text of the rows. -/
def listText (identity : String) (settings : ListSettings) (rows : List (String × Node)) : String :=
  let shown := if settings.long then rows.map (longRow identity) else rows.map Prod.fst
  (if settings.long || settings.onePerLine then "\n" else "  ").intercalate shown

/-- `ls`: lists a directory or a file. -/
def list (shell : Shell) (arguments : List String) : Except Failure String :=
  if helpFlag ∈ arguments then .ok listHelp
  else
    let settings := listSettings arguments
    let operand := (operandsOf arguments).headD "."
    let path := shell.resolve operand
    match shell.vault.find? path with
    | none => .error (.fault s!"ls: cannot access '{operand}'" .notFound)
    | some node =>
      .ok (listText shell.identity settings (shell.listRows settings operand path node))

end Shell

end VaultShell
