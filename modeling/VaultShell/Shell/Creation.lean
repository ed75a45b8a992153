import VaultShell.Shell.CommandLine
import VaultShell.Shell.State

/-!
# Creating nodes

`mkdir` creates directories and `touch` creates files and renews modification times. Both take their
operands one after the other: an operand that cannot be created leaves a message and does not keep
the others from being created. What is there already is left as it is.
-/

namespace VaultShell

namespace Shell

/-! ## Directories -/

/-- What the flags of `mkdir` ask for. -/
structure MakeSettings where
  parents : Bool
  verbose : Bool
  deriving DecidableEq, Repr

/-- The help text of `mkdir`. -/
def makeDirectoriesHelp : String :=
  "Usage: mkdir [OPTION]... DIRECTORY...\n" ++
    "Create the DIRECTORY(ies), if they do not already exist.\n\n" ++
    "  -p, --parents     make parent directories as needed\n" ++
    "  -v, --verbose     print a message for each created directory\n" ++
    "      --help        display this help and exit"

/-- The flags that `mkdir` knows besides the one for help. -/
def makeFlags : List String :=
  ["-p", "--parents", "-v", "--verbose"]

/-- Reads the settings. -/
def makeSettings (arguments : List String) : MakeSettings :=
  ⟨hasFlag ["-p", "--parents"] arguments, hasFlag ["-v", "--verbose"] arguments⟩

/-- Creates one directory, unless something is there already. Gives the paths created. -/
def makeDirectory (shell : Shell) (operand : String) : Shell × Except Fault (List String) :=
  let path := shell.resolve operand
  if shell.vault.has path then (shell, .ok [])
  else
    match shell.vault.createDirectory path shell.clock with
    | .error fault => (shell, .error fault)
    | .ok vault => (shell.withVault vault, .ok [path])

/-- Walks down from a path, which is empty at the root, and creates every directory that is missing
on the way. Gives the paths created, the shortest first. -/
def makeDown (shell : Shell) (above : String) : List String → Shell × Except Fault (List String)
  | [] => (shell, .ok [])
  | name :: rest =>
    let path := above ++ "/" ++ name
    match shell.vault.find? path with
    | some (.directory ..) => makeDown shell path rest
    | some (.file ..) => (shell, .error .notDirectory)
    | none =>
      match shell.vault.createDirectory path shell.clock with
      | .error fault => (shell, .error fault)
      | .ok vault =>
        let (after, result) := makeDown (shell.withVault vault) path rest
        (after, result.map (path :: ·))

/-- Creates a directory and all directories above it that are missing. -/
def makePath (shell : Shell) (operand : String) : Shell × Except Fault (List String) :=
  makeDown shell "" (Path.components (shell.resolve operand))

/-- Carries `mkdir` out for one operand. -/
def makeOperand (settings : MakeSettings) (shell : Shell) (operand : String) :
    Shell × List String :=
  let (after, result) :=
    if settings.parents then shell.makePath operand else shell.makeDirectory operand
  match result with
  | .error fault => (after, [s!"mkdir: cannot create directory '{operand}': {fault.message}"])
  | .ok created =>
    let messages := created.map fun path => s!"mkdir: created directory '{path}'"
    (after, if settings.verbose then messages else [])

/-- `mkdir`: creates directories. Of a request for help and an unknown flag the first one counts. -/
def makeDirectories (shell : Shell) (arguments : List String) : Shell × Except Failure String :=
  match firstUnknown? makeFlags arguments with
  | some flag =>
    if flag = helpFlag then (shell, .ok makeDirectoriesHelp)
    else (shell, .error (.usage s!"mkdir: unrecognized option '{flag}'. Try --help for more info."))
  | none =>
    match operandsOf arguments with
    | [] => (shell, .error (.usage "mkdir: missing operand"))
    | operands =>
      let (after, report) := shell.eachOperand (makeOperand (makeSettings arguments)) operands
      (after, .ok (Text.joinLines report))

/-! ## Files and modification times -/

/-- The help text of `touch`. -/
def touchHelp : String :=
  "Usage: touch [OPTION]... FILE...\n" ++
    "Update the modification time of each FILE to the current time.\n" ++
    "A FILE argument that does not exist is created.\n\n" ++
    "  -c, --no-create    do not create any files\n" ++
    "      --help         display this help and exit"

/-- What `touch` reports of an operand that it cannot create. -/
def touchMessage (operand : String) (fault : Fault) : String :=
  s!"touch: cannot touch '{operand}': {fault.message}"

/-- Creates a file with the stand-in content that its name asks for. -/
def createPlaceholder (vault : Vault) (path : String) (time : Instant) : Except Fault Vault :=
  match Path.split path with
  | .error fault => .error fault
  | .ok (_, name) => vault.createFile path (placeholder name) time

/-- Carries `touch` out for one operand. -/
def touchOperand (noCreate : Bool) (shell : Shell) (operand : String) : Shell × List String :=
  let path := shell.resolve operand
  match shell.vault.stamp? path shell.clock with
  | some vault => (shell.withVault vault, [])
  | none =>
    if noCreate then (shell, [])
    else
      match createPlaceholder shell.vault path shell.clock with
      | .error fault => (shell, [touchMessage operand fault])
      | .ok vault => (shell.withVault vault, [])

/-- `touch`: renews modification times and creates what is missing. -/
def touch (shell : Shell) (arguments : List String) : Shell × Except Failure String :=
  if helpFlag ∈ arguments then (shell, .ok touchHelp)
  else
    match operandsOf arguments with
    | [] => (shell, .error (.usage "touch: missing file operand"))
    | operands =>
      let noCreate := hasFlag ["-c", "--no-create"] arguments
      let (after, report) := shell.eachOperand (touchOperand noCreate) operands
      (after, .ok (Text.joinLines report))

end Shell

end VaultShell
