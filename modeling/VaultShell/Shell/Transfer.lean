import VaultShell.Shell.CommandLine
import VaultShell.Shell.State

/-!
# Copying and moving

`cp` and `mv` share their operands: one or more sources and a destination, which has to be a
directory if there are several sources. A destination that is a directory receives the node under
its own name. Every check is made before the vault is changed, so that a source that cannot be
copied or moved leaves everything as it was.

A moved node may not hold the working directory, nothing may go beneath itself, and `mv` never
replaces a directory. `cp` replaces what stands at the target, but not a directory by a file.
-/

namespace VaultShell

namespace Shell

/-- The sources and the destination among the operands: the destination is the last one. -/
def sourcesAndDestination? (operands : List String) : Option (List String × String) :=
  match operands.dropLast, operands.getLast? with
  | source :: sources, some destination => some (source :: sources, destination)
  | _, _ => none

/-- The path that a node goes to: the destination, or its own name beneath it if a directory is
there. -/
def targetOf (shell : Shell) (origin destination : String) : Except Fault String :=
  let path := shell.resolve destination
  if shell.vault.isDirectory path then
    match Path.split origin with
    | .error fault => .error fault
    | .ok (_, name) => .ok (Path.join path name)
  else .ok path

/-- Runs a transfer for each source; `step` says what it reports. Several sources need a directory
to go to. -/
def transferAll (command : String) (step : Shell → String → String → Shell × List String)
    (shell : Shell) (operands : List String) : Shell × Except Failure String :=
  match sourcesAndDestination? operands with
  | none => (shell, .error (.usage s!"{command}: missing file operand"))
  | some (sources, destination) =>
    if 1 < sources.length ∧ !shell.vault.isDirectory (shell.resolve destination) then
      (shell, .error (.fault s!"{command}: target '{destination}'" .notDirectory))
    else
      let (after, report) :=
        shell.eachOperand (fun shell source => step shell source destination) sources
      (after, .ok (Text.joinLines report))

/-! ## Copying -/

/-- What the flags of `cp` ask for. -/
structure CopySettings where
  recursive : Bool
  verbose : Bool
  deriving DecidableEq, Repr

/-- The help text of `cp`. -/
def copyHelp : String :=
  "Usage: cp [OPTION]... SOURCE DEST\n       cp [OPTION]... SOURCE... DIRECTORY\n" ++
    "Copy SOURCE to DEST, or multiple SOURCE(s) to DIRECTORY.\n\n" ++
    "  -R, -r, --recursive   copy directories recursively\n" ++
    "  -v, --verbose         explain what is being done\n" ++
    "      --help            display this help and exit"

/-- The flags that `cp` knows besides the one for help. -/
def copyFlags : List String :=
  ["-r", "-R", "--recursive", "-v", "--verbose", "-f", "--force"]

/-- Reads the settings. -/
def copySettings (arguments : List String) : CopySettings :=
  ⟨hasFlag ["-r", "-R", "--recursive"] arguments, hasFlag ["-v", "--verbose"] arguments⟩

/-- Why a node may not be copied from one path to another; the two operands are named as typed. -/
def copyRefusal? (shell : Shell) (source destination origin target : String) (node : Node) :
    Option Failure :=
  if target = origin then
    some (.usage s!"cp: '{source}' and '{destination}' are the same file")
  else if node.isDirectory && Path.isUnder target origin then
    some (.usage s!"cp: cannot copy a directory, '{source}', into itself, '{destination}'")
  else if shell.vault.isDirectory target && !node.isDirectory then
    some (.usage s!"cp: cannot overwrite directory '{target}' with non-directory")
  else none

/-- Copies one source; gives the path written. -/
def copyNode (recursive : Bool) (shell : Shell) (source destination : String) :
    Shell × Except Failure String :=
  let origin := shell.resolve source
  let refuse (failure : Failure) : Shell × Except Failure String := (shell, .error failure)
  match shell.vault.find? origin with
  | none => refuse (.fault s!"cp: cannot stat '{source}'" .notFound)
  | some node =>
    if node.isDirectory && !recursive then
      refuse (.usage s!"cp: -r not specified; omitting directory '{source}'")
    else
      match shell.targetOf origin destination with
      | .error fault => refuse (.fault s!"cp: cannot copy '{source}'" fault)
      | .ok target =>
        match shell.copyRefusal? source destination origin target node with
        | some failure => refuse failure
        | none =>
          match shell.vault.place target (node.stamp shell.clock) with
          | .error fault => refuse (.fault s!"cp: cannot create '{destination}'" fault)
          | .ok vault => (shell.withVault vault, .ok target)

/-- Carries `cp` out for one source. -/
def copyOperand (settings : CopySettings) (shell : Shell) (source destination : String) :
    Shell × List String :=
  let (after, result) := copyNode settings.recursive shell source destination
  (after, reportOf (fun target =>
    if settings.verbose then [s!"'{source}' -> '{target}'"] else []) result)

/-- `cp`: copies files, and directories where a flag allows it. -/
def copy (shell : Shell) (arguments : List String) : Shell × Except Failure String :=
  if helpFlag ∈ arguments then (shell, .ok copyHelp)
  else
    match firstUnknown? copyFlags arguments with
    | some flag =>
      (shell, .error (.usage s!"cp: unrecognized option '{flag}'. Try --help for more info."))
    | none =>
      transferAll "cp" (copyOperand (copySettings arguments)) shell (operandsOf arguments)

/-! ## Moving -/

/-- The help text of `mv`. -/
def moveHelp : String :=
  "Usage: mv [OPTION]... SOURCE DEST\n       mv [OPTION]... SOURCE... DIRECTORY\n" ++
    "Rename SOURCE to DEST, or move SOURCE(s) to DIRECTORY.\n\n" ++
    "  -v, --verbose         explain what is being done\n" ++
    "      --help            display this help and exit"

/-- The flags that `mv` knows besides the one for help. -/
def moveFlags : List String :=
  ["-v", "--verbose", "-f", "--force"]

/-- Why a node may not be moved from one path to another, both different; the two operands are named
as typed. -/
def moveRefusal? (shell : Shell) (source destination origin target : String) (node : Node) :
    Option Failure :=
  if node.isDirectory && Path.isUnder target origin then
    some (.usage s!"mv: cannot move '{source}' to a subdirectory of itself, '{destination}'")
  else if shell.vault.isDirectory target || (shell.vault.has target && node.isDirectory) then
    some (.fault s!"mv: cannot overwrite '{target}'" .exists)
  else
    match Path.split target with
    | .error fault => some (.fault s!"mv: cannot move '{source}'" fault)
    | .ok (parent, _) =>
      if shell.vault.isDirectory parent then none
      else some (.fault s!"mv: cannot move '{source}' to '{destination}'" .notFound)

/-- Detaches the node at one path and puts it at another one. -/
def relocate (shell : Shell) (source destination origin target : String) :
    Shell × Except Failure String :=
  match shell.vault.remove origin with
  | .error fault => (shell, .error (.fault s!"mv: cannot move '{source}'" fault))
  | .ok (node, without) =>
    match without.place target (node.stamp shell.clock) with
    | .error fault =>
      (shell.withVault without,
        .error (.fault s!"mv: cannot move '{source}' to '{destination}'" fault))
    | .ok vault => (shell.withVault vault, .ok target)

/-- Moves one source; gives the path it stands at. The root and whatever holds the working directory
stay where they are. -/
def moveNode (shell : Shell) (source destination : String) : Shell × Except Failure String :=
  let origin := shell.resolve source
  let refuse (failure : Failure) : Shell × Except Failure String := (shell, .error failure)
  match shell.vault.find? origin with
  | none => refuse (.fault s!"mv: cannot stat '{source}'" .notFound)
  | some node =>
    if Path.isUnder shell.cwd origin then refuse (.fault s!"mv: cannot move '{source}'" .busy)
    else
      match shell.targetOf origin destination with
      | .error fault => refuse (.fault s!"mv: cannot move '{source}'" fault)
      | .ok target =>
        if target = origin then (shell, .ok target)
        else
          match shell.moveRefusal? source destination origin target node with
          | some failure => refuse failure
          | none => shell.relocate source destination origin target

/-- Carries `mv` out for one source. -/
def moveOperand (verbose : Bool) (shell : Shell) (source destination : String) :
    Shell × List String :=
  let (after, result) := moveNode shell source destination
  (after, reportOf (fun target =>
    if verbose then [s!"renamed '{source}' -> '{target}'"] else []) result)

/-- `mv`: moves files and directories. -/
def move (shell : Shell) (arguments : List String) : Shell × Except Failure String :=
  if helpFlag ∈ arguments then (shell, .ok moveHelp)
  else
    match firstUnknown? moveFlags arguments with
    | some flag =>
      (shell, .error (.usage s!"mv: unrecognized option '{flag}'. Try --help for more info."))
    | none =>
      transferAll "mv" (moveOperand (hasFlag ["-v", "--verbose"] arguments)) shell
        (operandsOf arguments)

end Shell

end VaultShell
