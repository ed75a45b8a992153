import VaultShell.Shell.CommandLine
import VaultShell.Shell.State
import VaultShell.Text.Basic

/-!
# Removing nodes

`rm` removes files, and directories where a flag allows it; `rmdir` removes directories without
children. An operand that is not there is passed over in silence, and neither command removes a
directory in or beneath which the shell works.

`rmdir -p` goes on with the directories above the operand. They are named by the operand's text
alone: each is what stands before the last slash of the one below it.
-/

namespace VaultShell

namespace Shell

/-! ## Files and trees -/

/-- What the flags of `rm` ask for. -/
structure RemoveSettings where
  recursive : Bool
  /-- Directories without children may go too. -/
  emptyDirectories : Bool
  verbose : Bool
  deriving DecidableEq, Repr

/-- The help text of `rm`. -/
def removeHelp : String :=
  "Usage: rm [OPTION]... [FILE]...\nRemove (unlink) the FILE(s).\n\n" ++
    "  -f, --force           ignore nonexistent files and arguments, never prompt\n" ++
    "  -r, -R, --recursive   remove directories and their contents recursively\n" ++
    "  -d, --dir             remove empty directories\n" ++
    "  -v, --verbose         explain what is being done\n" ++
    "      --help            display this help and exit"

/-- Reads the settings; letters may stand in clusters. -/
def removeSettings (arguments : List String) : RemoveSettings where
  recursive := hasFlag ["--recursive"] arguments || hasLetter ['r', 'R'] arguments
  emptyDirectories := hasFlag ["--dir"] arguments || hasLetter ['d'] arguments
  verbose := hasFlag ["--verbose"] arguments || hasLetter ['v'] arguments

/-- Why the node at a path may not be removed. -/
def removalFault? (shell : Shell) (settings : RemoveSettings) (path : String) :
    Node → Option Fault
  | .file .. => none
  | .directory _ children =>
    if !settings.recursive && !(settings.emptyDirectories && children.isEmpty) then
      some .isDirectory
    else if Path.isUnder shell.cwd path then some .busy
    else none

/-- Removes the node that an operand names; gives whether one was there. -/
def removeNode (settings : RemoveSettings) (shell : Shell) (operand : String) :
    Shell × Except Failure Bool :=
  let path := shell.resolve operand
  let refuse (fault : Fault) : Shell × Except Failure Bool :=
    (shell, .error (.fault s!"rm: cannot remove '{operand}'" fault))
  match shell.vault.find? path with
  | none => (shell, .ok false)
  | some node =>
    match shell.removalFault? settings path node with
    | some fault => refuse fault
    | none =>
      match shell.vault.remove path with
      | .error fault => refuse fault
      | .ok (_, vault) => (shell.withVault vault, .ok true)

/-- Carries `rm` out for one operand. -/
def removeOperand (settings : RemoveSettings) (shell : Shell) (operand : String) :
    Shell × List String :=
  let (after, result) := removeNode settings shell operand
  (after, reportOf (fun removed =>
    if removed && settings.verbose then [s!"removed '{operand}'"] else []) result)

/-- `rm`: removes files and trees. Flags it does not know are passed over. -/
def remove (shell : Shell) (arguments : List String) : Shell × Except Failure String :=
  if helpFlag ∈ arguments then (shell, .ok removeHelp)
  else
    match operandsOf arguments with
    | [] => (shell, .error (.usage "rm: missing operand"))
    | operands =>
      let (after, report) := shell.eachOperand (removeOperand (removeSettings arguments)) operands
      (after, .ok (Text.joinLines report))

/-! ## Directories without children -/

/-- What the flags of `rmdir` ask for. -/
structure RemoveDirectorySettings where
  ignoreNotEmpty : Bool
  parents : Bool
  verbose : Bool
  deriving DecidableEq, Repr

/-- The help text of `rmdir`. -/
def removeDirectoriesHelp : String :=
  "Usage: rmdir [OPTION]... DIRECTORY...\nRemove the DIRECTORY(ies), if they are empty.\n\n" ++
    "      --ignore-fail-on-non-empty  ignore each failure to remove a non-empty directory\n" ++
    "  -p, --parents                   remove DIRECTORY and its ancestors\n" ++
    "  -v, --verbose                   output a diagnostic for every directory processed\n" ++
    "      --help                      display this help and exit"

/-- The flags that `rmdir` knows besides the one for help. -/
def removeDirectoryFlags : List String :=
  ["--ignore-fail-on-non-empty", "-p", "--parents", "-v", "--verbose"]

/-- Reads the settings. -/
def removeDirectorySettings (arguments : List String) : RemoveDirectorySettings where
  ignoreNotEmpty := hasFlag ["--ignore-fail-on-non-empty"] arguments
  parents := hasFlag ["-p", "--parents"] arguments
  verbose := hasFlag ["-v", "--verbose"] arguments

/-- What stands before the last slash of an operand, slashes at its end apart; none if nothing
does. -/
def parentChars? (operand : List Char) : Option (List Char) :=
  match Text.cutLast? '/' (Text.dropTrailing (· = '/') operand) with
  | none => none
  | some (parent, _) => if parent.isEmpty then none else some parent

theorem length_parentChars?_lt {operand parent : List Char}
    (h : parentChars? operand = some parent) : parent.length < operand.length := by
  unfold parentChars? at h
  cases hcut : Text.cutLast? '/' (Text.dropTrailing (· = '/') operand) with
  | none => simp [hcut] at h
  | some parts =>
    obtain ⟨before, after⟩ := parts
    have hparts := congrArg List.length (Text.eq_of_cutLast? hcut)
    have hle := Text.length_dropTrailing_le (· = '/') operand
    rw [hcut] at h
    by_cases he : before.isEmpty = true
    · simp [he] at h
    · simp only [he] at h
      obtain rfl : before = parent := by simpa using h
      simp only [List.length_append, List.length_cons] at hparts
      omega

/-- An operand and the parts of its text that name the directories above it, the nearest first. -/
def ancestryChars (operand : List Char) : List (List Char) :=
  match h : parentChars? operand with
  | none => [operand]
  | some parent =>
    have : parent.length < operand.length := length_parentChars?_lt h
    operand :: ancestryChars parent
termination_by operand.length

/-- An operand and the parts of its text that name the directories above it, the nearest first. -/
def ancestry (operand : String) : List String :=
  (ancestryChars operand.toList).map String.ofList

/-- Removes the directory at a path if it has no children; gives whether one was there. -/
def removeEmpty (shell : Shell) (path : String) : Shell × Except Fault Bool :=
  match shell.vault.find? path with
  | none => (shell, .ok false)
  | some (.file ..) => (shell, .error .notDirectory)
  | some (.directory _ children) =>
    if !children.isEmpty then (shell, .error .notEmpty)
    else if Path.isUnder shell.cwd path then (shell, .error .busy)
    else
      match shell.vault.remove path with
      | .error fault => (shell, .error fault)
      | .ok (_, vault) => (shell.withVault vault, .ok true)

/-- Removes one directory after the other, as long as each is there and can be removed. -/
def removeChain (settings : RemoveDirectorySettings) (shell : Shell) :
    List String → Shell × List String
  | [] => (shell, [])
  | operand :: rest =>
    match shell.removeEmpty (shell.resolve operand) with
    | (after, .ok true) =>
      let (final, report) := removeChain settings after rest
      (final,
        (if settings.verbose then [s!"rmdir: removing directory, '{operand}'"] else []) ++ report)
    | (after, .ok false) => (after, [])
    | (after, .error fault) =>
      if fault = .notEmpty ∧ settings.ignoreNotEmpty then (after, [])
      else (after, [s!"rmdir: failed to remove '{operand}': {fault.message}"])

/-- Carries `rmdir` out for one operand. -/
def removeDirectoryOperand (settings : RemoveDirectorySettings) (shell : Shell)
    (operand : String) : Shell × List String :=
  removeChain settings shell (if settings.parents then ancestry operand else [operand])

/-- `rmdir`: removes directories without children. -/
def removeDirectories (shell : Shell) (arguments : List String) : Shell × Except Failure String :=
  if helpFlag ∈ arguments then (shell, .ok removeDirectoriesHelp)
  else
    match firstUnknown? removeDirectoryFlags arguments with
    | some flag =>
      (shell, .error (.usage s!"rmdir: unrecognized option '{flag}'. Try --help for more info."))
    | none =>
      match operandsOf arguments with
      | [] => (shell, .error (.usage "rmdir: missing operand"))
      | operands =>
        let settings := removeDirectorySettings arguments
        let (after, report) := shell.eachOperand (removeDirectoryOperand settings) operands
        (after, .ok (Text.joinLines report))

end Shell

end VaultShell
