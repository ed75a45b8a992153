import VaultShell.Proofs.Vault.Undated
import VaultShell.Shell.Command

/-!
# Commands do not look at times

A command that changes the vault puts the time of the clock on what it touches, and none reads a time
to decide what to do.  So every command does the same on a state without its times, and says the same.
There is one exception to the second half: a long listing shows times.

## Main definitions

* `Shell.undated`: the state without its times, that of the clock included
* `Shell.Untimed`: steps that do the same without times, and give the same
* `Command.showsTime`: the commands whose output has times in it

## Main statements

* `Command.execute_undated`: the state after a command
* `Command.execute_undated_snd`: what a command says, unless it shows times
-/

namespace VaultShell

namespace Shell

/-- **The state without its times**, that of the clock included. -/
def undated (shell : Shell) : Shell :=
  { shell with vault := shell.vault.undated, clock := .origin }

variable (shell : Shell)

@[simp] theorem undated_vault : shell.undated.vault = shell.vault.undated := rfl

@[simp] theorem undated_cwd : shell.undated.cwd = shell.cwd := rfl

@[simp] theorem undated_previous : shell.undated.previous = shell.previous := rfl

@[simp] theorem undated_clock : shell.undated.clock = .origin := rfl

@[simp] theorem undated_identity : shell.undated.identity = shell.identity := rfl

@[simp] theorem resolve_undated (operand : String) :
    shell.undated.resolve operand = shell.resolve operand := rfl

theorem withVault_undated (vault : Vault) :
    shell.undated.withVault vault.undated = (shell.withVault vault).undated := rfl

/-- Without its times, a state does not change with the clock. -/
@[simp] theorem undated_tick : shell.tick.undated = shell.undated := rfl

/-- **A step that does not look at times**: on the state without its times it does the same and gives
the same. -/
def Untimed {α : Type} (step : Shell → Shell × α) : Prop :=
  ∀ shell : Shell, step shell.undated = ((step shell).1.undated, (step shell).2)

section Untimed

variable {α β : Type} {step : Shell → Shell × α}

theorem Untimed.fst (untimed : Untimed step) (shell : Shell) :
    (step shell.undated).1 = (step shell).1.undated := by
  rw [untimed shell]

theorem Untimed.snd (untimed : Untimed step) (shell : Shell) :
    (step shell.undated).2 = (step shell).2 := by
  rw [untimed shell]

/-- What is made of the result does not matter. -/
theorem Untimed.map (untimed : Untimed step) (g : α → β) :
    Untimed fun shell => Prod.map id g (step shell) := by
  intro shell
  simp only [untimed shell]
  rfl

end Untimed

/-! ## One operand after the other -/

theorem untimed_eachOperand {step : Shell → String → Shell × List String}
    (hstep : ∀ operand, Untimed fun shell => step shell operand) (operands : List String) :
    Untimed fun shell => shell.eachOperand step operands := by
  induction operands with
  | nil => exact fun shell => rfl
  | cons operand rest ih =>
      intro shell
      have first := hstep operand shell
      have others := ih (step shell operand).1
      simp only [eachOperand] at first others ⊢
      rw [first, others]

/-- A command that takes its operands one after the other and reports of all of them. -/
theorem untimed_operands {step : Shell → String → Shell × List String}
    (hstep : ∀ operand, Untimed fun shell => step shell operand) (operands : List String) :
    Untimed fun shell => Prod.map id (fun report => (Except.ok (Text.joinLines report) :
      Except Failure String)) (shell.eachOperand step operands) :=
  (untimed_eachOperand hstep operands).map _

/-! ## Creating -/

theorem untimed_makeDirectory (operand : String) : Untimed fun shell => shell.makeDirectory operand := by
  intro shell
  simp only [makeDirectory, resolve_undated, undated_vault, Vault.has_undated, undated_clock]
  rw [Vault.createDirectory_undated _ _ shell.clock]
  split
  · rfl
  · cases shell.vault.createDirectory (shell.resolve operand) shell.clock with
    | error fault => rfl
    | ok vault => rfl

theorem untimed_makeDown (above : String) (names : List String) :
    Untimed fun shell => makeDown shell above names := by
  induction names generalizing above with
  | nil => exact fun shell => rfl
  | cons name rest ih =>
      intro shell
      have down := ih (above ++ "/" ++ name)
      simp only [makeDown, undated_vault, Vault.find?_undated, undated_clock]
      rw [Vault.createDirectory_undated _ _ shell.clock]
      cases shell.vault.find? (above ++ "/" ++ name) with
      | some node =>
          cases node with
          | file attributes content => rfl
          | directory attributes children => exact down shell
      | none =>
          cases shell.vault.createDirectory (above ++ "/" ++ name) shell.clock with
          | error fault => rfl
          | ok vault =>
              -- The walk goes on in the new vault, and there too without its times.
              have further := down (shell.withVault vault)
              simp only [Except.map, Option.map_none] at further ⊢
              rw [withVault_undated, further]

theorem untimed_makeOperand (settings : MakeSettings) (operand : String) :
    Untimed fun shell => makeOperand settings shell operand := by
  intro shell
  have made : (if settings.parents then shell.undated.makePath operand
      else shell.undated.makeDirectory operand) =
        ((if settings.parents then shell.makePath operand else shell.makeDirectory operand).1.undated,
          (if settings.parents then shell.makePath operand else shell.makeDirectory operand).2) := by
    split
    · exact untimed_makeDown "" _ shell
    · exact untimed_makeDirectory operand shell
  simp only [makeOperand, made]
  split
  · rfl
  · rfl

theorem untimed_makeDirectories (arguments : List String) :
    Untimed fun shell => shell.makeDirectories arguments := by
  intro shell
  simp only [makeDirectories]
  split
  · split
    · rfl
    · rfl
  · split
    · rfl
    · exact untimed_operands (untimed_makeOperand _) _ shell

theorem createPlaceholder_undated (vault : Vault) (path : String) (time : Instant) :
    createPlaceholder vault.undated path .origin =
      (createPlaceholder vault path time).map Vault.undated := by
  unfold createPlaceholder
  cases Path.split path with
  | error fault => rfl
  | ok parts => exact vault.createFile_undated path _ time

theorem untimed_touchOperand (noCreate : Bool) (operand : String) :
    Untimed fun shell => touchOperand noCreate shell operand := by
  intro shell
  simp only [touchOperand, resolve_undated, undated_vault, undated_clock]
  rw [Vault.stamp?_undated _ _ shell.clock, createPlaceholder_undated _ _ shell.clock]
  cases shell.vault.stamp? (shell.resolve operand) shell.clock with
  | some vault => rfl
  | none =>
      simp only [Option.map_none]
      split
      · rfl
      · cases createPlaceholder shell.vault (shell.resolve operand) shell.clock with
        | error fault => rfl
        | ok vault => rfl

theorem untimed_touch (arguments : List String) : Untimed fun shell => shell.touch arguments := by
  intro shell
  simp only [touch]
  split
  · rfl
  · split
    · rfl
    · exact untimed_operands (untimed_touchOperand _) _ shell

/-! ## Removing -/

theorem removalFault?_undated (shell : Shell) (settings : RemoveSettings) (path : String)
    (node : Node) :
    shell.undated.removalFault? settings path node.undated =
      shell.removalFault? settings path node := by
  cases node with
  | file attributes content => rfl
  | directory attributes children =>
      rw [Node.undated_directory]
      simp only [removalFault?, Catalog.isEmpty_mapValues, undated_cwd]
      rfl

theorem untimed_removeNode (settings : RemoveSettings) (operand : String) :
    Untimed fun shell => removeNode settings shell operand := by
  intro shell
  simp only [removeNode, resolve_undated, undated_vault, Vault.find?_undated, Vault.remove_undated]
  cases shell.vault.find? (shell.resolve operand) with
  | none => rfl
  | some node =>
      simp only [Option.map_some, removalFault?_undated]
      cases shell.removalFault? settings (shell.resolve operand) node with
      | some fault => rfl
      | none =>
          cases shell.vault.remove (shell.resolve operand) with
          | error fault => rfl
          | ok removed => rfl

theorem untimed_removeOperand (settings : RemoveSettings) (operand : String) :
    Untimed fun shell => removeOperand settings shell operand :=
  (untimed_removeNode settings operand).map _

theorem untimed_remove (arguments : List String) : Untimed fun shell => shell.remove arguments := by
  intro shell
  simp only [remove]
  split
  · rfl
  · split
    · rfl
    · exact untimed_operands (untimed_removeOperand _) _ shell

theorem untimed_removeEmpty (path : String) : Untimed fun shell => shell.removeEmpty path := by
  intro shell
  simp only [removeEmpty, undated_vault, Vault.find?_undated, Vault.remove_undated, undated_cwd]
  cases shell.vault.find? path with
  | none => rfl
  | some node =>
      cases node with
      | file attributes content => rfl
      | directory attributes children =>
          simp only [Option.map_some, Node.undated_directory, Catalog.isEmpty_mapValues]
          split
          · rfl
          · split
            · rfl
            · cases shell.vault.remove path with
              | error fault => rfl
              | ok removed => rfl

theorem untimed_removeChain (settings : RemoveDirectorySettings) (operands : List String) :
    Untimed fun shell => removeChain settings shell operands := by
  induction operands with
  | nil => exact fun shell => rfl
  | cons operand rest ih =>
      intro shell
      -- How the first removal ends decides whether there is a second one, and what is said.
      have first := untimed_removeEmpty (shell.resolve operand) shell
      simp only [removeChain, resolve_undated] at first ⊢
      rw [first]
      rcases shell.removeEmpty (shell.resolve operand) with ⟨after, fault | removed⟩
      · simp only
        split
        · rfl
        · rfl
      · cases removed with
        | false => rfl
        | true =>
            have others := ih after
            simp only at others ⊢
            rw [others]

theorem untimed_removeDirectoryOperand (settings : RemoveDirectorySettings) (operand : String) :
    Untimed fun shell => removeDirectoryOperand settings shell operand :=
  untimed_removeChain settings _

theorem untimed_removeDirectories (arguments : List String) :
    Untimed fun shell => shell.removeDirectories arguments := by
  intro shell
  simp only [removeDirectories]
  split
  · rfl
  · split
    · rfl
    · split
      · rfl
      · exact untimed_operands (untimed_removeDirectoryOperand _) _ shell

/-! ## Copying and moving -/

@[simp] theorem targetOf_undated (shell : Shell) (origin destination : String) :
    shell.undated.targetOf origin destination = shell.targetOf origin destination := by
  simp only [targetOf, resolve_undated, undated_vault, Vault.isDirectory_undated]

@[simp] theorem copyRefusal?_undated (shell : Shell) (source destination origin target : String)
    (node : Node) :
    shell.undated.copyRefusal? source destination origin target node.undated =
      shell.copyRefusal? source destination origin target node := by
  simp only [copyRefusal?, undated_vault, Vault.isDirectory_undated, Node.isDirectory_undated]

@[simp] theorem moveRefusal?_undated (shell : Shell) (source destination origin target : String)
    (node : Node) :
    shell.undated.moveRefusal? source destination origin target node.undated =
      shell.moveRefusal? source destination origin target node := by
  simp only [moveRefusal?, undated_vault, Vault.isDirectory_undated, Vault.has_undated,
    Node.isDirectory_undated]

/-- What is placed gets the time of the clock, which is then taken out. -/
theorem place_stamp_undated (vault : Vault) (path : String) (node : Node) (time : Instant) :
    vault.undated.place path (node.undated.stamp .origin) =
      (vault.place path (node.stamp time)).map Vault.undated := by
  rw [← node.undated_stamp time, vault.place_undated]

theorem untimed_copyNode (recursive : Bool) (source destination : String) :
    Untimed fun shell => copyNode recursive shell source destination := by
  intro shell
  simp only [copyNode, resolve_undated, undated_vault, Vault.find?_undated, targetOf_undated,
    undated_clock]
  cases shell.vault.find? (shell.resolve source) with
  | none => rfl
  | some node =>
      simp only [Option.map_some, Node.isDirectory_undated, copyRefusal?_undated]
      split
      · rfl
      · cases shell.targetOf (shell.resolve source) destination with
        | error fault => rfl
        | ok target =>
            simp only [place_stamp_undated _ _ _ shell.clock]
            cases shell.copyRefusal? source destination (shell.resolve source) target node with
            | some failure => rfl
            | none =>
                cases shell.vault.place target (node.stamp shell.clock) with
                | error fault => rfl
                | ok vault => rfl

theorem untimed_copyOperand (settings : CopySettings) (source destination : String) :
    Untimed fun shell => copyOperand settings shell source destination :=
  (untimed_copyNode settings.recursive source destination).map _

theorem untimed_relocate (source destination origin target : String) :
    Untimed fun shell => shell.relocate source destination origin target := by
  intro shell
  simp only [relocate, undated_vault, Vault.remove_undated, undated_clock]
  cases shell.vault.remove origin with
  | error fault => rfl
  | ok removed =>
      simp only [Except.map, Prod.map, place_stamp_undated _ _ _ shell.clock]
      cases removed.2.place target (removed.1.stamp shell.clock) with
      | error fault => rfl
      | ok vault => rfl

theorem untimed_moveNode (source destination : String) :
    Untimed fun shell => shell.moveNode source destination := by
  intro shell
  simp only [moveNode, resolve_undated, undated_vault, Vault.find?_undated, targetOf_undated,
    undated_cwd]
  cases shell.vault.find? (shell.resolve source) with
  | none => rfl
  | some node =>
      simp only [Option.map_some]
      split
      · rfl
      · cases shell.targetOf (shell.resolve source) destination with
        | error fault => rfl
        | ok target =>
            simp only [moveRefusal?_undated]
            split
            · rfl
            · cases shell.moveRefusal? source destination (shell.resolve source) target node with
              | some failure => rfl
              | none => exact untimed_relocate source destination _ target shell

theorem untimed_moveOperand (verbose : Bool) (source destination : String) :
    Untimed fun shell => moveOperand verbose shell source destination :=
  (untimed_moveNode source destination).map _

theorem untimed_transferAll (command : String)
    {step : Shell → String → String → Shell × List String}
    (hstep : ∀ source destination, Untimed fun shell => step shell source destination)
    (operands : List String) : Untimed fun shell => transferAll command step shell operands := by
  intro shell
  simp only [transferAll, resolve_undated, undated_vault, Vault.isDirectory_undated]
  split
  · rfl
  · split
    · rfl
    · exact untimed_operands (fun source => hstep source _) _ shell

theorem untimed_copy (arguments : List String) : Untimed fun shell => shell.copy arguments := by
  intro shell
  simp only [copy]
  split
  · rfl
  · split
    · rfl
    · exact untimed_transferAll "cp" (untimed_copyOperand _) _ shell

theorem untimed_move (arguments : List String) : Untimed fun shell => shell.move arguments := by
  intro shell
  simp only [move]
  split
  · rfl
  · split
    · rfl
    · exact untimed_transferAll "mv" (untimed_moveOperand _) _ shell

/-! ## The working directory -/

theorem untimed_enter (operand path : String) : Untimed fun shell => shell.enter operand path := by
  intro shell
  simp only [enter, undated_vault, Vault.find?_undated]
  cases shell.vault.find? path with
  | none => rfl
  | some node => cases node <;> rfl

theorem untimed_changeDirectory (arguments : List String) :
    Untimed fun shell => shell.changeDirectory arguments := by
  intro shell
  simp only [changeDirectory, undated_previous, resolve_undated]
  cases directoryOperand arguments with
  | error failure => rfl
  | ok operand =>
      have entered := fun path => untimed_enter operand path shell
      simp only at entered ⊢
      split
      · cases shell.previous with
        | none => rfl
        | some path => simp only [entered]
      · simp only [entered]

/-! ## The commands that look -/

variable (shell : Shell) (arguments : List String)

@[simp] theorem print_undated (command : String) :
    print command shell.undated arguments = print command shell arguments := by
  have each : shell.undated.printedFile command = shell.printedFile command := by
    funext operand
    simp only [printedFile, resolve_undated, undated_vault, Vault.read_undated]
  simp only [print, each]

@[simp] theorem excerpt_undated (side : FileEnd) :
    excerpt side shell.undated arguments = excerpt side shell arguments := by
  have each : shell.undated.excerptSection side = shell.excerptSection side := by
    funext count headed operand
    simp only [excerptSection, resolve_undated, undated_vault, Vault.read_undated]
  simp only [excerpt, each]

theorem listRows_undated (settings : ListSettings) (operand path : String) (node : Node) :
    shell.undated.listRows settings operand path node.undated =
      Catalog.mapValues Node.undated (shell.listRows settings operand path node) := by
  cases node with
  | file attributes content => rfl
  | directory attributes children =>
      rw [Node.undated_directory]
      simp only [listRows, undated_vault, Vault.find?_undated]
      split
      · cases shell.vault.find? (Path.resolve path "..") with
        | none =>
            simp only [Option.map_none, Option.getD_none, ← Node.undated_directory]
            rfl
        | some above =>
            simp only [Option.map_some, Option.getD_some, ← Node.undated_directory]
            rfl
      · exact List.filter_map

/-- **A listing that shows no times** looks the same. -/
theorem list_undated (short : helpFlag ∈ arguments ∨ (listSettings arguments).long = false) :
    shell.undated.list arguments = shell.list arguments := by
  simp only [list, resolve_undated, undated_vault, Vault.find?_undated]
  split
  · rfl
  case isFalse noHelp =>
    have long := short.resolve_left noHelp
    cases shell.vault.find? (shell.resolve ((operandsOf arguments).headD ".")) with
    | none => rfl
    | some node =>
        simp only [Option.map_some, listRows_undated, listText, long, undated_identity,
          Catalog.map_fst_mapValues]
        rfl

end Shell

/-! ## Every command -/

namespace Command

/-- **Whether a command shows times**: `date` does, and so does a long listing. -/
def showsTime (arguments : List String) : Command → Bool
  | .date => true
  | .ls => helpFlag ∉ arguments && (Shell.listSettings arguments).long
  | _ => false

variable (command : Command) (wallClock other : String) (shell : Shell) (arguments : List String)

/-- **The state after a command** does not depend on times. -/
theorem execute_undated :
    (command.execute wallClock shell.undated arguments).1 =
      (command.execute other shell arguments).1.undated := by
  cases command with
  | cd => exact (Shell.untimed_changeDirectory arguments).fst shell
  | cp => exact (Shell.untimed_copy arguments).fst shell
  | mkdir => exact (Shell.untimed_makeDirectories arguments).fst shell
  | mv => exact (Shell.untimed_move arguments).fst shell
  | rm => exact (Shell.untimed_remove arguments).fst shell
  | rmdir => exact (Shell.untimed_removeDirectories arguments).fst shell
  | touch => exact (Shell.untimed_touch arguments).fst shell
  | _ => rfl

/-- **What a command says** does not depend on times, unless it shows them. -/
theorem execute_undated_snd (timeless : command.showsTime arguments = false) :
    (command.execute wallClock shell.undated arguments).2 =
      (command.execute other shell arguments).2 := by
  cases command with
  | cat | less => exact shell.print_undated arguments _
  | cd => exact (Shell.untimed_changeDirectory arguments).snd shell
  | cp => exact (Shell.untimed_copy arguments).snd shell
  | date => cases timeless
  | head | tail => exact shell.excerpt_undated arguments _
  | ls =>
      refine shell.list_undated arguments ?_
      simpa [showsTime, or_iff_not_imp_left] using timeless
  | mkdir => exact (Shell.untimed_makeDirectories arguments).snd shell
  | mv => exact (Shell.untimed_move arguments).snd shell
  | rm => exact (Shell.untimed_remove arguments).snd shell
  | rmdir => exact (Shell.untimed_removeDirectories arguments).snd shell
  | touch => exact (Shell.untimed_touch arguments).snd shell
  | clear | exit | pwd | whoami => rfl

end Command

end VaultShell
