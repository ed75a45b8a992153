import VaultShell.Proofs.Shell.Moves

/-!
# What a command can reach, and what a failure leaves behind

A command is handed the whole state.  What it makes of it is confined: the clock and the identity are
never touched, the two directories are `cd`'s alone, and the vault is for the six commands that are
about it.  And a command that fails has done nothing: all that can fail it as a whole is looked at
before the first operand, and what goes wrong with an operand later is reported in its output.

Nothing is asked of the state here, nor of the arguments.  The vault may have any shape and the
arguments may be empty texts or hold blanks, which no line could bring about.

## Main definitions

* `Shell.VaultOnly`: two states that differ in the vault at most
* `Shell.Atomic`: an outcome that is no failure, or leaves the state as it was
* `Shell.Confined`: such an outcome in which nothing but the vault has changed

## Main statements

* `Shell.confined_execute`, `Shell.changeDirectory_cases`: every command but `cd` is confined, and `cd`
  moves the two directories or stays
* `Command.execute_atomic`: a command that fails leaves the state as it was
* `Command.execute_frame`: how far each command reaches, and what a line does that fails
-/

namespace VaultShell

namespace Shell

/-- **Two states that differ in the vault at most.** -/
structure VaultOnly (shell after : Shell) : Prop where
  cwd : after.cwd = shell.cwd
  previous : after.previous = shell.previous
  clock : after.clock = shell.clock
  identity : after.identity = shell.identity

theorem VaultOnly.refl (shell : Shell) : VaultOnly shell shell :=
  ⟨rfl, rfl, rfl, rfl⟩

theorem VaultOnly.trans {shell between after : Shell} (first : VaultOnly shell between)
    (second : VaultOnly between after) : VaultOnly shell after where
  cwd := second.cwd.trans first.cwd
  previous := second.previous.trans first.previous
  clock := second.clock.trans first.clock
  identity := second.identity.trans first.identity

theorem vaultOnly_withVault (shell : Shell) (vault : Vault) :
    VaultOnly shell (shell.withVault vault) :=
  ⟨rfl, rfl, rfl, rfl⟩

/-- **An outcome that is no failure, or leaves the state as it was.** -/
def Atomic (shell : Shell) (outcome : Shell × Except Failure String) : Prop :=
  ∀ failure, outcome.2 = .error failure → outcome.1 = shell ∧ failure.IsOwn

/-- **What a command does that leaves everything but the vault alone.** -/
structure Confined (shell : Shell) (outcome : Shell × Except Failure String) : Prop where
  vaultOnly : VaultOnly shell outcome.1
  atomic : Atomic shell outcome

theorem confined_done {shell after : Shell} (vaultOnly : VaultOnly shell after) (text : String) :
    Confined shell (after, .ok text) where
  vaultOnly := vaultOnly
  atomic failure failed := by cases failed

theorem confined_said (shell : Shell) (text : String) : Confined shell (shell, .ok text) :=
  confined_done (.refl shell) text

theorem confined_readOnly (shell : Shell) {result : Except Failure String}
    (own : ∀ failure, result = .error failure → failure.IsOwn) :
    Confined shell (Command.readOnly shell result) where
  vaultOnly := .refl shell
  atomic failure failed := ⟨rfl, own failure failed⟩

theorem confined_refused (shell : Shell) {failure : Failure} (own : failure.IsOwn) :
    Confined shell (shell, .error failure) := by
  refine confined_readOnly shell ?_
  intro reported failed
  obtain rfl := Except.error.inj failed
  exact own

/-! ## Single operands -/

theorem eachOperand_vaultOnly {step : Shell → String → Shell × List String}
    (hstep : ∀ shell operand, VaultOnly shell (step shell operand).1) (shell : Shell)
    (operands : List String) : VaultOnly shell (shell.eachOperand step operands).1 :=
  eachOperand_fst (fun before operand _ earlier => earlier.trans (hstep before operand)) (.refl shell)

/-- No request reaches further than the vault. -/
theorem Outcome.vaultOnly {β : Type} {shell : Shell} {Grant : Vault → β → Prop} {Refusal : β → Prop}
    {outcome : Shell × β} (h : Outcome shell Grant Refusal outcome) : VaultOnly shell outcome.1 :=
  h.fst (.refl shell) fun vault _ _ => vaultOnly_withVault shell vault

theorem makeOperand_vaultOnly (settings : MakeSettings) (shell : Shell) (operand : String) :
    VaultOnly shell (makeOperand settings shell operand).1 := by
  rw [makeOperand_fst]
  split
  · exact makePath_fst (fun before vault _ _ _ earlier => earlier.trans (vaultOnly_withVault before vault))
      (.refl shell)
  · exact (makeDirectory_outcome shell operand).vaultOnly

theorem touchOperand_vaultOnly (noCreate : Bool) (shell : Shell) (operand : String) :
    VaultOnly shell (touchOperand noCreate shell operand).1 :=
  (touchOperand_outcome noCreate shell operand).vaultOnly

theorem removeOperand_vaultOnly (settings : RemoveSettings) (shell : Shell) (operand : String) :
    VaultOnly shell (removeOperand settings shell operand).1 := by
  rw [removeOperand_fst]
  exact (removeNode_outcome settings shell operand).vaultOnly

theorem removeDirectoryOperand_vaultOnly (settings : RemoveDirectorySettings) (shell : Shell)
    (operand : String) : VaultOnly shell (removeDirectoryOperand settings shell operand).1 := by
  refine removeChain_fst ?_ (.refl shell)
  intro before text _ earlier
  exact earlier.trans (before.removeEmpty_outcome (before.resolve text)).vaultOnly

theorem copyOperand_vaultOnly (settings : CopySettings) (shell : Shell)
    (source destination : String) :
    VaultOnly shell (copyOperand settings shell source destination).1 := by
  rw [copyOperand_fst]
  exact (copyNode_outcome settings.recursive shell source destination).vaultOnly

theorem moveOperand_vaultOnly (verbose : Bool) (shell : Shell) (source destination : String) :
    VaultOnly shell (moveOperand verbose shell source destination).1 := by
  rw [moveOperand_fst]
  exact (moveNode_outcome shell source destination).vaultOnly

/-- **A command that goes through its operands is confined** if its steps are. -/
theorem Walk.confined {shell : Shell} {help words : String}
    {Through : (Shell → String → Shell × List String) → List String → Prop}
    {outcome : Shell × Except Failure String} (h : Walk shell help words Through outcome)
    (steps : ∀ step operands, Through step operands →
      ∀ shell operand, VaultOnly shell (step shell operand).1) : Confined shell outcome := by
  rcases h with helped | ⟨⟨failure, rfl, own, -⟩, refused⟩ | ⟨through, walked⟩
  · rw [helped]
    exact confined_said shell help
  · rw [refused]
    exact confined_refused shell own
  · rw [walked]
    exact confined_done (eachOperand_vaultOnly (steps _ _ through) shell _) _

/-! ## The commands that look -/

variable {shell : Shell} {arguments : List String} {failure : Failure}

theorem isOwn_of_print {command : String} (failed : print command shell arguments = .error failure) :
    failure.IsOwn := by
  unfold print at failed
  split at failed
  · cases failed
    trivial
  · cases failed

theorem isOwn_of_excerpt {side : FileEnd} (failed : excerpt side shell arguments = .error failure) :
    failure.IsOwn := by
  unfold excerpt at failed
  split at failed
  case h_1 reported bad =>
    obtain rfl := Except.error.inj failed
    exact (isOwn_and_begins_of_excerptRequest bad).1
  case h_2 =>
    cases failed
    trivial
  case h_3 => cases failed

theorem isOwn_of_list (failed : shell.list arguments = .error failure) : failure.IsOwn := by
  unfold list at failed
  split at failed
  · cases failed
  · simp only at failed
    split at failed
    · cases failed
      trivial
    · cases failed

theorem isOwn_of_printDirectory (failed : shell.printDirectory arguments = .error failure) :
    failure.IsOwn := by
  unfold printDirectory at failed
  split at failed
  · cases failed
  · cases failed

/-- **Every command but `cd` leaves everything but the vault alone**, and all of it if it fails. -/
theorem confined_execute {command : Command} (other : command ≠ .cd) (wallClock : String)
    (shell : Shell) (arguments : List String) :
    Confined shell (command.execute wallClock shell arguments) := by
  cases command with
  | cat => exact confined_readOnly shell fun _ => isOwn_of_print
  | cd => exact absurd rfl other
  | clear => exact confined_said shell _
  | cp =>
      refine (shell.copy_walk arguments).confined ?_
      rintro _ _ ⟨destination, -, rfl⟩ shell source
      exact copyOperand_vaultOnly _ shell source destination
  | date => exact confined_said shell _
  | exit => exact confined_said shell _
  | head => exact confined_readOnly shell fun _ => isOwn_of_excerpt
  | less => exact confined_readOnly shell fun _ => isOwn_of_print
  | ls => exact confined_readOnly shell fun _ => isOwn_of_list
  | mkdir =>
      refine (shell.makeDirectories_walk arguments).confined ?_
      rintro _ _ ⟨rfl, -⟩
      exact makeOperand_vaultOnly _
  | mv =>
      refine (shell.move_walk arguments).confined ?_
      rintro _ _ ⟨destination, -, rfl⟩ shell source
      exact moveOperand_vaultOnly _ shell source destination
  | pwd => exact confined_readOnly shell fun _ => isOwn_of_printDirectory
  | rm =>
      refine (shell.remove_walk arguments).confined ?_
      rintro _ _ ⟨rfl, -⟩
      exact removeOperand_vaultOnly _
  | rmdir =>
      refine (shell.removeDirectories_walk arguments).confined ?_
      rintro _ _ ⟨rfl, -⟩
      exact removeDirectoryOperand_vaultOnly _
  | tail => exact confined_readOnly shell fun _ => isOwn_of_excerpt
  | touch =>
      refine (shell.touch_walk arguments).confined ?_
      rintro _ _ ⟨rfl, -⟩
      exact touchOperand_vaultOnly _
  | whoami => exact confined_said shell _

/-! ## The working directory -/

/-- `cd` goes to a directory, or fails and stays. -/
theorem enter_cases (shell : Shell) (operand path : String) :
    shell.enter operand path = ({ shell with cwd := path, previous := some shell.cwd }, .ok ()) ∨
      ∃ failure, Failure.IsOwn failure ∧ shell.enter operand path = (shell, .error failure) := by
  unfold enter
  split
  · exact Or.inl rfl
  · exact Or.inr ⟨.fault _ _, trivial, rfl⟩
  · exact Or.inr ⟨.fault _ _, trivial, rfl⟩

theorem isOwn_of_directoryOperand (failed : directoryOperand arguments = .error failure) :
    failure.IsOwn := by
  unfold directoryOperand at failed
  split at failed
  · cases failed
  · cases failed
  · cases failed
    trivial

/-- Whatever `cd` prints where it succeeds, it either moves the two directories or fails and stays. -/
theorem changeDirectory_cases (shell : Shell) (arguments : List String) :
    (∃ path text, shell.changeDirectory arguments =
        ({ shell with cwd := path, previous := some shell.cwd }, .ok text)) ∨
      ∃ failure, Failure.IsOwn failure ∧
        shell.changeDirectory arguments = (shell, .error failure) := by
  unfold changeDirectory
  split
  case h_1 failure refused => exact Or.inr ⟨failure, isOwn_of_directoryOperand refused, rfl⟩
  case h_2 operand _ =>
    split
    · split
      · exact Or.inr ⟨.usage _, trivial, rfl⟩
      case h_2 path _ =>
        rcases shell.enter_cases operand path with entered | ⟨failure, own, refused⟩
        · exact Or.inl ⟨path, path, by rw [entered]; rfl⟩
        · exact Or.inr ⟨failure, own, by rw [refused]; rfl⟩
    · rcases shell.enter_cases operand (shell.resolve operand) with entered | ⟨failure, own, refused⟩
      · exact Or.inl ⟨shell.resolve operand, "", by rw [entered]; rfl⟩
      · exact Or.inr ⟨failure, own, by rw [refused]; rfl⟩

end Shell

/-! ## Every command -/

namespace Command

variable (command : Command) (wallClock : String) (shell : Shell) (arguments : List String)

/-- **A command that fails leaves the state as it was**, and the failure is its own. -/
theorem execute_atomic : shell.Atomic (command.execute wallClock shell arguments) := by
  by_cases isCd : command = .cd
  · subst isCd
    intro failure failed
    rcases shell.changeDirectory_cases arguments with ⟨path, text, entered⟩ | ⟨other, own, refused⟩
    · exact absurd (failed.symm.trans (congrArg Prod.snd entered)) (by simp)
    · obtain rfl := Except.error.inj (failed.symm.trans (congrArg Prod.snd refused))
      exact ⟨congrArg Prod.fst refused, own⟩
  · exact (Shell.confined_execute isCd wallClock shell arguments).atomic

/-- **No command touches the clock or the identity.** -/
theorem execute_clock_identity :
    (command.execute wallClock shell arguments).1.clock = shell.clock ∧
      (command.execute wallClock shell arguments).1.identity = shell.identity := by
  by_cases isCd : command = .cd
  · subst isCd
    show (shell.changeDirectory arguments).1.clock = _ ∧ (shell.changeDirectory arguments).1.identity = _
    rcases shell.changeDirectory_cases arguments with ⟨path, text, entered⟩ | ⟨failure, -, refused⟩
    · rw [entered]
      exact ⟨rfl, rfl⟩
    · rw [refused]
      exact ⟨rfl, rfl⟩
  · have kept := (Shell.confined_execute isCd wallClock shell arguments).vaultOnly
    exact ⟨kept.clock, kept.identity⟩

/-- The commands that are about the vault. -/
def changesVault : Command → Bool
  | .cp | .mkdir | .mv | .rm | .rmdir | .touch => true
  | _ => false

/-- **The vault is for six commands.** -/
theorem execute_vault (looks : command.changesVault = false) :
    (command.execute wallClock shell arguments).1.vault = shell.vault := by
  cases command with
  | cd =>
      show (shell.changeDirectory arguments).1.vault = _
      rcases shell.changeDirectory_cases arguments with ⟨path, text, entered⟩ | ⟨failure, -, refused⟩
      · rw [entered]
      · rw [refused]
  | cp | mkdir | mv | rm | rmdir | touch => cases looks
  | _ => rfl

/-- A command that can fail is none that the session handles. -/
theorem sentinel?_of_execute_error {failure : Failure}
    (failed : (command.execute wallClock shell arguments).2 = .error failure) :
    command.sentinel? = none := by
  cases command with
  | clear | exit => cases failed
  | _ => rfl

/-- **How far each command reaches, and what a line does that fails.**  Whatever the state and the
arguments are:

* a command that fails leaves the state as it was;
* no command changes the clock or the identity;
* only `cd` changes the two directories;
* only `cp`, `mkdir`, `mv`, `rm`, `rmdir` and `touch` change the vault;
* a line whose command fails shows the failure, and all that it changes is the clock. -/
theorem execute_frame (command : Command) (wallClock : String) (shell : Shell)
    (arguments : List String) :
    let outcome := command.execute wallClock shell arguments
    (∀ failure, outcome.2 = .error failure → outcome.1 = shell) ∧
    (outcome.1.clock = shell.clock ∧ outcome.1.identity = shell.identity) ∧
    (outcome.1.cwd ≠ shell.cwd ∨ outcome.1.previous ≠ shell.previous → command = .cd) ∧
    (outcome.1.vault ≠ shell.vault → command ∈ [.cp, .mkdir, .mv, .rm, .rmdir, .touch]) ∧
    ∀ input raw failure, CommandLine.parse? input = some ⟨raw, command.name, arguments⟩ →
      (command.execute wallClock shell.tick arguments).2 = .error failure →
      shell.run .standard wallClock input =
        ({ shell with clock := shell.clock.tick }, .output failure.message) := by
  intro outcome
  refine ⟨?_, execute_clock_identity command wallClock shell arguments, ?_, ?_, ?_⟩
  · exact fun failure failed => (execute_atomic command wallClock shell arguments failure failed).1
  · intro moved
    by_contra other
    have kept := (Shell.confined_execute other wallClock shell arguments).vaultOnly
    rcases moved with cwd | previous
    · exact cwd kept.cwd
    · exact previous kept.previous
  · intro changed
    by_contra other
    refine changed (execute_vault command wallClock shell arguments ?_)
    cases command with
    | cp | mkdir | mv | rm | rmdir | touch => simp at other
    | _ => rfl
  · -- The command runs at the next minute, so that minute is all that is left of the line.
    intro input raw failure parsed failed
    have unreserved := sentinel?_of_execute_error command wallClock shell.tick arguments failed
    have unchanged := (execute_atomic command wallClock shell.tick arguments failure failed).1
    rw [Shell.run_command parsed unreserved, unchanged, failed]
    rfl

/-- A directory that could be made, and behind it a flag that nobody knows: nothing is made. -/
theorem execute_frame_unknown_flag :
    let shell := Shell.fresh "vault-user" .origin
    shell.run .standard "" "mkdir docs -x" =
      ({ shell with clock := ⟨60, 0⟩ },
        .output "mkdir: unrecognized option '-x'. Try --help for more info.") := by
  intro shell
  have parsed : CommandLine.parse? "mkdir docs -x" =
      some ⟨"mkdir docs -x", Command.mkdir.name, ["docs", "-x"]⟩ := by decide +kernel
  exact (execute_frame .mkdir "" shell ["docs", "-x"]).2.2.2.2 _ _ _ parsed rfl

end Command

end VaultShell
