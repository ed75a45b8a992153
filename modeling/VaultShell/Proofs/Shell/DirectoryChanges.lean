import VaultShell.Proofs.Path.Composition
import VaultShell.Proofs.Shell.Confinement
import VaultShell.Proofs.Shell.WorkingDirectory

/-!
# Changes of the working directory

To change the working directory in two steps is to change it in one, to where the two operands lead with
a slash between them.  Where the second step ends is a matter of the path that the first one has led to,
and the path of the single step is the same; so either both find a directory there or both fail, for the
same reason.  The names on the way are never looked at, only the end of it is.

A change remembers where the shell has worked before, so one hyphen undoes it and a second one makes it
again.  This needs the earlier working directory to exist still, which a copy can have taken away.

## Main definitions

* `Vault.entryFault?`: why a path cannot become the working directory

## Main statements

* `Shell.changeDirectory_operand`: `cd` by what its operand leads to
* `Shell.changeDirectory_back`: `cd -`
* `Shell.changeDirectory_composes`: two steps and one, and the way back
-/

namespace VaultShell

/-- Why a path cannot become the working directory. -/
def Vault.entryFault? (vault : Vault) (path : String) : Option Fault :=
  match vault.find? path with
  | none => some .notFound
  | some (.file ..) => some .notDirectory
  | some (.directory ..) => none

theorem Vault.entryFault?_eq_none_iff {vault : Vault} {path : String} :
    vault.entryFault? path = none ↔ vault.isDirectory path = true := by
  unfold entryFault? isDirectory
  cases vault.find? path with
  | none => simp
  | some node => cases node <;> simp [Node.isDirectory, Node.kind]

namespace Shell

variable {shell : Shell} {operand path : String}

/-- The state after the working directory has moved. -/
def movedTo (shell : Shell) (path : String) : Shell :=
  { shell with cwd := path, previous := some shell.cwd }

theorem enter_eq (shell : Shell) (operand path : String) :
    shell.enter operand path =
      match shell.vault.entryFault? path with
      | some fault => (shell, .error (.fault s!"cd: {operand}" fault))
      | none => (shell.movedTo path, .ok ()) := by
  unfold enter Vault.entryFault?
  cases shell.vault.find? path with
  | none => rfl
  | some node => cases node <;> rfl

/-- **`cd` goes where its operand leads**, if a directory is there. -/
theorem changeDirectory_operand (notBack : operand ≠ "-") (shell : Shell) :
    shell.changeDirectory [operand] =
      match shell.vault.entryFault? (shell.resolve operand) with
      | some fault => (shell, .error (.fault s!"cd: {operand}" fault))
      | none => (shell.movedTo (shell.resolve operand), .ok "") := by
  simp only [changeDirectory, directoryOperand, notBack, if_false, enter_eq]
  cases shell.vault.entryFault? (shell.resolve operand) <;> rfl

/-- **`cd -` goes back and prints where to**, if the directory is still there. -/
theorem changeDirectory_back (before : shell.previous = some path)
    (there : shell.vault.isDirectory path = true) :
    shell.changeDirectory ["-"] = (shell.movedTo path, .ok path) := by
  have free := Vault.entryFault?_eq_none_iff.2 there
  simp only [changeDirectory, directoryOperand, if_true, before, enter_eq, free]
  rfl

/-- A step that has succeeded has led to a directory. -/
theorem of_enter_eq_ok {text shown : String}
    (entered : (shell.enter operand path).2.map (fun _ => shown) = .ok text) :
    (shell.enter operand path).1 = shell.movedTo path ∧ shell.vault.isDirectory path = true := by
  rw [enter_eq] at entered ⊢
  cases free : shell.vault.entryFault? path with
  | some fault =>
      rw [free] at entered
      cases entered
  | none => exact ⟨rfl, Vault.entryFault?_eq_none_iff.1 free⟩

/-- **Wherever `cd` has succeeded**, with whatever arguments, the working directory has moved onto a
directory. -/
theorem exists_movedTo {arguments : List String} {text : String}
    (moved : (shell.changeDirectory arguments).2 = .ok text) :
    ∃ path, (shell.changeDirectory arguments).1 = shell.movedTo path ∧
      shell.vault.isDirectory path = true := by
  unfold changeDirectory at moved ⊢
  split at moved
  case h_1 => cases moved
  case h_2 operand _ =>
    by_cases back : operand = "-"
    · simp only [back, if_true] at moved ⊢
      cases before : shell.previous with
      | none =>
          rw [before] at moved
          cases moved
      | some path =>
          rw [before] at moved
          exact ⟨path, of_enter_eq_ok moved⟩
    · simp only [back, if_false] at moved ⊢
      exact ⟨shell.resolve operand, of_enter_eq_ok moved⟩

/-- No step changes the vault. -/
theorem vault_changeDirectory (shell : Shell) (arguments : List String) :
    (shell.changeDirectory arguments).1.vault = shell.vault :=
  Command.execute_vault .cd "" shell arguments rfl

/-! ## Two steps -/

/-- **Two steps are one**: the second one does in the state that the first one has led to what the single
step does in the state before it. -/
theorem changeDirectory_two_steps {a b text : String} (something : a ≠ "") (notBack : a ≠ "-")
    (notBack' : b ≠ "-") (relative : Path.IsRelative b)
    (first : (shell.changeDirectory [a]).2 = .ok text) :
    let whole := a ++ "/" ++ b
    let between := (shell.changeDirectory [a]).1
    (∃ path, between.changeDirectory [b] = (between.movedTo path, .ok "") ∧
        shell.changeDirectory [whole] = (shell.movedTo path, .ok "")) ∨
      ∃ fault, between.changeDirectory [b] = (between, .error (.fault s!"cd: {b}" fault)) ∧
        shell.changeDirectory [whole] = (shell, .error (.fault s!"cd: {whole}" fault)) := by
  intro whole between
  have notBackWhole : whole ≠ "-" := by
    intro same
    have member : '/' ∈ whole.toList := by simp [whole, String.toList_append]
    rw [same] at member
    simp at member
  have between_eq : between = shell.movedTo (shell.resolve a) := by
    show (shell.changeDirectory [a]).1 = _
    rw [changeDirectory_operand notBack] at first ⊢
    cases free : shell.vault.entryFault? (shell.resolve a) with
    | some fault =>
        rw [free] at first
        cases first
    | none => rfl
  have path_eq : between.resolve b = shell.resolve whole := by
    rw [between_eq]
    exact (Path.resolve_append_slash something relative shell.cwd).symm
  have vault_eq : between.vault = shell.vault := vault_changeDirectory shell [a]
  rw [changeDirectory_operand notBack', changeDirectory_operand notBackWhole, path_eq, vault_eq]
  cases shell.vault.entryFault? (shell.resolve whole) with
  | some fault => exact Or.inr ⟨fault, rfl, rfl⟩
  | none => exact Or.inl ⟨shell.resolve whole, rfl, rfl⟩

/-- **A step and the way back**: a hyphen undoes the step, and a second one makes it again. -/
theorem changeDirectory_there_and_back {arguments : List String} {text : String}
    (standing : shell.HasDirectory) (moved : (shell.changeDirectory arguments).2 = .ok text) :
    let there := (shell.changeDirectory arguments).1
    let here := there.movedTo shell.cwd
    there.changeDirectory ["-"] = (here, .ok shell.cwd) ∧
      here.changeDirectory ["-"] = (there, .ok there.cwd) := by
  intro there here
  obtain ⟨path, there_eq, directory⟩ := exists_movedTo moved
  have there_eq : there = shell.movedTo path := there_eq
  refine ⟨changeDirectory_back ?_ ?_, ?_⟩
  · rw [there_eq]
    rfl
  · rw [there_eq]
    exact standing
  · have again : here.changeDirectory ["-"] = (here.movedTo path, .ok path) := by
      refine changeDirectory_back ?_ ?_
      · show some there.cwd = some path
        rw [there_eq]
        rfl
      · show there.vault.isDirectory path = true
        rw [there_eq]
        exact directory
    rw [again]
    simp only [here, there_eq]
    rfl

/-- **Directory changes.**  In any state: a second step to an operand that starts where the shell works
succeeds exactly if the single step to both operands does, with a slash between them; then both lead to
the same working directory, and otherwise both fail for the same reason.  And wherever the working
directory exists, any step that succeeds is undone by a hyphen, which prints where it leads, and made
again by a second one.  No step changes the vault. -/
theorem changeDirectory_composes (shell : Shell) :
    (∀ a b text, a ≠ "" → a ≠ "-" → b ≠ "-" → Path.IsRelative b →
      (shell.changeDirectory [a]).2 = .ok text →
      let whole := a ++ "/" ++ b
      let between := (shell.changeDirectory [a]).1
      let second := between.changeDirectory [b]
      let single := shell.changeDirectory [whole]
      ((∃ text, second.2 = .ok text) ↔ ∃ text, single.2 = .ok text) ∧
      (∀ text, second.2 = .ok text → second.1.cwd = single.1.cwd) ∧
      (∀ failure, second.2 = .error failure →
        ∃ fault, failure = .fault s!"cd: {b}" fault ∧
          single.2 = .error (.fault s!"cd: {whole}" fault)) ∧
      between.vault = shell.vault ∧ second.1.vault = shell.vault ∧ single.1.vault = shell.vault) ∧
    ∀ arguments text, shell.HasDirectory → (shell.changeDirectory arguments).2 = .ok text →
      let there := (shell.changeDirectory arguments).1
      let back := there.changeDirectory ["-"]
      let again := back.1.changeDirectory ["-"]
      back.2 = .ok shell.cwd ∧ back.1.cwd = shell.cwd ∧ again.2 = .ok there.cwd ∧ again.1 = there := by
  refine ⟨?_, ?_⟩
  · intro a b text something notBack notBack' relative first whole between second single
    have betweenVault : between.vault = shell.vault := vault_changeDirectory shell [a]
    have secondVault : second.1.vault = shell.vault :=
      (vault_changeDirectory between [b]).trans betweenVault
    have singleVault : single.1.vault = shell.vault := vault_changeDirectory shell [whole]
    rcases changeDirectory_two_steps something notBack notBack' relative first with
      ⟨path, two, one⟩ | ⟨fault, two, one⟩
    · have second_eq : second = (between.movedTo path, .ok "") := two
      have single_eq : single = (shell.movedTo path, .ok "") := one
      rw [second_eq] at secondVault ⊢
      rw [single_eq] at singleVault ⊢
      exact ⟨iff_of_true ⟨"", rfl⟩ ⟨"", rfl⟩, fun _ _ => rfl, nofun, betweenVault, secondVault,
        singleVault⟩
    · have second_eq : second = (between, .error (.fault s!"cd: {b}" fault)) := two
      have single_eq : single = (shell, .error (.fault s!"cd: {whole}" fault)) := one
      rw [second_eq] at secondVault ⊢
      rw [single_eq] at singleVault ⊢
      refine ⟨iff_of_false nofun nofun, nofun, ?_, betweenVault, secondVault, singleVault⟩
      intro failure failed
      exact ⟨fault, (Except.error.inj failed).symm, rfl⟩
  · intro arguments text standing moved there back again
    obtain ⟨undone, again_eq⟩ := changeDirectory_there_and_back standing moved
    have back_eq : back = (there.movedTo shell.cwd, .ok shell.cwd) := undone
    have again_eq : again = (there, .ok there.cwd) := by
      show back.1.changeDirectory ["-"] = _
      rw [back_eq]
      exact again_eq
    rw [back_eq, again_eq]
    exact ⟨rfl, rfl, rfl, rfl⟩

/-- Up above the root from the directory that the tilde names, a step that fails, and the way back from
the resources. -/
theorem changeDirectory_composes_tilde :
    (((Shell.fresh "vault-user" .origin).changeDirectory ["~/vault"]).1.changeDirectory
        ["../..//./vault/"]).1.cwd =
      ((Shell.fresh "vault-user" .origin).changeDirectory ["~/vault/../..//./vault/"]).1.cwd ∧
    (∃ fault, ((Shell.fresh "vault-user" .origin).changeDirectory ["~/vault/../readme.txt"]).2 =
      .error (.fault "cd: ~/vault/../readme.txt" fault)) ∧
    (Shell.fresh "vault-user" .origin).HasDirectory ∧
    (((Shell.fresh "vault-user" .origin).changeDirectory ["~/vault"]).1.changeDirectory ["-"]).2 =
      .ok "/" := by
  have up : "~/vault" ++ "/" ++ "../..//./vault/" = "~/vault/../..//./vault/" := by decide
  have file : "~/vault" ++ "/" ++ "../readme.txt" = "~/vault/../readme.txt" := by decide
  have standing : (Shell.fresh "vault-user" .origin).HasDirectory := by decide +kernel
  have first : ((Shell.fresh "vault-user" .origin).changeDirectory ["~/vault"]).2 = .ok "" := by
    decide +kernel
  obtain ⟨steps, returns⟩ := changeDirectory_composes (Shell.fresh "vault-user" .origin)
  obtain ⟨-, together, -⟩ := steps "~/vault" "../..//./vault/" "" (by decide) (by decide) (by decide)
    ⟨by decide, by decide, by decide⟩ first
  obtain ⟨-, -, alike, -⟩ := steps "~/vault" "../readme.txt" "" (by decide) (by decide) (by decide)
    ⟨by decide, by decide, by decide⟩ first
  obtain ⟨fault, -, failed⟩ := alike (.fault "cd: ../readme.txt" .notDirectory) (by decide +kernel)
  rw [file] at failed
  have met := together "" (by decide +kernel)
  rw [up] at met
  exact ⟨met, ⟨fault, failed⟩, standing, (returns ["~/vault"] "" standing first).1⟩

end Shell

end VaultShell
