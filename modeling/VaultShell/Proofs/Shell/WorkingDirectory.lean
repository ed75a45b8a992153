import VaultShell.Proofs.Shell.Moves

/-!
# The working directory exists

The working directory is kept as a path, so it is only as good as the tree.  Every command that
takes something away, `rm`, `rmdir` and `mv`, looks whether the shell works there, and `cd` looks
whether a directory is there, so no move can take the working directory away, a copy apart.

## Main definitions

* `Shell.HasDirectory`: the working directory exists

## Main statements

* `Shell.Move.hasDirectory`: no move but a copy can take the working directory away
* `Shell.hasDirectory_execute`: no command but `cp` can
-/

namespace VaultShell

namespace Shell

/-- **The working directory exists.** -/
def HasDirectory (shell : Shell) : Prop :=
  shell.vault.isDirectory shell.cwd = true

instance (shell : Shell) : Decidable shell.HasDirectory :=
  inferInstanceAs (Decidable (_ = true))

theorem hasDirectory_fresh (identity : String) (epoch : Instant) :
    (fresh identity epoch).HasDirectory := by
  have names : Path.components Path.root = [] := by decide +kernel
  show (Vault.initial epoch).root.isDirectoryAt (Path.components Path.root) = true
  rw [names]
  rfl

theorem HasDirectory.tick {shell : Shell} (h : shell.HasDirectory) : shell.tick.HasDirectory :=
  h

/-! ## Moves -/

section Moves

variable {copies : Prop} {shell after : Shell} {vault : Vault} {path : String} {names : List String}

/-- Filling a free place keeps every directory. -/
theorem isDirectoryAt_of_create {before after : Vault} {make : String → Node}
    (created : before.create path make = .ok after)
    (h : before.root.isDirectoryAt names = true) : after.root.isDirectoryAt names = true := by
  obtain ⟨same, free, -⟩ := Vault.create_eq_ok created
  rw [same.isDirectoryAt, h]
  intro begins
  have above := Node.isDirectoryAt_of_prefix h begins
  simp [Node.isDirectoryAt, free] at above

/-- What a guard on `Path.isUnder` says about the names. -/
theorem not_prefix_of_isUnder_eq_false (hcwd : Path.IsCanonical shell.cwd)
    (hpath : Path.IsCanonical path) (apart : Path.isUnder shell.cwd path = false) :
    ¬ Path.canonicalComponents path <+: Path.components shell.cwd := by
  intro begins
  rw [← Path.components_eq_canonicalComponents hpath, ← Path.isUnder_iff hcwd hpath, apart] at begins
  cases begins

/-- No way to the working directory leads through a place where no directory is. -/
theorem HasDirectory.outside (h : shell.HasDirectory) (hpath : Path.IsCanonical path)
    (gone : shell.vault.isDirectory path = false) :
    ¬ Path.canonicalComponents path <+: Path.components shell.cwd := by
  intro begins
  have above := Node.isDirectoryAt_of_prefix h begins
  rw [← Path.components_eq_canonicalComponents hpath] at above
  exact absurd above (Bool.eq_false_iff.1 gone)

/-- **A removal that is not made where the shell works leaves the working directory.**  What is removed
may be a file; then no directory was there and none is missed. -/
theorem HasDirectory.remove (h : shell.HasDirectory) (hcwd : Path.IsCanonical shell.cwd)
    (hpath : Path.IsCanonical path)
    (apart : shell.vault.isDirectory path = true → Path.isUnder shell.cwd path = false) {node : Node}
    (removed : shell.vault.remove path = .ok (node, vault)) :
    (shell.withVault vault).HasDirectory := by
  obtain ⟨same, -⟩ := Vault.remove_eq_ok removed
  refine (same.isDirectoryAt ?_).trans h
  intro begins
  have above := Node.isDirectoryAt_of_prefix h begins
  rw [← Path.components_eq_canonicalComponents hpath] at above
  exact not_prefix_of_isUnder_eq_false hcwd hpath (apart above) begins

/-- **No move but a copy can take the working directory away.** -/
theorem Move.hasDirectory (noCopies : ¬ copies) (move : Move copies shell after)
    (typed : shell.Typed) (h : shell.HasDirectory) : after.HasDirectory := by
  cases move with
  | enter typedPath there => exact there
  | createDirectory typedPath created => exact isDirectoryAt_of_create created h
  | createFile typedPath created =>
      obtain ⟨parent, name, -, created⟩ := createPlaceholder_eq_ok created
      exact isDirectoryAt_of_create created h
  | stamp typedPath stamped => exact (Vault.isDirectoryAt_of_stamp? stamped _).trans h
  | remove typedPath apart removed =>
      exact h.remove typed.cwd.canonical typedPath.canonical apart removed
  | relocate typedTarget canonical apart free removed placed =>
      -- Two changes one after the other, each outside the way to the working directory.
      obtain ⟨sameWithout, -⟩ := Vault.remove_eq_ok removed
      obtain ⟨same, -⟩ := Vault.place_eq_ok placed
      refine (same.isDirectoryAt ?_).trans ((sameWithout.isDirectoryAt ?_).trans h)
      · exact h.outside typedTarget.canonical free
      · exact not_prefix_of_isUnder_eq_false typed.cwd.canonical canonical apart
  | copy allowed typedTarget found placed => exact absurd allowed noCopies

end Moves

/-- **No command but `cp` can take the working directory away.** -/
theorem hasDirectory_execute {shell : Shell} (typed : shell.Typed) (h : shell.HasDirectory)
    {command : Command} (other : command ≠ .cp) (wallClock : String) {arguments : List String}
    (blankless : ∀ argument ∈ arguments, Text.Blankless argument) :
    (command.execute wallClock shell arguments).1.HasDirectory :=
  (command.execute_moves wallClock typed blankless).invariant
    (fun _ _ typedBefore move => move.hasDirectory other typedBefore) typed h

end Shell

end VaultShell
