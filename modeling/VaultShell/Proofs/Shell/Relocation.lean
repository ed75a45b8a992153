import VaultShell.Proofs.Shell.WellFormed

/-!
# A node is moved whole or not at all

`mv` takes a node out of the vault and then puts it in elsewhere.  Where the checks pass, neither step is
refused, so the node cannot get lost between them.  What the vault is afterwards is then put together from
what each step does: the first one leaves the old place empty, the second one fills the target, and
neither of the two places lies in the other one.

## Main definitions

* `Shell.Relocated`: what the vault is afterwards

## Main statements

* `Shell.MayMove.relocated`: what the two steps make of the vault
* `Shell.moveNode_whole`: a node is moved whole, or everything stays as it was
-/

namespace VaultShell

namespace Shell

/-- **A node was moved**, from one path to another one, and nothing else was done. -/
structure Relocated (shell after : Shell) (origin target : String) (node : Node) : Prop where
  /-- The node as it was. -/
  found : shell.vault.find? origin = some node
  /-- Its old place is empty. -/
  gone : after.vault.find? origin = none
  /-- At the target it is the same node, under the last name of the target and with the time of the
  clock; all that lies beneath it came along unchanged. -/
  stands : ∃ parent name, Path.split target = .ok (parent, name) ∧
    after.vault.find? target = some ((node.stamp shell.clock).rename name)
  /-- Every other node that was there is there as it was. -/
  kept : ∀ path seen, ¬ Path.Within path origin → Path.components path ≠ Path.components target →
    shell.vault.bareAt? path = some seen → after.vault.bareAt? path = some seen
  /-- Beside the two places nothing is new either. -/
  same : ∀ path, ¬ Path.Within path origin → ¬ Path.Within path target →
    after.vault.bareAt? path = shell.vault.bareAt? path
  /-- The target was no directory, and if a file was there, then a file took its place. -/
  free : shell.vault.isDirectory target = false
  file : shell.vault.has target = true → node.isDirectory = false
  /-- The target is not beneath the old place. -/
  apart : ¬ Path.Within target origin
  /-- Of the state only the vault has changed. -/
  state_eq : after = shell.withVault after.vault

namespace MayMove

variable {shell : Shell} {source destination target : String} {node : Node}

/-- What is moved is not beneath the target either, for nothing is. -/
theorem not_within_target (may : MayMove shell source destination target node) :
    ¬ Path.Within (shell.resolve source) target := by
  obtain ⟨-, free, -⟩ := moveRefusal?_eq_none_iff.1 may.unrefused
  rintro ⟨more, hmore⟩
  cases more with
  | nil =>
      rw [List.append_nil] at hmore
      exact may.apart ⟨[], by rw [List.append_nil, hmore]⟩
  | cons first rest =>
      have nothing := Node.find?_append_of_not_isDirectory free first rest
      rw [hmore] at nothing
      have found : shell.vault.root.find? (Path.components (shell.resolve source)) = some node :=
        may.found
      rw [nothing] at found
      cases found

/-- What the two steps make of the vault. -/
theorem relocated (may : MayMove shell source destination target node)
    (wellFormed : shell.vault.WellFormed) {without vault : Vault}
    (removed : shell.vault.remove (shell.resolve source) = .ok (node, without))
    (placed : without.place target (node.stamp shell.clock) = .ok vault) :
    Relocated shell (shell.withVault vault) (shell.resolve source) target node := by
  have origin_eq := Path.components_eq_canonicalComponents (shell.isCanonical_resolve source)
  have target_eq := Path.components_eq_canonicalComponents (isCanonical_targetOf may.target_eq)
  obtain ⟨-, free, file, -⟩ := moveRefusal?_eq_none_iff.1 may.unrefused
  obtain ⟨sameWithout, -⟩ := Vault.remove_eq_ok removed
  obtain ⟨samePlaced, parent, name, hsplit, -, stands⟩ := Vault.place_eq_ok placed
  rw [← origin_eq] at sameWithout
  rw [← target_eq] at samePlaced stands
  have same : ∀ path, ¬ Path.Within path (shell.resolve source) → ¬ Path.Within path target →
      vault.bareAt? path = shell.vault.bareAt? path :=
    fun path notOrigin notTarget => (samePlaced _ notTarget).trans (sameWithout _ notOrigin)
  refine
    { found := may.found
      gone := ?_
      stands := ⟨parent, name, hsplit, ?_⟩
      kept := ?_
      same := same
      free := free
      file := file
      apart := may.apart
      state_eq := rfl }
  · have nothing := wellFormed.find?_remove removed []
    rw [List.append_nil, ← origin_eq] at nothing
    have unseen : vault.root.bareAt? (Path.components (shell.resolve source)) = none := by
      rw [samePlaced _ may.not_within_target, Node.bareAt?, nothing]
      rfl
    exact Option.map_eq_none_iff.1 unseen
  · have whole := stands []
    rwa [List.append_nil] at whole
  · -- Beneath the target there was nothing that could have been kept.
    intro path seen notOrigin notTarget there
    refine (same path notOrigin ?_).trans there
    rintro ⟨more, hmore⟩
    cases more with
    | nil => exact notTarget (by rw [← hmore, List.append_nil])
    | cons first rest =>
        have nothing := Node.find?_append_of_not_isDirectory free first rest
        rw [Vault.bareAt?, Node.bareAt?, ← hmore, nothing] at there
        cases there

end MayMove

/-- **A node is moved whole, or everything stays as it was.**  In a well-formed vault and for any two
operands: a move that fails changes nothing at all, and neither does one that leads to where the node is
already; any other move that is reported has been made.  And it depends on the checks alone whether a
node is moved: where they pass, it is. -/
theorem moveNode_whole {shell : Shell} (wellFormed : shell.vault.WellFormed)
    (source destination : String) :
    let outcome := shell.moveNode source destination
    let origin := shell.resolve source
    (∀ failure, outcome.2 = .error failure → outcome.1 = shell) ∧
    (outcome.2 = .ok origin → outcome.1 = shell) ∧
    (∀ target, outcome.2 = .ok target → target ≠ origin →
      ∃ node, Relocated shell outcome.1 origin target node) ∧
    ∀ target node, MayMove shell source destination target node → outcome.2 = .ok target := by
  intro outcome origin
  have requested := moveNode_outcome shell source destination
  have moves : ∀ target node, MayMove shell source destination target node →
      outcome.2 = .ok target := by
    intro target node may
    obtain ⟨without, removed⟩ := may.exists_remove
    obtain ⟨vault, placed⟩ := may.exists_place removed
    exact congrArg Prod.snd (requested.granted _ _ (.moved may removed placed))
  rcases requested.cases with
    ⟨vault, _, there | ⟨may, removed, placed⟩, made⟩ | ⟨_, ⟨failure, rfl, -⟩, refused⟩
  · have outcome_eq : outcome = (shell, .ok origin) := made
    rw [outcome_eq] at moves ⊢
    refine ⟨nofun, fun _ => rfl, ?_, moves⟩
    intro target reported different
    exact absurd (Except.ok.inj reported).symm different
  · have outcome_eq : outcome = (shell.withVault vault, .ok _) := made
    rw [outcome_eq] at moves ⊢
    refine ⟨nofun, ?_, ?_, moves⟩
    · intro reported
      exact absurd (Except.ok.inj reported) may.different
    · intro other reported _
      obtain rfl := Except.ok.inj reported
      exact ⟨_, may.relocated wellFormed removed placed⟩
  · have outcome_eq : outcome = (shell, .error failure) := refused
    rw [outcome_eq] at moves ⊢
    exact ⟨fun _ _ => rfl, nofun, nofun, moves⟩

/-- The directory of the resources, moved to a new name, its operand written in a roundabout way. -/
theorem moveNode_whole_directory :
    let outcome := Settings.standard.start.moveNode "./vault//" "~/box"
    ∃ node, Relocated Settings.standard.start outcome.1 "/vault" "/box" node := by
  have wellFormed : Settings.standard.start.vault.WellFormed :=
    Vault.wellFormed_initial Settings.standard.epochOrOrigin
  have origin : Settings.standard.start.resolve "./vault//" = "/vault" := by decide +kernel
  have moved := (moveNode_whole wellFormed "./vault//" "~/box").2.2.1 "/box" (by decide +kernel)
    (by decide +kernel)
  rwa [origin] at moved

end Shell

end VaultShell
