import VaultShell.Proofs.Shell.Transfers
import VaultShell.Router.Settings
import VaultShell.Shell.Run

/-!
# A copy is faithful

A copy puts the whole of what was found at the source under the target, in one change of the vault.
What was found is a value, so it does not matter that source and target lie in the same tree, that the
target may lie above the source, or that the change takes away what stood at the target: the copy is of
the source as it was before.  Outside the target nothing changes, and a copy that is refused changes
nothing at all.

Only the node on top is not quite the same.  It goes by the last name of the target and has the time of
the clock, while everything beneath it keeps its own time.

## Main definitions

* `Shell.Duplicated`: what the vault is afterwards

## Main statements

* `Shell.copyNode_eq_ok_iff`: a copy is made if and only if it may be made
* `Shell.copyNode_faithful`: a node is copied faithfully, or everything stays as it was
-/

namespace VaultShell

namespace Shell

/-- **A node was copied**, from one path to another one, and nothing else was done. -/
structure Duplicated (recursive : Bool) (shell after : Shell) (origin target : String)
    (node : Node) : Prop where
  /-- The node as it was. -/
  found : shell.vault.find? origin = some node
  /-- At the target it is the same node, under the last name of the target and with the time of the
  clock. -/
  stands : ∃ parent name, Path.split target = .ok (parent, name) ∧
    after.vault.find? target = some ((node.stamp shell.clock).rename name)
  /-- What lies beneath it came along as it was, times included. -/
  beneath : ∀ name rest, after.vault.root.find? (Path.components target ++ name :: rest) =
    shell.vault.root.find? (Path.components origin ++ name :: rest)
  /-- Every path that does not lead to the target or beneath it shows what it showed. -/
  same : ∀ path, ¬ Path.Within path target → after.vault.bareAt? path = shell.vault.bareAt? path
  /-- A directory is copied only if directories may be. -/
  allowed : node.isDirectory = true → recursive = true
  /-- A directory does not go into itself. -/
  apart : node.isDirectory = true → ¬ Path.Within target origin
  /-- Of the state only the vault has changed. -/
  state_eq : after = shell.withVault after.vault

variable {recursive : Bool} {shell : Shell} {source destination target : String} {node : Node}

/-- What comes of a copy that is made. -/
theorem MayCopy.duplicated (may : MayCopy recursive shell source destination target node)
    {vault : Vault} (placed : shell.vault.place target (node.stamp shell.clock) = .ok vault) :
    Duplicated recursive shell (shell.withVault vault) (shell.resolve source) target node := by
  have hsource := shell.isCanonical_resolve source
  have htarget := isCanonical_targetOf may.target_eq
  have target_eq := Path.components_eq_canonicalComponents htarget
  obtain ⟨-, apart, -⟩ := copyRefusal?_eq_none_iff.1 may.unrefused
  obtain ⟨same, parent, name, hsplit, -, stands⟩ := Vault.place_eq_ok placed
  rw [← target_eq] at same stands
  refine
    { found := may.found
      stands := ⟨parent, name, hsplit, ?_⟩
      beneath := ?_
      same := fun path outside => same _ outside
      allowed := may.allowed
      apart := ?_
      state_eq := rfl }
  · have whole := stands []
    rwa [List.append_nil] at whole
  · intro first rest
    have found : shell.vault.root.find? (Path.components (shell.resolve source)) = some node :=
      may.found
    show vault.root.find? (Path.components target ++ first :: rest) = _
    rw [stands, Node.find?_append, found, Node.rename, Node.find?_cons_mapAttributes, Node.stamp,
      Node.find?_cons_mapAttributes]
    rfl
  · intro directory within
    have under := (Path.isUnder_iff htarget hsource).2 within
    rw [apart directory] at under
    cases under

/-- **A copy is made if and only if it may be made.** -/
theorem copyNode_eq_ok_iff :
    (copyNode recursive shell source destination).2 = .ok target ↔
      ∃ node, MayCopy recursive shell source destination target node := by
  have outcome := copyNode_outcome recursive shell source destination
  constructor
  · intro reported
    rcases outcome.cases with ⟨_, _, ⟨may, -⟩, made⟩ | ⟨_, ⟨failure, rfl, -⟩, refused⟩
    · rw [made] at reported
      obtain rfl := Except.ok.inj reported
      exact ⟨_, may⟩
    · rw [refused] at reported
      cases reported
  · rintro ⟨node, may⟩
    obtain ⟨vault, placed⟩ := may.exists_place
    rw [outcome.granted _ _ (.placed may placed)]

/-- **A node is copied faithfully, or everything stays as it was.**  For any state, any two operands and
either setting: a copy that fails changes nothing at all, one that is reported has been made, and it is
reported exactly where it may be made. -/
theorem copyNode_faithful (recursive : Bool) (shell : Shell) (source destination : String) :
    let outcome := copyNode recursive shell source destination
    (∀ failure, outcome.2 = .error failure → outcome.1 = shell) ∧
    (∀ target, outcome.2 = .ok target →
      ∃ node, Duplicated recursive shell outcome.1 (shell.resolve source) target node) ∧
    ∀ target, outcome.2 = .ok target ↔
      ∃ node, MayCopy recursive shell source destination target node := by
  intro outcome
  have requested := copyNode_outcome recursive shell source destination
  refine ⟨?_, ?_, fun target => copyNode_eq_ok_iff⟩
  · intro failure failed
    exact (requested.refused failed nofun).2
  · intro target reported
    obtain ⟨node, may⟩ := copyNode_eq_ok_iff.1 reported
    obtain ⟨vault, placed⟩ := may.exists_place
    have after_eq : outcome.1 = shell.withVault vault :=
      congrArg Prod.fst (requested.granted _ _ (.placed may placed))
    rw [after_eq]
    exact ⟨node, may.duplicated placed⟩

/-- The copy is of the source as it was before, even if it takes away what stood above the source. -/
example :
    let shell := Settings.standard.start.afterAll .standard ["mkdir -p x/x/y"]
    let after := (copyNode true shell "x/x" "/").1
    after.vault.isDirectory "/x/y" = true ∧ after.vault.has "/x/x" = false := by
  decide +kernel

end Shell

end VaultShell
