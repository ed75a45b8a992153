import VaultShell.Proofs.Vault.WellFormed

/-!
# Vaults that lost some of their nodes

A removal takes a node out of the vault together with all that lies beneath it.  Of several removals,
one after the other, a later one may take away a directory that an earlier one has taken something out
of, and it may find that its node is gone already.  What is left in the end does not depend on any of
this: nothing is left at the places or beneath them, and everything else is as it was.

## Main definitions

* `Vault.Pruned`: a vault less what lies at some paths or beneath them

## Main statements

* `Vault.Pruned.trans`: one after the other
* `Vault.Pruned.bareAt?_eq_some`: nothing new comes to light
* `Vault.WellFormed.pruned`: a removal prunes
-/

namespace VaultShell

namespace Node

variable {node : Node} {names : List String}

theorem bareAt?_eq_none_iff : node.bareAt? names = none ↔ node.find? names = none :=
  Option.map_eq_none_iff

theorem kindAt?_eq_none_iff : node.kindAt? names = none ↔ node.bareAt? names = none := by
  rw [kindAt?_eq, Option.map_eq_none_iff]

/-- Nothing lies beneath a node that is the same without its children. -/
theorem find?_cons_of_bare_eq (childless : node.bare = node) (name : String) (rest : List String) :
    node.find? (name :: rest) = none := by
  rw [← childless]
  cases node with
  | file attributes content => rfl
  | directory attributes children => rfl

end Node

namespace Vault

/-- What is there can be seen. -/
theorem has_eq_true_iff {vault : Vault} {path : String} :
    vault.has path = true ↔ ∃ seen, vault.bareAt? path = some seen := by
  unfold has find? bareAt? Node.bareAt?
  cases vault.root.find? (Path.components path) <;> simp

theorem has_eq_false_iff {vault : Vault} {path : String} :
    vault.has path = false ↔ vault.bareAt? path = none := by
  unfold has find? bareAt? Node.bareAt?
  cases vault.root.find? (Path.components path) <;> simp

theorem has_of_kindAt? {vault : Vault} {path : String} {kind : Kind}
    (there : vault.kindAt? path = some kind) : vault.has path = true := by
  obtain ⟨node, found, -⟩ := Option.map_eq_some_iff.1 there
  exact Option.isSome_of_eq_some found

theorem isDirectory_eq_true_iff {vault : Vault} {path : String} :
    vault.isDirectory path = true ↔ vault.kindAt? path = some .directory := by
  unfold isDirectory find? kindAt? Node.kindAt?
  cases vault.root.find? (Path.components path) <;> simp [Node.isDirectory]

/-- Where nothing is, nothing is beneath. -/
theorem kindAt?_eq_none_of_within {vault : Vault} {path inner : String}
    (missing : vault.kindAt? path = none) (within : Path.Within inner path) :
    vault.kindAt? inner = none := by
  obtain ⟨rest, hrest⟩ := within
  have nothing : vault.root.find? (Path.components path) = none := Option.map_eq_none_iff.1 missing
  rw [kindAt?, ← hrest, Node.kindAt?_append, nothing]
  rfl

/-- **A vault less what lies at some paths or beneath them.** -/
structure Pruned (paths : List String) (vault after : Vault) : Prop where
  gone : ∀ path ∈ paths, ∀ names, Path.components path <+: names →
    after.root.bareAt? names = none
  kept : ∀ names, (∀ path ∈ paths, ¬ Path.components path <+: names) →
    after.root.bareAt? names = vault.root.bareAt? names

variable {paths more : List String} {vault between after : Vault} {names : List String}

theorem Pruned.refl (vault : Vault) : Pruned [] vault vault where
  gone path member := by cases member
  kept names outside := rfl

/-- **Nothing new comes to light.** -/
theorem Pruned.bareAt?_eq_some (pruned : Pruned paths vault after) {seen : Node}
    (there : after.root.bareAt? names = some seen) : vault.root.bareAt? names = some seen := by
  rw [← pruned.kept, there]
  intro path member begins
  rw [pruned.gone path member names begins] at there
  cases there

/-- What was not there is not there. -/
theorem Pruned.bareAt?_eq_none (pruned : Pruned paths vault after)
    (missing : vault.root.bareAt? names = none) : after.root.bareAt? names = none := by
  cases there : after.root.bareAt? names with
  | none => rfl
  | some seen =>
      rw [pruned.bareAt?_eq_some there] at missing
      cases missing

theorem Pruned.trans (first : Pruned paths vault between) (second : Pruned more between after) :
    Pruned (paths ++ more) vault after where
  gone path member names begins := by
    rcases List.mem_append.1 member with earlier | later
    · exact second.bareAt?_eq_none (first.gone path earlier names begins)
    · exact second.gone path later names begins
  kept names outside := by
    rw [second.kept names fun path later => outside path (List.mem_append_right _ later),
      first.kept names fun path earlier => outside path (List.mem_append_left _ earlier)]

/-- **A removal prunes** the vault at its path. -/
theorem WellFormed.pruned (wellFormed : vault.WellFormed) {path : String} {node : Node}
    (canonical : Path.IsCanonical path) (removed : vault.remove path = .ok (node, after)) :
    Pruned [path] vault after where
  gone other member names begins := by
    obtain rfl := List.mem_singleton.1 member
    obtain ⟨rest, rfl⟩ := begins
    rw [Path.components_eq_canonicalComponents canonical]
    exact Node.bareAt?_eq_none_iff.2 (wellFormed.find?_remove removed rest)
  kept names outside := by
    obtain ⟨same, -⟩ := remove_eq_ok removed
    refine same names ?_
    rw [← Path.components_eq_canonicalComponents canonical]
    exact outside path List.mem_cons_self

end Vault

end VaultShell
