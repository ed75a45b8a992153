import VaultShell.Proofs.Shell.WorkingDirectory
import VaultShell.Proofs.Vault.Pruning

/-!
# Removals, one after the other

`rm` and `rmdir` differ in what they remove and in which operands they take it from.  What they do to the
state is the same: they take nodes out of the vault, one after the other, and no directory in or beneath
which the shell works.  So both are chains of removals, and what can be said of such a chain needs no
look at the command that made it.

Where every node had nothing beneath it when its turn came, the chain can be read off the vault: what is
missing in the end is what stands in the chain.

## Main definitions

* `Shell.Removals`: a chain of removals, with the paths that were removed
* `Shell.Names`: an operand names a place

## Main statements

* `Shell.Removals.pruned`: what a chain of removals leaves
* `Shell.Removals.hasDirectory`: the working directory is left
* `Shell.Removals.missing_iff`: if nothing lay beneath the nodes, exactly they are missing
* `Shell.Removals.may_of_missing`: what is missing was taken by itself
-/

namespace VaultShell

namespace Shell

/-- **Removals, one after the other**: the nodes at some paths are taken out of the vault.  Each of them
may be taken, by whatever the command asks for, and no directory is one that the shell works in or
beneath. -/
inductive Removals (may : String → Node → Prop) : List String → Shell → Shell → Prop
  | nil (shell : Shell) : Removals may [] shell shell
  | cons {shell after : Shell} {path : String} {node : Node} {vault : Vault} {paths : List String}
      (canonical : Path.IsCanonical path) (allowed : may path node)
      (apart : shell.vault.isDirectory path = true → Path.isUnder shell.cwd path = false)
      (removed : shell.vault.remove path = .ok (node, vault))
      (later : Removals may paths (shell.withVault vault) after) :
      Removals may (path :: paths) shell after

/-- An operand names the place that a path leads to. -/
def Names (shell : Shell) (operand path : String) : Prop :=
  Path.components (shell.resolve operand) = Path.components path

namespace Removals

variable {may : String → Node → Prop} {paths more : List String} {shell between after : Shell}

/-- Of the state only the vault changes. -/
theorem state_eq (removals : Removals may paths shell after) : after = shell.withVault after.vault := by
  induction removals with
  | nil shell => rfl
  | cons canonical allowed apart removed later ih => exact ih

theorem cwd_eq (removals : Removals may paths shell after) : after.cwd = shell.cwd := by
  show after.cwd = (shell.withVault after.vault).cwd
  rw [← removals.state_eq]

/-- Operands lead to the same paths afterwards. -/
theorem resolve_eq (removals : Removals may paths shell after) (operand : String) :
    after.resolve operand = shell.resolve operand :=
  congrArg (Path.resolve · operand) removals.cwd_eq

theorem append (first : Removals may paths shell between) (second : Removals may more between after) :
    Removals may (paths ++ more) shell after := by
  induction first with
  | nil shell => exact second
  | cons canonical allowed apart removed later ih =>
      exact .cons canonical allowed apart removed (ih second)

theorem wellFormed (removals : Removals may paths shell after) (h : shell.vault.WellFormed) :
    after.vault.WellFormed := by
  induction removals with
  | nil shell => exact h
  | cons canonical allowed apart removed later ih => exact ih (h.remove removed).1

/-- **What a chain of removals leaves**: nothing of the nodes it took, and everything else. -/
theorem pruned (removals : Removals may paths shell after) (h : shell.vault.WellFormed) :
    Vault.Pruned paths shell.vault after.vault := by
  induction removals with
  | nil shell => exact .refl shell.vault
  | cons canonical allowed apart removed later ih =>
      exact (h.pruned canonical removed).trans (ih (h.remove removed).1)

/-- **The working directory is left.** -/
theorem hasDirectory (removals : Removals may paths shell after)
    (canonical : Path.IsCanonical shell.cwd) (h : shell.HasDirectory) : after.HasDirectory := by
  induction removals with
  | nil shell => exact h
  | cons canonicalPath allowed apart removed later ih =>
      exact ih canonical (h.remove canonical canonicalPath apart removed)

/-- What was taken was there from the beginning. -/
theorem bareAt?_of_mem (removals : Removals may paths shell after) (h : shell.vault.WellFormed)
    {path : String} (member : path ∈ paths) :
    ∃ node, may path node ∧ shell.vault.bareAt? path = some node.bare := by
  induction removals with
  | nil shell => cases member
  | cons canonical allowed apart removed later ih =>
      rcases List.mem_cons.1 member with rfl | member
      · obtain ⟨-, found⟩ := Vault.remove_eq_ok removed
        refine ⟨_, allowed, ?_⟩
        rw [Vault.bareAt?, Path.components_eq_canonicalComponents canonical, Node.bareAt?, found]
        rfl
      · obtain ⟨node, allowedNode, there⟩ := ih (h.remove removed).1 member
        exact ⟨node, allowedNode, (h.pruned canonical removed).bareAt?_eq_some there⟩

/-- **If nothing lay beneath the nodes when their turn came, exactly they are missing.**  What lies
beneath a node of the chain was in the chain before it, or was not there at all. -/
theorem missing_iff (removals : Removals may paths shell after) (h : shell.vault.WellFormed)
    (childless : ∀ path node, may path node → node.bare = node) {names : List String} {seen : Node}
    (there : shell.vault.root.bareAt? names = some seen) :
    after.vault.root.bareAt? names = none ↔ ∃ path ∈ paths, Path.components path = names := by
  induction removals with
  | nil shell => simp [there]
  | @cons shell after path node vault paths canonical allowed apart removed later ih =>
      have pruned := h.pruned canonical removed
      -- Either this is what was taken first, or the first removal left it alone: nothing lay beneath.
      by_cases here : Path.components path = names
      · have gone : vault.root.bareAt? names = none :=
          pruned.gone path List.mem_cons_self names (here ▸ List.prefix_refl names)
        refine iff_of_true ?_ ⟨path, List.mem_cons_self, here⟩
        exact (later.pruned (h.remove removed).1).bareAt?_eq_none gone
      · have outside : ¬ Path.components path <+: names := by
          rintro ⟨rest, rfl⟩
          obtain ⟨-, found⟩ := Vault.remove_eq_ok removed
          rw [← Path.components_eq_canonicalComponents canonical] at found
          cases rest with
          | nil => exact here (List.append_nil _).symm
          | cons name rest =>
              rw [Node.bareAt?, Node.find?_append, found] at there
              simp [Node.find?_cons_of_bare_eq (childless path node allowed)] at there
        have kept : vault.root.bareAt? names = some seen := by
          rw [← there]
          refine pruned.kept names fun other member => ?_
          rwa [List.mem_singleton.1 member]
        rw [ih (h.remove removed).1 kept]
        simp [here]

/-- **Then what is missing was taken by itself**, as it was in the beginning. -/
theorem may_of_missing (removals : Removals may paths shell after) (h : shell.vault.WellFormed)
    (childless : ∀ path node, may path node → node.bare = node) {path : String} {seen : Node}
    (there : shell.vault.bareAt? path = some seen) (missing : after.vault.bareAt? path = none) :
    ∃ place, Path.components place = Path.components path ∧ may place seen := by
  obtain ⟨place, member, same⟩ := (removals.missing_iff h childless there).1 missing
  obtain ⟨node, allowed, stood⟩ := removals.bareAt?_of_mem h member
  rw [Vault.bareAt?, same, ← Vault.bareAt?, there, childless place node allowed] at stood
  exact ⟨place, same, Option.some.inj stood ▸ allowed⟩

end Removals

end Shell

end VaultShell
