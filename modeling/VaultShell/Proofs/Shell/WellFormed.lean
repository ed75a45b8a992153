import VaultShell.Proofs.Shell.Moves
import VaultShell.Proofs.Vault.WellFormed
import VaultShell.Router.Settings

/-!
# The vault of a shell is well-formed

A command does with the vault what anybody may do with it: it creates, removes, places and stamps.
So the shape that no operation can break holds after every run of lines, from the initial vault on.
The two directories that the shell remembers are texts and not part of the vault; they are canonical,
because `cd` resolves every operand before it goes there.

## Main statements

* `Shell.Move.wellFormed`: no move breaks the shape of the vault
* `Shell.wellFormed_runs`: runs of operations and runs of lines
-/

namespace VaultShell

/-! ## The initial vault -/

theorem wellFormed_initialDirectory (time : Instant) : (initialDirectory time).WellFormed := by
  have names : ∀ name ∈ initialResources, Path.IsName name := by decide
  refine .directory _ (Catalog.sorted_ofList _) ?_ ?_
  · intro member hmember
    obtain ⟨name, hname, rfl⟩ := List.mem_map.1 (Catalog.mem_of_mem_ofList hmember)
    exact ⟨rfl, names name hname⟩
  · intro member hmember
    obtain ⟨name, hname, rfl⟩ := List.mem_map.1 (Catalog.mem_of_mem_ofList hmember)
    exact Node.wellFormed_newFile name _ time

theorem Vault.wellFormed_initial (time : Instant) : (Vault.initial time).WellFormed where
  name_eq := rfl
  isDirectory := rfl
  tree := by
    have readme : Path.IsName "readme.txt" := by decide
    have resources : Path.IsName "vault" := by decide
    refine .directory _ (Catalog.sorted_ofList _) ?_ ?_
    · intro member hmember
      have hmember := Catalog.mem_of_mem_ofList hmember
      rw [List.mem_cons, List.mem_singleton] at hmember
      rcases hmember with rfl | rfl
      · exact ⟨rfl, readme⟩
      · exact ⟨rfl, resources⟩
    · intro member hmember
      have hmember := Catalog.mem_of_mem_ofList hmember
      rw [List.mem_cons, List.mem_singleton] at hmember
      rcases hmember with rfl | rfl
      · exact Node.wellFormed_newFile _ _ time
      · exact wellFormed_initialDirectory time

namespace Shell

/-- **No move breaks the shape of the vault.** -/
theorem Move.wellFormed {copies : Prop} {shell after : Shell} (move : Move copies shell after)
    (h : shell.vault.WellFormed) : after.vault.WellFormed := by
  cases move with
  | enter typed there => exact h
  | createDirectory typed created => exact h.createDirectory created
  | createFile typed created =>
      obtain ⟨parent, name, -, created⟩ := createPlaceholder_eq_ok created
      exact h.createFile created
  | stamp typed stamped => exact h.stamp? stamped
  | remove typed apart removed => exact (h.remove removed).1
  | relocate typed canonical apart free removed placed =>
      obtain ⟨without, node⟩ := h.remove removed
      exact without.place (node.mapAttributes _) placed
  | copy allowed typed found placed =>
      exact h.place ((h.tree.find? found).mapAttributes _) placed

/-- Nor does any run of lines. -/
theorem wellFormed_afterAll (settings : Settings) (lines : List String) :
    (settings.start.afterAll .standard lines).vault.WellFormed := by
  let Invariant := fun shell : Shell => shell.vault.WellFormed
  have ticks : ∀ shell, Invariant shell → Invariant shell.tick := fun _ h => h
  have keeps : ∀ shell after, shell.Typed → Move True shell after → Invariant shell →
      Invariant after := fun _ _ _ move h => move.wellFormed h
  exact afterAll_invariant ticks keeps (typed_fresh settings.identity settings.epochOrOrigin)
    (Vault.wellFormed_initial settings.epochOrOrigin) lines

/-- **Nothing breaks the shape of a vault.**  From an empty vault, every list of operations at any
paths leads to a well-formed vault, those among them that are refused and nodes that were removed
before included.  So every run of lines leads to one, from the initial vault under any settings; and
the working directory and the one before it are then canonical paths. -/
theorem wellFormed_runs :
    (∀ (time : Instant) (operations : List Vault.Operation),
      ((Workbench.start time).run operations).vault.WellFormed) ∧
    ∀ (settings : Settings) (lines : List String),
      let shell := settings.start.afterAll .standard lines
      shell.vault.WellFormed ∧ Path.normalize shell.cwd = shell.cwd ∧
        ∀ path, shell.previous = some path → Path.normalize path = path := by
  refine ⟨?_, ?_⟩
  · intro time operations
    exact ((Workbench.sound_start time).run operations).vault
  · intro settings lines shell
    have typed : shell.Typed :=
      afterAll_typed (typed_fresh settings.identity settings.epochOrOrigin) lines
    refine ⟨wellFormed_afterAll settings lines, typed.cwd.canonical, ?_⟩
    exact fun path previous => (typed.previous path previous).canonical

end Shell

end VaultShell
