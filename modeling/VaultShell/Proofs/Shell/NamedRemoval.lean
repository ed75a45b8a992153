import VaultShell.Proofs.Shell.Removals
import VaultShell.Proofs.Shell.WellFormed

/-!
# `rm` removes what was named

The operands of `rm` are taken one after the other, and each sees what those before it have left.  An
operand may be given twice, or name something in a directory that an earlier operand has taken away; then
nothing is there any more, and the operand is passed over as if nothing had ever been there.

So the order matters for what comes of a single operand, but it hardly matters for what is left.  Every
node that is missing in the end lies at the path of an operand or beneath it.  And as long as no flag
asks for whole trees, each node was taken by itself: a directory goes only when all that lay in it has
been taken before, each node by an operand of its own.

## Main definitions

* `Shell.removalLog`: the operands, each with what came of it
* `Shell.RemovesNamed`: what is left of the vault

## Main statements

* `Shell.eachOperand_removeOperand_filter`: operands that lead nowhere may be left out
* `Shell.taken_of_missing`: what is missing was taken by itself, unless whole trees were asked for
* `Shell.remove_takes_named`: `rm` removes what was named, and nothing else
-/

namespace VaultShell

namespace Shell

/-- **The log of several operands**: each of them, with what came of it when its turn came. -/
def removalLog (settings : RemoveSettings) (shell : Shell) :
    List String → List (String × Except Failure Bool)
  | [] => []
  | operand :: rest =>
    (operand, (removeNode settings shell operand).2) ::
      removalLog settings (removeNode settings shell operand).1 rest

/-- What `rm` may take: something that was named, and unless a flag asks for whole trees, nothing that
holds something.  A directory has to be asked for then. -/
structure MayRemove (settings : RemoveSettings) (named : String → Prop) (path : String)
    (node : Node) : Prop where
  named : named path
  childless : settings.recursive = false → node.bare = node
  wanted : settings.recursive = false → node.isDirectory = true → settings.emptyDirectories = true

/-- **What `rm` leaves of the vault** when it is called for some operands. -/
structure RemovesNamed (settings : RemoveSettings) (operands : List String)
    (shell after : Shell) : Prop where
  /-- A path that is not beneath the path of an operand shows what it showed. -/
  outside : ∀ path, (∀ operand ∈ operands, ¬ Path.Within path (shell.resolve operand)) →
    after.vault.bareAt? path = shell.vault.bareAt? path
  /-- Nothing is new, and nothing that is left has changed. -/
  old : ∀ path seen, after.vault.bareAt? path = some seen → shell.vault.bareAt? path = some seen
  /-- The working directory is left. -/
  directory : shell.HasDirectory → after.HasDirectory
  /-- Unless a flag asks for whole trees, the files that are missing are those that were named. -/
  files : settings.recursive = false → ∀ path, shell.vault.kindAt? path = some .file →
    (after.vault.kindAt? path = none ↔ ∃ operand ∈ operands, shell.Names operand path)
  /-- A directory that is missing then was asked for and named, and each node beneath it was removed for
  an operand that named it. -/
  directories : settings.recursive = false → ∀ path, shell.vault.kindAt? path = some .directory →
    after.vault.kindAt? path = none →
      settings.emptyDirectories = true ∧ (∃ operand ∈ operands, shell.Names operand path) ∧
      ∀ inner, Path.Within inner path → shell.vault.has inner = true →
        ∃ operand, (operand, .ok true) ∈ shell.removalLog settings operands ∧
          shell.Names operand inner
  /-- Of the state only the vault has changed. -/
  state_eq : after = shell.withVault after.vault

variable {settings : RemoveSettings} {shell : Shell} {operand path : String}
  {operands : List String} {node : Node}

/-! ## A single operand -/

/-- An operand that leads nowhere is passed over in silence. -/
theorem removeOperand_of_find?_eq_none (settings : RemoveSettings)
    (missing : shell.vault.find? (shell.resolve operand) = none) :
    removeOperand settings shell operand = (shell, []) := by
  have passed := (removeNode_outcome settings shell operand).granted _ _ (.nothing missing)
  refine Prod.ext ?_ ?_
  · rw [removeOperand_fst, passed, withVault_vault]
  · simp only [removeOperand_snd, passed, reportOf, Bool.false_and, Bool.false_eq_true, if_false]

/-- A single operand makes a chain of one removal or of none. -/
theorem exists_removals_removeNode {named : String → Prop}
    (hnamed : (removeNode settings shell operand).2 = .ok true → named (shell.resolve operand)) :
    ∃ paths, Removals (MayRemove settings named) paths shell
      (removeNode settings shell operand).1 := by
  rcases (removeNode_outcome settings shell operand).cases with
    ⟨vault, _, missing | ⟨found, allowed, removed⟩, done⟩ | ⟨_, -, refused⟩
  · rw [done]
    exact ⟨[], .nil shell⟩
  · obtain ⟨apart, childless, wanted⟩ := removalFault?_eq_none allowed
    rw [done] at hnamed ⊢
    refine ⟨[shell.resolve operand],
      .cons (shell.isCanonical_resolve operand) ⟨hnamed rfl, childless, wanted⟩ ?_ removed (.nil _)⟩
    intro there
    refine apart ?_
    simpa [Vault.isDirectory, found] using there
  · rw [refused]
    exact ⟨[], .nil shell⟩

theorem exists_removals_operand (settings : RemoveSettings) (shell : Shell) (operand : String) :
    ∃ paths, Removals (MayRemove settings fun _ => True) paths shell
      (removeNode settings shell operand).1 :=
  exists_removals_removeNode fun _ => trivial

/-- **A file that is named is removed.**  It is not the root, so it can be taken out. -/
theorem removeNode_of_file (settings : RemoveSettings) (wellFormed : shell.vault.WellFormed)
    (file : shell.vault.kindAt? (shell.resolve operand) = some .file) :
    ∃ vault, shell.vault.remove (shell.resolve operand) = .ok vault ∧
      removeNode settings shell operand = (shell.withVault vault.2, .ok true) := by
  obtain ⟨node, found, isFile⟩ := Option.map_eq_some_iff.1 file
  have found : shell.vault.find? (shell.resolve operand) = some node := found
  have names := Path.components_eq_canonicalComponents (shell.isCanonical_resolve operand)
  have beneath : Path.canonicalComponents (shell.resolve operand) ≠ [] := by
    intro top
    rw [Vault.find?, names, top, Node.find?_nil, Option.some.injEq] at found
    have directory := wellFormed.isDirectory
    rw [found, Node.isDirectory, isFile] at directory
    cases directory
  obtain ⟨parent, name, hsplit⟩ := Path.exists_split beneath
  obtain ⟨vault, removed⟩ := Vault.exists_remove hsplit (by rwa [← names])
  have allowed : shell.removalFault? settings (shell.resolve operand) node = none := by
    cases node with
    | directory attributes children => cases isFile
    | file attributes content => rfl
  exact ⟨(node, vault), removed,
    (removeNode_outcome settings shell operand).granted _ _ (.taken found allowed removed)⟩

/-! ## All operands of a line -/

/-- The state when all operands have had their turn. -/
def afterRemovals (settings : RemoveSettings) (shell : Shell) (operands : List String) : Shell :=
  (shell.eachOperand (removeOperand settings) operands).1

theorem afterRemovals_cons (settings : RemoveSettings) (shell : Shell) (operand : String)
    (rest : List String) :
    shell.afterRemovals settings (operand :: rest) =
      (removeNode settings shell operand).1.afterRemovals settings rest := by
  unfold afterRemovals
  rw [eachOperand_cons, removeOperand_fst]

theorem mem_of_mem_removalLog {entry : String × Except Failure Bool}
    (logged : entry ∈ shell.removalLog settings operands) : entry.1 ∈ operands := by
  induction operands generalizing shell with
  | nil => cases logged
  | cons operand rest ih =>
      rcases List.mem_cons.1 logged with rfl | later
      · exact List.mem_cons_self
      · exact List.mem_cons_of_mem operand (ih later)

/-- **The operands make a chain of removals**, of those in the log that found something. -/
theorem exists_removals {named : String → Prop}
    (hnamed : ∀ operand, (operand, .ok true) ∈ shell.removalLog settings operands →
      named (shell.resolve operand)) :
    ∃ paths, Removals (MayRemove settings named) paths shell
      (shell.afterRemovals settings operands) := by
  induction operands generalizing shell with
  | nil => exact ⟨[], .nil shell⟩
  | cons operand rest ih =>
      have single : ∃ paths, Removals (MayRemove settings named) paths shell
          (removeNode settings shell operand).1 := by
        refine exists_removals_removeNode fun found => ?_
        refine hnamed operand (List.mem_cons.2 (Or.inl ?_))
        rw [found]
      obtain ⟨paths, first⟩ := single
      have named : ∀ other,
          (other, .ok true) ∈ (removeNode settings shell operand).1.removalLog settings rest →
            named ((removeNode settings shell operand).1.resolve other) := by
        intro other logged
        rw [first.resolve_eq]
        exact hnamed other (List.mem_cons_of_mem _ logged)
      obtain ⟨more, second⟩ := ih named
      rw [afterRemovals_cons]
      exact ⟨paths ++ more, first.append second⟩

/-- What stands at the path of an operand that found something. -/
def Taken (settings : RemoveSettings) (shell : Shell) (operands : List String) (path : String) : Prop :=
  ∃ operand, (operand, .ok true) ∈ shell.removalLog settings operands ∧ shell.resolve operand = path

theorem exists_removals_taken (settings : RemoveSettings) (shell : Shell) (operands : List String) :
    ∃ paths, Removals (MayRemove settings (Taken settings shell operands)) paths shell
      (shell.afterRemovals settings operands) :=
  exists_removals fun operand logged => ⟨operand, logged, rfl⟩

/-- **Every file that is named is missing in the end.**  It is there when its first turn comes, unless it
has been taken away before. -/
theorem bareAt?_afterRemovals_of_file (settings : RemoveSettings)
    (wellFormed : shell.vault.WellFormed) (member : operand ∈ operands)
    (file : shell.vault.kindAt? (shell.resolve operand) = some .file) :
    (shell.afterRemovals settings operands).vault.bareAt? (shell.resolve operand) = none := by
  induction operands generalizing shell with
  | nil => cases member
  | cons first rest ih =>
      obtain ⟨paths, single⟩ := exists_removals_operand settings shell first
      obtain ⟨more, later⟩ := exists_removals_taken settings (removeNode settings shell first).1 rest
      have pruned := later.pruned (single.wellFormed wellFormed)
      rw [afterRemovals_cons]
      -- Its turn is now, or it is later, and then the operand before it may have taken the file along.
      rcases List.mem_cons.1 member with rfl | member
      · obtain ⟨⟨node, vault⟩, removed, done⟩ := removeNode_of_file settings wellFormed file
        have gone := (wellFormed.pruned (shell.isCanonical_resolve operand) removed).gone _
          List.mem_cons_self _ (List.prefix_refl _)
        refine pruned.bareAt?_eq_none ?_
        rw [done]
        exact gone
      · cases there : (removeNode settings shell first).1.vault.bareAt? (shell.resolve operand) with
        | none => exact pruned.bareAt?_eq_none there
        | some seen =>
            have before := (single.pruned wellFormed).bareAt?_eq_some there
            rw [← single.resolve_eq operand]
            refine ih (single.wellFormed wellFormed) member ?_
            rw [single.resolve_eq, ← file, Vault.kindAt?, Vault.kindAt?, Node.kindAt?_eq,
              Node.kindAt?_eq, before]
            exact congrArg _ there

/-- **Operands that lead nowhere may be left out**, or any of them, without a difference to the state or
to the report. -/
theorem eachOperand_removeOperand_filter (settings : RemoveSettings) (wellFormed : shell.vault.WellFormed)
    {kept : String → Bool}
    (nowhere : ∀ operand ∈ operands, kept operand = false →
      shell.vault.bareAt? (shell.resolve operand) = none) :
    shell.eachOperand (removeOperand settings) (operands.filter kept) =
      shell.eachOperand (removeOperand settings) operands := by
  induction operands generalizing shell with
  | nil => rfl
  | cons first rest ih =>
      cases keep : kept first with
      | false =>
          have missing := nowhere first List.mem_cons_self keep
          have passed := removeOperand_of_find?_eq_none settings
            (Node.bareAt?_eq_none_iff.1 missing)
          rw [List.filter_cons_of_neg (by simp [keep]), eachOperand, passed]
          exact ih wellFormed fun operand member => nowhere operand (List.mem_cons_of_mem first member)
      | true =>
          obtain ⟨paths, single⟩ := exists_removals_operand settings shell first
          have later : (removeOperand settings shell first).1.eachOperand (removeOperand settings)
                (rest.filter kept) =
              (removeOperand settings shell first).1.eachOperand (removeOperand settings) rest := by
            rw [removeOperand_fst]
            refine ih (single.wellFormed wellFormed) ?_
            intro operand member dropped
            rw [single.resolve_eq]
            exact (single.pruned wellFormed).bareAt?_eq_none
              (nowhere operand (List.mem_cons_of_mem first member) dropped)
          rw [List.filter_cons_of_pos keep]
          simp only [eachOperand, later]

/-- **The report, read off the log.** -/
theorem eachOperand_removeOperand_snd (settings : RemoveSettings) (shell : Shell)
    (operands : List String) :
    (shell.eachOperand (removeOperand settings) operands).2 =
      (shell.removalLog settings operands).flatMap fun entry =>
        reportOf (fun removed =>
          if removed && settings.verbose then [s!"removed '{entry.1}'"] else []) entry.2 := by
  induction operands generalizing shell with
  | nil => rfl
  | cons operand rest ih =>
      rw [removalLog, List.flatMap_cons, ← ih]
      rfl

/-- **Unless a flag asks for whole trees, what is missing was taken by itself**, for an operand that named
it, and a directory only because it was asked for. -/
theorem taken_of_missing (wellFormed : shell.vault.WellFormed) (single : settings.recursive = false)
    (there : shell.vault.has path = true)
    (missing : (shell.afterRemovals settings operands).vault.kindAt? path = none) :
    (∃ operand, (operand, .ok true) ∈ shell.removalLog settings operands ∧ shell.Names operand path) ∧
      (shell.vault.kindAt? path = some .directory → settings.emptyDirectories = true) := by
  obtain ⟨paths, removals⟩ := exists_removals_taken settings shell operands
  obtain ⟨seen, found⟩ := Vault.has_eq_true_iff.1 there
  obtain ⟨place, same, allowed⟩ := removals.may_of_missing wellFormed
    (fun _ _ allowed => allowed.childless single) found (Node.kindAt?_eq_none_iff.1 missing)
  obtain ⟨operand, logged, rfl⟩ := allowed.named
  refine ⟨⟨operand, logged, same⟩, ?_⟩
  intro directory
  refine allowed.wanted single ?_
  rw [Vault.kindAt?, Node.kindAt?_eq, ← Vault.bareAt?, found] at directory
  simpa [Node.isDirectory] using directory

/-- **What is left when all operands have had their turn.** -/
theorem removesNamed_afterRemovals (wellFormed : shell.vault.WellFormed)
    (canonical : Path.IsCanonical shell.cwd) (settings : RemoveSettings) (operands : List String) :
    RemovesNamed settings operands shell (shell.afterRemovals settings operands) := by
  obtain ⟨paths, removals⟩ := exists_removals_taken settings shell operands
  have pruned := removals.pruned wellFormed
  refine
    { outside := ?_
      old := fun path seen there => pruned.bareAt?_eq_some there
      directory := removals.hasDirectory canonical
      files := ?_
      directories := ?_
      state_eq := removals.state_eq }
  · intro path outside
    refine pruned.kept _ fun place member => ?_
    obtain ⟨node, allowed, -⟩ := removals.bareAt?_of_mem wellFormed member
    obtain ⟨operand, logged, rfl⟩ := allowed.named
    exact outside operand (mem_of_mem_removalLog logged)
  · intro single path file
    constructor
    · intro missing
      obtain ⟨⟨operand, logged, names⟩, -⟩ :=
        taken_of_missing wellFormed single (Vault.has_of_kindAt? file) missing
      exact ⟨operand, mem_of_mem_removalLog logged, names⟩
    · rintro ⟨operand, member, names⟩
      have file : shell.vault.kindAt? (shell.resolve operand) = some .file := by
        rw [← file, Vault.kindAt?, Vault.kindAt?, names]
      have gone := bareAt?_afterRemovals_of_file settings wellFormed member file
      rw [Vault.bareAt?, names] at gone
      exact Node.kindAt?_eq_none_iff.2 gone
  · intro single path directory missing
    obtain ⟨⟨operand, logged, names⟩, wanted⟩ :=
      taken_of_missing wellFormed single (Vault.has_of_kindAt? directory) missing
    refine ⟨wanted directory, ⟨operand, mem_of_mem_removalLog logged, names⟩, ?_⟩
    intro inner within there
    have gone := Vault.kindAt?_eq_none_of_within missing within
    exact (taken_of_missing wellFormed single there gone).1

/-! ## Lines -/

/-- **`rm` removes what was named, and nothing else.**  In a well-formed vault, with a canonical working
directory and for any arguments that name something and do not ask for help: operands that lead nowhere
have no part in it, neither in what is done nor in what is reported; what is left is what
`RemovesNamed` says; and if no operand failed, then nothing is reported unless it was asked for. -/
theorem remove_takes_named (wellFormed : shell.vault.WellFormed)
    (canonical : Path.IsCanonical shell.cwd) {arguments : List String}
    (noHelp : helpFlag ∉ arguments) (given : operandsOf arguments ≠ []) :
    let settings := removeSettings arguments
    let operands := operandsOf arguments
    let carried := shell.eachOperand (removeOperand settings)
      (operands.filter fun operand => shell.vault.has (shell.resolve operand))
    shell.remove arguments = (carried.1, .ok (Text.joinLines carried.2)) ∧
    RemovesNamed settings operands shell (shell.remove arguments).1 ∧
    (settings.verbose = false →
      (∀ entry ∈ shell.removalLog settings operands, ∃ removed, entry.2 = .ok removed) →
      (shell.remove arguments).2 = .ok "") := by
  intro settings operands carried
  have carried_eq : carried = shell.eachOperand (removeOperand settings) operands := by
    refine eachOperand_removeOperand_filter settings wellFormed ?_
    intro operand _ missing
    exact Vault.has_eq_false_iff.1 missing
  have outcome : shell.remove arguments = (carried.1, .ok (Text.joinLines carried.2)) := by
    rw [carried_eq, remove, if_neg noHelp]
    cases list : operandsOf arguments with
    | nil => exact absurd list given
    | cons first rest => simp only [operands, list, settings]
  refine ⟨outcome, ?_, ?_⟩
  · rw [outcome, carried_eq]
    exact removesNamed_afterRemovals wellFormed canonical settings operands
  · intro quiet fine
    have silent : carried.2 = [] := by
      rw [carried_eq, eachOperand_removeOperand_snd, List.flatMap_eq_nil_iff]
      intro entry logged
      obtain ⟨removed, result⟩ := fine entry logged
      simp [result, reportOf, quiet]
    rw [outcome, silent]
    rfl

/-- A file and a directory that holds nothing else, the directory after its file. -/
theorem remove_takes_named_directory :
    let shell := Settings.standard.start.afterAll .standard ["mkdir d", "touch d/f"]
    let after := (shell.remove ["-d", "d/f", "ghost", "d"]).1
    shell.vault.kindAt? "/d" = some .directory ∧ after.vault.kindAt? "/d" = none ∧
      ∃ operand, (operand, .ok true) ∈
          shell.removalLog (removeSettings ["-d", "d/f", "ghost", "d"]) ["d/f", "ghost", "d"] ∧
        shell.Names operand "/d/f" := by
  intro shell after
  have wellFormed : shell.vault.WellFormed := wellFormed_afterAll _ _
  have directory : shell.vault.kindAt? "/d" = some .directory := by decide +kernel
  have missing : after.vault.kindAt? "/d" = none := by decide +kernel
  have noHelp : helpFlag ∉ ["-d", "d/f", "ghost", "d"] := by decide
  obtain ⟨-, left, -⟩ := remove_takes_named wellFormed (by decide +kernel) noHelp (by decide)
  obtain ⟨-, -, beneath⟩ := left.directories (by decide) "/d" directory missing
  exact ⟨directory, missing, beneath "/d/f" (by decide +kernel) (by decide +kernel)⟩

end Shell

end VaultShell
