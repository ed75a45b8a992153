import VaultShell.Proofs.Shell.Confinement
import VaultShell.Proofs.Shell.WorkingDirectory
import VaultShell.Router.Settings

/-!
# Copying over the working directory

`cp -r` puts a directory in the place of another one without a look at the working directory.  If the
place is the working directory or lies above it, then what the tree holds there afterwards is what
was copied, and the working directory is still there only if the copy has it too.

With several sources this may happen several times in one line, and a later copy may bring back what
an earlier one took.  All of them take the same place, since only one name beneath the destination is
on the way to the working directory.  So the last one decides.

## Main definitions

* `Shell.Overwrites`: a copy takes the place of a directory that leads to the working directory
* `Shell.LosesDirectory`: a line after which the working directory is missing

## Main statements

* `Shell.hasDirectory_after_iff`: a line takes the working directory away if and only if it is such
  a copy
* `Shell.hasDirectory_afterAll_iff`: the same for any run of lines
-/

namespace VaultShell

namespace Shell

/-- **A copy takes the place of a directory that leads to the working directory.**  The source is a
directory `node`, and directories may be copied; its `name` beneath the destination is on the way to
the working directory, with the names `inside` still to go; and the source does not hold that place
itself. -/
structure Overwrites (settings : CopySettings) (shell : Shell) (source destination name : String)
    (node : Node) (inside : List String) : Prop where
  recursive : settings.recursive = true
  found : shell.vault.find? (shell.resolve source) = some node
  isDirectory : node.isDirectory = true
  split_eq : ∃ parent, Path.split (shell.resolve source) = .ok (parent, name)
  way : Path.components shell.cwd =
    Path.components (shell.resolve destination) ++ name :: inside
  apart : Path.isUnder (Path.join (shell.resolve destination) name) (shell.resolve source) = false

/-- The state when the first sources of a line have been copied. -/
def afterCopies (settings : CopySettings) (destination : String) (shell : Shell)
    (sources : List String) : Shell :=
  (shell.eachOperand (fun shell source => copyOperand settings shell source destination) sources).1

section Copies

variable {shell : Shell} {settings : CopySettings} {source destination name : String} {node : Node}
  {inside : List String}

/-- Copying does not move the working directory. -/
@[simp] theorem copyOperand_cwd (settings : CopySettings) (shell : Shell)
    (source destination : String) :
    (copyOperand settings shell source destination).1.cwd = shell.cwd :=
  (copyOperand_vaultOnly settings shell source destination).cwd

/-- What a copy that goes through does, where the destination is a directory. -/
theorem copyOperand_eq_of_overwrites
    (there : shell.vault.isDirectory (shell.resolve destination) = true)
    (overwrites : Overwrites settings shell source destination name node inside) :
    ∃ vault, shell.vault.place (Path.join (shell.resolve destination) name)
        (node.stamp shell.clock) = .ok vault ∧
      (copyOperand settings shell source destination).1 = shell.withVault vault := by
  obtain ⟨parent, hsplit⟩ := overwrites.split_eq
  have canonical := shell.isCanonical_resolve destination
  obtain ⟨-, -, hjoin⟩ := Path.join_eq canonical (Path.isName_of_split hsplit)
  have different : Path.join (shell.resolve destination) name ≠ shell.resolve source := by
    intro same
    have apart := overwrites.apart
    rw [same, Path.isUnder_self] at apart
    cases apart
  have may : MayCopy settings.recursive shell source destination
      (Path.join (shell.resolve destination) name) node :=
    { found := overwrites.found
      allowed := fun _ => overwrites.recursive
      target_eq := targetOf_of_isDirectory there hsplit
      unrefused := by simp [copyRefusal?, different, overwrites.isDirectory, overwrites.apart]
      held := ⟨_, _, hjoin, there⟩ }
  obtain ⟨vault, placed⟩ := may.exists_place
  refine ⟨vault, placed, ?_⟩
  rw [copyOperand_fst, (copyNode_outcome _ shell source destination).granted _ _ (.placed may placed)]

/-- **After such a copy the working directory is there if the copy has it.** -/
theorem Overwrites.hasDirectory_iff
    (there : shell.vault.isDirectory (shell.resolve destination) = true)
    (overwrites : Overwrites settings shell source destination name node inside) :
    (copyOperand settings shell source destination).1.HasDirectory ↔
      node.isDirectoryAt inside = true := by
  obtain ⟨parent, hsplit⟩ := overwrites.split_eq
  have canonical := shell.isCanonical_resolve destination
  obtain ⟨htarget, hnames, -⟩ := Path.join_eq canonical (Path.isName_of_split hsplit)
  obtain ⟨vault, placed, h⟩ := copyOperand_eq_of_overwrites there overwrites
  have way : Path.components shell.cwd =
      Path.canonicalComponents (Path.join (shell.resolve destination) name) ++ inside := by
    rw [← Path.components_eq_canonicalComponents htarget, hnames, overwrites.way]
    simp
  rw [h]
  show vault.root.isDirectoryAt (Path.components shell.cwd) = true ↔ _
  rw [way, Vault.isDirectoryAt_of_place placed]
  exact Iff.of_eq (congrArg (· = true) (Node.isDirectoryAt_mapAttributes _ node inside))

/-- **Every other copy into a directory leaves the working directory as it is**, there or missing. -/
theorem hasDirectory_copyOperand_iff
    (there : shell.vault.isDirectory (shell.resolve destination) = true)
    (spares : ∀ name node inside, ¬ Overwrites settings shell source destination name node inside) :
    (copyOperand settings shell source destination).1.HasDirectory ↔ shell.HasDirectory := by
  rw [copyOperand_fst]
  rcases (copyNode_outcome settings.recursive shell source destination).cases with
    ⟨vault, _, @⟨node, target, _, may, placed⟩, h⟩ | ⟨_, -, h⟩
  · obtain ⟨-, hdirectory, hfile⟩ := copyRefusal?_eq_none_iff.1 may.unrefused
    obtain ⟨same, -⟩ := Vault.place_eq_ok placed
    rw [h]
    show vault.root.isDirectoryAt (Path.components shell.cwd) = true ↔
      shell.vault.root.isDirectoryAt (Path.components shell.cwd) = true
    by_cases begins : Path.canonicalComponents target <+: Path.components shell.cwd
    · -- The place is on the way, so only a file can have come there, and no directory was there.
      obtain ⟨parent, name, hsplit, rfl⟩ := targetOf_eq_ok there may.target_eq
      obtain ⟨canonical, hnames, -⟩ :=
        Path.join_eq (shell.isCanonical_resolve destination) (Path.isName_of_split hsplit)
      obtain ⟨inside, way⟩ := begins
      have file : node.isDirectory = false := by
        by_contra hnot
        have directory : node.isDirectory = true := by simpa using hnot
        refine spares name node inside
          ⟨may.allowed directory, may.found, directory, ⟨parent, hsplit⟩, ?_, hdirectory directory⟩
        rw [← way, ← Path.components_eq_canonicalComponents canonical, hnames]
        simp
      have before : shell.vault.root.isDirectoryAt (Path.components shell.cwd) ≠ true := by
        intro h
        have held : shell.HasDirectory := h
        exact held.outside canonical (hfile file) ⟨inside, way⟩
      have afterwards : vault.root.isDirectoryAt (Path.components shell.cwd) ≠ true := by
        rw [← way, Vault.isDirectoryAt_of_place placed, Node.stamp,
          Node.isDirectoryAt_mapAttributes]
        intro h
        have above := Node.isDirectoryAt_of_prefix h List.nil_prefix
        exact absurd above (Bool.eq_false_iff.1 file)
      exact iff_of_false afterwards before
    · rw [same.isDirectoryAt begins]
  · rw [h]

/-- A copy to a place where no directory is cannot take the working directory away. -/
theorem HasDirectory.copyOperand (h : shell.HasDirectory)
    (gone : shell.vault.isDirectory (shell.resolve destination) = false) :
    (Shell.copyOperand settings shell source destination).1.HasDirectory := by
  rw [copyOperand_fst]
  refine (copyNode_outcome settings.recursive shell source destination).fst h ?_
  rintro vault _ (@⟨node, target, _, may, placed⟩)
  obtain ⟨same, -⟩ := Vault.place_eq_ok placed
  have htarget : shell.resolve destination = target := by
    simpa [targetOf, gone] using may.target_eq
  subst htarget
  have outside := h.outside (shell.isCanonical_resolve destination) gone
  exact (same.isDirectoryAt outside).trans h

/-- The destination stays a directory whatever is copied into it. -/
theorem isDirectory_destination_copyOperand (settings : CopySettings) (source : String)
    (there : shell.vault.isDirectory (shell.resolve destination) = true) :
    (copyOperand settings shell source destination).1.vault.isDirectory
      (shell.resolve destination) = true := by
  let Stays := fun after : Shell => after.vault.isDirectory (shell.resolve destination) = true
  show Stays (copyOperand settings shell source destination).1
  rw [copyOperand_fst]
  refine (copyNode_outcome settings.recursive shell source destination).fst there ?_
  rintro vault _ ⟨may, placed⟩
  obtain ⟨same, -⟩ := Vault.place_eq_ok placed
  obtain ⟨parent, name, hsplit, rfl⟩ := targetOf_eq_ok there may.target_eq
  exact (same.isDirectoryAt (not_prefix_destination hsplit)).trans there

/-! ## All sources of a line -/

/-- **The last copy that takes the place of a directory on the way to the working directory leaves a
gap**: of the sources of a line, one overwrites with a directory that does not have what is still to
go, and none after it overwrites again. -/
def LosesBy (settings : CopySettings) (shell : Shell) (sources : List String)
    (destination : String) : Prop :=
  ∃ before source rest name node inside,
    sources = before ++ source :: rest ∧
    Overwrites settings (shell.afterCopies settings destination before) source destination name node
      inside ∧
    node.isDirectoryAt inside = false ∧
    ∀ more last others, rest = more ++ last :: others →
      ∀ name node inside, ¬ Overwrites settings
        (shell.afterCopies settings destination (before ++ source :: more)) last destination name node
        inside

variable {sources : List String}

theorem afterCopies_append_singleton (settings : CopySettings) (destination : String) (shell : Shell)
    (sources : List String) (last : String) :
    shell.afterCopies settings destination (sources ++ [last]) =
      (copyOperand settings (shell.afterCopies settings destination sources) last destination).1 := by
  unfold afterCopies
  rw [eachOperand_append_singleton]

@[simp] theorem afterCopies_cwd (settings : CopySettings) (destination : String) (shell : Shell)
    (sources : List String) : (shell.afterCopies settings destination sources).cwd = shell.cwd := by
  induction sources using List.reverseRecOn with
  | nil => rfl
  | append_singleton sources last ih => rw [afterCopies_append_singleton, copyOperand_cwd, ih]

theorem afterCopies_resolve (settings : CopySettings) (destination : String) (shell : Shell)
    (sources : List String) (operand : String) :
    (shell.afterCopies settings destination sources).resolve operand = shell.resolve operand := by
  unfold resolve
  rw [afterCopies_cwd]

theorem isDirectory_destination_afterCopies (settings : CopySettings)
    (there : shell.vault.isDirectory (shell.resolve destination) = true) (sources : List String) :
    (shell.afterCopies settings destination sources).vault.isDirectory
      ((shell.afterCopies settings destination sources).resolve destination) = true := by
  induction sources using List.reverseRecOn with
  | nil => exact there
  | append_singleton sources last ih =>
      have kept := isDirectory_destination_copyOperand settings last ih
      rw [afterCopies_resolve] at kept ⊢
      rw [afterCopies_append_singleton]
      exact kept

/-- One more source loses the working directory if it overwrites with a directory that leaves a gap,
or if it does not overwrite and the sources before it lose it. -/
theorem losesBy_append_singleton (settings : CopySettings) (shell : Shell) (sources : List String)
    (last destination : String) :
    shell.LosesBy settings (sources ++ [last]) destination ↔
      (∃ name node inside,
        Overwrites settings (shell.afterCopies settings destination sources) last destination name node
          inside ∧
        node.isDirectoryAt inside = false) ∨
      ((∀ name node inside, ¬ Overwrites settings (shell.afterCopies settings destination sources)
          last destination name node inside) ∧
        shell.LosesBy settings sources destination) := by
  constructor
  · rintro ⟨before, source, rest, name, node, inside, hsources, overwrites, gap, spares⟩
    -- Either the copy that loses it is the last one, or the last one comes after it.
    rcases List.eq_nil_or_concat' rest with rfl | ⟨others, final, rfl⟩
    · obtain ⟨rfl, hlast⟩ := List.append_inj' hsources rfl
      obtain rfl : last = source := by simpa using hlast
      exact Or.inl ⟨name, node, inside, overwrites, gap⟩
    · have hparts : sources ++ [last] = (before ++ source :: others) ++ [final] := by
        simpa using hsources
      obtain ⟨rfl, hlast⟩ := List.append_inj' hparts rfl
      obtain rfl : last = final := by simpa using hlast
      refine Or.inr ⟨spares others last [] rfl, before, source, others, name, node, inside, rfl,
        overwrites, gap, ?_⟩
      intro more later others' hothers
      exact spares more later (others' ++ [last]) (by rw [hothers]; simp)
  · rintro (⟨name, node, inside, overwrites, gap⟩ |
      ⟨spares, before, source, rest, name, node, inside, rfl, overwrites, gap, sparesBefore⟩)
    · refine ⟨sources, last, [], name, node, inside, rfl, overwrites, gap, ?_⟩
      intro more later others hnil
      simp at hnil
    · refine ⟨before, source, rest ++ [last], name, node, inside, by simp, overwrites, gap, ?_⟩
      intro more later others hrest
      rcases List.eq_nil_or_concat' others with rfl | ⟨front, final, rfl⟩
      · obtain ⟨rfl, hlast⟩ := List.append_inj' hrest rfl
        obtain rfl : last = later := by simpa using hlast
        exact spares
      · have hparts : rest ++ [last] = (more ++ later :: front) ++ [final] := by
          simpa using hrest
        obtain ⟨rfl, -⟩ := List.append_inj' hparts rfl
        exact sparesBefore more later front rfl

/-- **Copying into a directory loses the working directory exactly by the last copy that overwrites
it.**  The induction takes the sources from the last one back. -/
theorem hasDirectory_afterCopies_iff
    (there : shell.vault.isDirectory (shell.resolve destination) = true) (h : shell.HasDirectory)
    (sources : List String) :
    (shell.afterCopies settings destination sources).HasDirectory ↔
      ¬ shell.LosesBy settings sources destination := by
  induction sources using List.reverseRecOn with
  | nil =>
      refine iff_of_true h ?_
      rintro ⟨before, source, rest, _, _, _, hnil, -⟩
      simp at hnil
  | append_singleton sources last ih =>
      have held := isDirectory_destination_afterCopies settings there sources
      rw [afterCopies_append_singleton, losesBy_append_singleton]
      by_cases overwrites : ∃ name node inside,
          Overwrites settings (shell.afterCopies settings destination sources) last destination name
            node inside
      · obtain ⟨name, node, inside, overwrites⟩ := overwrites
        rw [overwrites.hasDirectory_iff held]
        constructor
        -- A copy can be read as overwriting in one way only, as far as the outcome is concerned.
        · rintro brought (⟨name', node', inside', overwrites', gap⟩ | ⟨spares, -⟩)
          · have key := (overwrites'.hasDirectory_iff held).not.2 (by simp [gap])
            exact key ((overwrites.hasDirectory_iff held).2 brought)
          · exact spares name node inside overwrites
        · intro kept
          by_contra gap
          exact kept (Or.inl ⟨name, node, inside, overwrites, by simpa using gap⟩)
      · have spares : ∀ name node inside, ¬ Overwrites settings
            (shell.afterCopies settings destination sources) last destination name node inside := by
          intro name node inside hoverwrites
          exact overwrites ⟨name, node, inside, hoverwrites⟩
        rw [hasDirectory_copyOperand_iff held spares, ih]
        constructor
        · rintro kept (⟨name, node, inside, hoverwrites, -⟩ | ⟨-, loses⟩)
          · exact spares name node inside hoverwrites
          · exact kept loses
        · intro kept loses
          exact kept (Or.inr ⟨spares, loses⟩)

end Copies

/-! ## Lines -/

/-- What the arguments of `cp` ask for, unless they are refused or ask for help: the settings, the
sources and the destination. -/
def copyParts? (arguments : List String) : Option (CopySettings × List String × String) :=
  if helpFlag ∉ arguments ∧ firstUnknown? copyFlags arguments = none then
    (sourcesAndDestination? (operandsOf arguments)).map fun parts => (copySettings arguments, parts)
  else none

/-- What a line asks to be copied, if it is a line of `cp`. -/
def copyLine? (input : String) : Option (CopySettings × List String × String) :=
  match CommandLine.parse? input with
  | none => none
  | some line => if line.name = Command.cp.name then copyParts? line.arguments else none

/-- **A line after which the working directory is missing.**  It copies into a directory, and the
last copy that takes the place of a directory on the way to the working directory leaves a gap. -/
def LosesDirectory (shell : Shell) (input : String) : Prop :=
  ∃ settings sources destination, copyLine? input = some (settings, sources, destination) ∧
    shell.vault.isDirectory (shell.resolve destination) = true ∧
    shell.tick.LosesBy settings sources destination

variable {shell : Shell} {input : String}

/-- What `cp` does to the state. -/
theorem copy_fst (shell : Shell) (arguments : List String) :
    (shell.copy arguments).1 =
      match copyParts? arguments with
      | none => shell
      | some (settings, sources, destination) =>
        if 1 < sources.length ∧ !shell.vault.isDirectory (shell.resolve destination) then shell
        else shell.afterCopies settings destination sources := by
  unfold copy copyParts?
  split
  case isTrue help => simp [help]
  case isFalse noHelp =>
    cases known : firstUnknown? copyFlags arguments with
    | some flag => simp [noHelp]
    | none =>
        simp only [noHelp, not_false_eq_true, and_self, if_true, transferAll]
        cases sourcesAndDestination? (operandsOf arguments) with
        | none => rfl
        | some parts =>
            obtain ⟨sources, destination⟩ := parts
            simp only [Option.map_some]
            split
            · rfl
            · rfl

/-- What a line that copies does to the state. -/
theorem after_of_copyLine? {settings : CopySettings} {sources : List String} {destination : String}
    (h : copyLine? input = some (settings, sources, destination)) :
    shell.after .standard input =
      if 1 < sources.length ∧ !shell.vault.isDirectory (shell.resolve destination) then shell.tick
      else shell.tick.afterCopies settings destination sources := by
  unfold copyLine? at h
  split at h
  · cases h
  case h_2 line parsed =>
    obtain ⟨raw, name, arguments⟩ := line
    split at h
    case isFalse => cases h
    case isTrue named =>
      obtain rfl : name = Command.cp.name := named
      unfold after
      rw [run_command parsed rfl shell ""]
      show (shell.tick.copy arguments).1 = _
      rw [copy_fst, h]
      rfl

/-- A line that copies nothing leaves the working directory there. -/
theorem hasDirectory_after_of_copyLine?_eq_none (typed : shell.Typed) (h : shell.HasDirectory)
    (noCopy : copyLine? input = none) : (shell.after .standard input).HasDirectory := by
  rcases after_cases shell input with heq | ⟨raw, command, arguments, parsed, -, heq⟩
  · rw [heq]
    exact h
  · rw [heq]
    by_cases other : command = .cp
    · obtain rfl := other
      have noParts : copyParts? arguments = none := by
        simpa [copyLine?, parsed] using noCopy
      show (shell.tick.copy arguments).1.HasDirectory
      rw [copy_fst, noParts]
      exact h.tick
    · exact hasDirectory_execute typed.tick h.tick other ""
        fun a ha => CommandLine.blankless_of_mem_arguments parsed ha

/-- **A line takes the working directory away if and only if it is such a copy.** -/
theorem hasDirectory_after_iff (typed : shell.Typed) (h : shell.HasDirectory) (input : String) :
    (shell.after .standard input).HasDirectory ↔ ¬ shell.LosesDirectory input := by
  cases hline : copyLine? input with
  | none =>
      refine iff_of_true (hasDirectory_after_of_copyLine?_eq_none typed h hline) ?_
      rintro ⟨settings, sources, destination, hcopy, -⟩
      rw [hline] at hcopy
      cases hcopy
  | some parts =>
      obtain ⟨settings, sources, destination⟩ := parts
      rw [after_of_copyLine? hline]
      cases there : shell.vault.isDirectory (shell.resolve destination) with
      | true =>
          have held : shell.tick.vault.isDirectory (shell.tick.resolve destination) = true := there
          rw [if_neg (by simp), hasDirectory_afterCopies_iff held h.tick sources]
          refine not_congr ⟨fun loses => ⟨settings, sources, destination, hline, there, loses⟩, ?_⟩
          rintro ⟨settings', sources', destination', hcopy, -, loses⟩
          rw [hline] at hcopy
          obtain ⟨rfl, rfl, rfl⟩ := hcopy
          exact loses
      | false =>
          have noLoss : ¬ shell.LosesDirectory input := by
            rintro ⟨settings', sources', destination', hcopy, held, -⟩
            rw [hline] at hcopy
            obtain ⟨rfl, rfl, rfl⟩ := hcopy
            rw [there] at held
            cases held
          refine iff_of_true ?_ noLoss
          split
          · exact h.tick
          case isFalse few =>
            -- Without a directory to copy into, there is one source at the most.
            match sources, few with
            | [], _ => exact h.tick
            | [source], _ =>
                have single := afterCopies_append_singleton settings destination shell.tick [] source
                rw [List.nil_append] at single
                rw [single]
                exact h.tick.copyOperand there
            | _ :: _ :: _, few => simp at few

/-! ## Runs of lines -/

theorem hasDirectory_start (settings : Settings) : settings.start.HasDirectory :=
  hasDirectory_fresh settings.identity settings.epochOrOrigin

theorem typed_start (settings : Settings) : settings.start.Typed :=
  typed_fresh settings.identity settings.epochOrOrigin

/-- **The working directory exists after every line of a run, unless some line of it is a copy that
takes it away.**  Under any settings and for any lines, the two sides are equivalent; the commands
that remove, move and go elsewhere have no part in it. -/
theorem hasDirectory_afterAll_iff (settings : Settings) (lines : List String) :
    (∀ before, before <+: lines → (settings.start.afterAll .standard before).HasDirectory) ↔
      ∀ before line, before ++ [line] <+: lines →
        ¬ (settings.start.afterAll .standard before).LosesDirectory line := by
  have typed : ∀ before, (settings.start.afterAll .standard before).Typed :=
    fun before => afterAll_typed (typed_start settings) before
  have step : ∀ before line, settings.start.afterAll .standard (before ++ [line]) =
      (settings.start.afterAll .standard before).after .standard line :=
    fun before line => afterAll_append .standard settings.start before [line]
  constructor
  · intro h before line begins
    have earlier := h before ((List.prefix_append before [line]).trans begins)
    rw [← hasDirectory_after_iff (typed before) earlier, ← step]
    exact h (before ++ [line]) begins
  · intro h before
    induction before using List.reverseRecOn with
    | nil => exact fun _ => hasDirectory_start settings
    | append_singleton before line ih =>
        intro begins
        have earlier := ih ((List.prefix_append before [line]).trans begins)
        rw [step, hasDirectory_after_iff (typed before) earlier]
        exact h before line begins

/-- A directory of the same name, copied over the one that the shell works in. -/
theorem not_hasDirectory_after_copy :
    ¬ (Settings.standard.start.afterAll .standard
      ["mkdir -p x/vault/sub", "cd x/vault/sub", "cp -r /vault /x"]).HasDirectory := by
  decide +kernel

end Shell

end VaultShell
