import VaultShell.Proofs.Shell.Outcomes
import VaultShell.Shell.Transfer

/-!
# What comes of a transfer

`cp` and `mv` ask where a node goes, whether it may go there, and then for the change itself.  A transfer
is granted or refused like any other request, and neither the grant nor the refusal depends on how the two
operands were spelt.

A move takes two steps, and the second one might be refused when the first one has been made.  It never
is: the checks before the first step are made on the vault with the node in it, and what they find out
about the target is still true without the node, because neither the target nor the directory that
holds it lies in what was taken out.  That the target lies outside is checked for directories only.  For
a file it follows from the other checks, since nothing lies beneath a file and the directory of the
target is none.

## Main definitions

* `Shell.MayCopy`, `Shell.MayMove`: the checks before a node is copied or moved
* `Shell.CopyGrant`, `Shell.MoveGrant`: what is granted

## Main statements

* `Shell.MayMove.exists_place`: once a node is taken out, putting it in cannot fail
* `Shell.CopyGrant.respelt`, `Shell.MoveGrant.respelt`: other spellings of the two operands
* `Shell.copyNode_outcome`, `Shell.moveNode_outcome`: what comes of each request
* `Shell.copy_walk`, `Shell.move_walk`: the commands
-/

namespace VaultShell

namespace Shell

variable {shell : Shell}
  {source source' destination destination' origin target : String} {node : Node}

/-! ## Where a transfer goes -/

theorem targetOf_congr (same : shell.resolve destination = shell.resolve destination')
    (origin : String) :
    shell.targetOf origin destination = shell.targetOf origin destination' := by
  simp only [targetOf, same]

/-- A directory receives a node under the node's own name. -/
theorem targetOf_of_isDirectory {parent name : String}
    (there : shell.vault.isDirectory (shell.resolve destination) = true)
    (hsplit : Path.split origin = .ok (parent, name)) :
    shell.targetOf origin destination = .ok (Path.join (shell.resolve destination) name) := by
  simp only [targetOf, there, hsplit, if_true]

theorem targetOf_eq_ok (there : shell.vault.isDirectory (shell.resolve destination) = true)
    (h : shell.targetOf origin destination = .ok target) :
    ∃ parent name, Path.split origin = .ok (parent, name) ∧
      target = Path.join (shell.resolve destination) name := by
  simp only [targetOf, there, if_true] at h
  split at h
  · cases h
  case h_2 parent name hsplit => exact ⟨parent, name, hsplit, (Except.ok.inj h).symm⟩

/-- What receives a node is named canonically. -/
theorem isCanonical_targetOf (h : shell.targetOf origin destination = .ok target) :
    Path.IsCanonical target := by
  have canonical := shell.isCanonical_resolve destination
  by_cases there : shell.vault.isDirectory (shell.resolve destination) = true
  · obtain ⟨parent, name, hsplit, rfl⟩ := targetOf_eq_ok there h
    exact (Path.join_eq canonical (Path.isName_of_split hsplit)).1
  · rw [targetOf, if_neg there] at h
    obtain rfl := Except.ok.inj h
    exact canonical

/-- A place beneath a destination is not on the way to it. -/
theorem not_prefix_destination {parent name : String} (hsplit : Path.split origin = .ok (parent, name)) :
    ¬ Path.canonicalComponents (Path.join (shell.resolve destination) name) <+:
      Path.components (shell.resolve destination) := by
  obtain ⟨canonical, hnames, -⟩ :=
    Path.join_eq (shell.isCanonical_resolve destination) (Path.isName_of_split hsplit)
  rw [← Path.components_eq_canonicalComponents canonical, hnames]
  intro begins
  have shorter := begins.length_le
  rw [List.length_append, List.length_singleton] at shorter
  omega

/-! ## Copying -/

/-- **When a copy is not refused.**  The spellings of the two operands have no part in it. -/
theorem copyRefusal?_eq_none_iff :
    shell.copyRefusal? source destination origin target node = none ↔
      target ≠ origin ∧ (node.isDirectory = true → Path.isUnder target origin = false) ∧
        (node.isDirectory = false → shell.vault.isDirectory target = false) := by
  unfold copyRefusal?
  by_cases same : target = origin
  · simp [same]
  · cases node.isDirectory <;> simp [same]

theorem refuses_of_copyRefusal? {failure : Failure}
    (h : shell.copyRefusal? source destination origin target node = some failure) {α : Type} :
    Refuses "cp: " (.error failure : Except Failure α) := by
  have same : Begins "cp: " "cp: '" := by decide
  have into : Begins "cp: " "cp: cannot copy a directory, '" := by decide
  have overwriting : Begins "cp: " "cp: cannot overwrite directory '" := by decide
  unfold copyRefusal? at h
  split at h
  · obtain rfl := Option.some.inj h
    exact refuses_usage ((((same.append _).append _).append _).append _)
  · split at h
    · obtain rfl := Option.some.inj h
      exact refuses_usage ((((into.append _).append _).append _).append _)
    · split at h
      · obtain rfl := Option.some.inj h
        exact refuses_usage ((overwriting.append _).append _)
      · cases h

/-- **What a copy asks for.**  The source is there, directories may be copied if it is one, it goes
somewhere, nothing stands against it there, and a directory holds the place. -/
structure MayCopy (recursive : Bool) (shell : Shell) (source destination target : String)
    (node : Node) : Prop where
  found : shell.vault.find? (shell.resolve source) = some node
  allowed : node.isDirectory = true → recursive = true
  target_eq : shell.targetOf (shell.resolve source) destination = .ok target
  unrefused : shell.copyRefusal? source destination (shell.resolve source) target node = none
  held : ∃ parent name, Path.split target = .ok (parent, name) ∧
    shell.vault.isDirectory parent = true

/-- **What `cp` is granted**: the node at the source is placed at the target, with the time of the
clock. -/
inductive CopyGrant (recursive : Bool) (shell : Shell) (source destination : String) :
    Vault → Except Failure String → Prop
  | placed {node : Node} {target : String} {vault : Vault}
      (may : MayCopy recursive shell source destination target node)
      (placed : shell.vault.place target (node.stamp shell.clock) = .ok vault) :
      CopyGrant recursive shell source destination vault (.ok target)

variable {recursive : Bool}

/-- Where a copy may be made, it can be made. -/
theorem MayCopy.exists_place (may : MayCopy recursive shell source destination target node) :
    ∃ vault, shell.vault.place target (node.stamp shell.clock) = .ok vault := by
  obtain ⟨parent, name, hsplit, held⟩ := may.held
  obtain ⟨-, hparent⟩ := Path.canonicalComponents_of_split hsplit
  refine Vault.exists_place hsplit ?_ _
  rw [← Path.components_eq_canonicalComponents hparent]
  exact held

theorem MayCopy.respelt (may : MayCopy recursive shell source destination target node)
    (sameSource : shell.resolve source = shell.resolve source')
    (sameDestination : shell.resolve destination = shell.resolve destination') :
    MayCopy recursive shell source' destination' target node where
  found := by rw [← sameSource, may.found]
  allowed := may.allowed
  target_eq := by rw [← sameSource, ← targetOf_congr sameDestination, may.target_eq]
  unrefused := by
    rw [copyRefusal?_eq_none_iff, ← sameSource]
    exact copyRefusal?_eq_none_iff.1 may.unrefused
  held := may.held

theorem CopyGrant.respelt {vault : Vault} {result : Except Failure String}
    (grant : CopyGrant recursive shell source destination vault result)
    (sameSource : shell.resolve source = shell.resolve source')
    (sameDestination : shell.resolve destination = shell.resolve destination') :
    CopyGrant recursive shell source' destination' vault result := by
  obtain ⟨may, placed⟩ := grant
  exact .placed (may.respelt sameSource sameDestination) placed

theorem copyNode_outcome (recursive : Bool) (shell : Shell) (source destination : String) :
    Outcome shell (CopyGrant recursive shell source destination) (Refuses "cp: ")
      (copyNode recursive shell source destination) where
  granted := by
    rintro vault _ (@⟨node, target, _, may, placed⟩)
    have unhindered : ¬ (node.isDirectory && !recursive) = true := by
      intro hindered
      rw [Bool.and_eq_true, Bool.not_eq_true'] at hindered
      rw [may.allowed hindered.1] at hindered
      exact Bool.noConfusion hindered.2
    simp only [copyNode, may.found, if_neg unhindered, may.target_eq, may.unrefused, placed]
  cases := by
    have stat : Begins "cp: " "cp: cannot stat '" := by decide
    have omitting : Begins "cp: " "cp: -r not specified; omitting directory '" := by decide
    have copying : Begins "cp: " "cp: cannot copy '" := by decide
    have creating : Begins "cp: " "cp: cannot create '" := by decide
    simp only [copyNode]
    split
    case h_1 => exact Or.inr ⟨_, refuses_fault ((stat.append _).append _) _, rfl⟩
    case h_2 node found =>
      split
      case isTrue => exact Or.inr ⟨_, refuses_usage ((omitting.append _).append _), rfl⟩
      case isFalse allowed =>
        split
        case h_1 => exact Or.inr ⟨_, refuses_fault ((copying.append _).append _) _, rfl⟩
        case h_2 target target_eq =>
          split
          case h_1 failure refused => exact Or.inr ⟨_, refuses_of_copyRefusal? refused, rfl⟩
          case h_2 unrefused =>
            split
            case h_1 => exact Or.inr ⟨_, refuses_fault ((creating.append _).append _) _, rfl⟩
            case h_2 vault placed =>
              obtain ⟨-, parent, name, hsplit, held, -⟩ := Vault.place_eq_ok placed
              obtain ⟨-, hparent⟩ := Path.canonicalComponents_of_split hsplit
              rw [← Path.components_eq_canonicalComponents hparent] at held
              have mayRecurse : node.isDirectory = true → recursive = true := by
                intro directory
                simpa [directory] using allowed
              exact Or.inl ⟨_, _, .placed
                ⟨found, mayRecurse, target_eq, unrefused, parent, name, hsplit, held⟩ placed, rfl⟩

/-- What is reported has no part in what is copied. -/
theorem copyOperand_fst (settings : CopySettings) (shell : Shell) (source destination : String) :
    (copyOperand settings shell source destination).1 =
      (copyNode settings.recursive shell source destination).1 := by
  unfold copyOperand
  generalize copyNode settings.recursive shell source destination = outcome
  rfl

theorem copyOperand_snd (settings : CopySettings) (shell : Shell) (source destination : String) :
    (copyOperand settings shell source destination).2 =
      reportOf (fun target => if settings.verbose then [s!"'{source}' -> '{target}'"] else [])
        (copyNode settings.recursive shell source destination).2 := by
  unfold copyOperand
  generalize copyNode settings.recursive shell source destination = outcome
  rfl

/-! ## Moving -/

/-- **When a move is not refused.**  The spellings of the two operands have no part in it. -/
theorem moveRefusal?_eq_none_iff :
    shell.moveRefusal? source destination origin target node = none ↔
      (node.isDirectory = true → Path.isUnder target origin = false) ∧
        shell.vault.isDirectory target = false ∧
        (shell.vault.has target = true → node.isDirectory = false) ∧
        ∃ parent name, Path.split target = .ok (parent, name) ∧
          shell.vault.isDirectory parent = true := by
  constructor
  · intro h
    unfold moveRefusal? at h
    split at h
    · cases h
    case isFalse apart =>
      split at h
      · cases h
      case isFalse free =>
        split at h
        · cases h
        case h_2 parent name hsplit =>
          split at h
          case isFalse => cases h
          case isTrue held =>
            simp only [Bool.or_eq_true, Bool.and_eq_true, not_or, not_and, Bool.not_eq_true] at free
            refine ⟨?_, free.1, free.2, parent, name, hsplit, held⟩
            intro directory
            simpa [directory] using apart
  · rintro ⟨apart, free, file, parent, name, hsplit, held⟩
    cases there : shell.vault.has target with
    | false =>
        cases directory : node.isDirectory with
        | false => simp [moveRefusal?, directory, free, there, hsplit, held]
        | true => simp [moveRefusal?, apart directory, free, there, hsplit, held]
    | true => simp [moveRefusal?, free, file there, hsplit, held]

theorem refuses_of_moveRefusal? {failure : Failure}
    (h : shell.moveRefusal? source destination origin target node = some failure) {α : Type} :
    Refuses "mv: " (.error failure : Except Failure α) := by
  have moving : Begins "mv: " "mv: cannot move '" := by decide
  have overwriting : Begins "mv: " "mv: cannot overwrite '" := by decide
  unfold moveRefusal? at h
  split at h
  · obtain rfl := Option.some.inj h
    exact refuses_usage ((((moving.append _).append _).append _).append _)
  · split at h
    · obtain rfl := Option.some.inj h
      exact refuses_fault ((overwriting.append _).append _) _
    · split at h
      · obtain rfl := Option.some.inj h
        exact refuses_fault ((moving.append _).append _) _
      · split at h
        · cases h
        · obtain rfl := Option.some.inj h
          exact refuses_fault ((((moving.append _).append _).append _).append _) _

/-- **All checks before a node is moved**: it is there, the working directory is not in it, it goes
somewhere else, and nothing stands against it at the target. -/
structure MayMove (shell : Shell) (source destination target : String) (node : Node) : Prop where
  found : shell.vault.find? (shell.resolve source) = some node
  idle : Path.isUnder shell.cwd (shell.resolve source) = false
  target_eq : shell.targetOf (shell.resolve source) destination = .ok target
  different : target ≠ shell.resolve source
  unrefused : shell.moveRefusal? source destination (shell.resolve source) target node = none

namespace MayMove

/-- **The target is not in what is moved.**  For a file it is the directory of the target that would
have to be a file. -/
theorem apart (may : MayMove shell source destination target node) :
    ¬ Path.Within target (shell.resolve source) := by
  have hsource := shell.isCanonical_resolve source
  have htarget := isCanonical_targetOf may.target_eq
  obtain ⟨outside, -, -, parent, name, hsplit, held⟩ := moveRefusal?_eq_none_iff.1 may.unrefused
  obtain ⟨hnames, hparent⟩ := Path.canonicalComponents_of_split hsplit
  rw [← Path.components_eq_canonicalComponents htarget,
    ← Path.components_eq_canonicalComponents hparent] at hnames
  intro within
  by_cases directory : node.isDirectory = true
  · have under := (Path.isUnder_iff htarget hsource).2 within
    rw [outside directory] at under
    cases under
  · unfold Path.Within at within
    rw [hnames, List.prefix_concat_iff] at within
    rcases within with same | above
    · refine may.different ?_
      rw [← Path.render_components htarget, ← Path.render_components hsource, hnames, same]
    · have there : shell.vault.root.isDirectoryAt (Path.components (shell.resolve source)) = true :=
        Node.isDirectoryAt_of_prefix held above
      have found : shell.vault.root.find? (Path.components (shell.resolve source)) = some node :=
        may.found
      rw [Node.isDirectoryAt, found] at there
      exact directory there

/-- The root is never moved, since the working directory is always in it. -/
theorem exists_split (may : MayMove shell source destination target node) :
    ∃ parent name, Path.split (shell.resolve source) = .ok (parent, name) := by
  refine Path.exists_split ?_
  intro top
  have canonical := shell.isCanonical_resolve source
  have root : shell.resolve source = Path.root := by
    rw [← Path.render_components canonical, Path.components_eq_canonicalComponents canonical, top]
    rfl
  have idle := may.idle
  simp [root, Path.isUnder] at idle

/-- The first step succeeds, because the node is there. -/
theorem exists_remove (may : MayMove shell source destination target node) :
    ∃ without, shell.vault.remove (shell.resolve source) = .ok (node, without) := by
  obtain ⟨above, last, hsplit⟩ := may.exists_split
  refine Vault.exists_remove hsplit ?_
  rw [← Path.components_eq_canonicalComponents (shell.isCanonical_resolve source)]
  exact may.found

/-- **Once the node is taken out, putting it in cannot fail**: the directory of the target does not lie
in what was taken out. -/
theorem exists_place (may : MayMove shell source destination target node) {without : Vault}
    (removed : shell.vault.remove (shell.resolve source) = .ok (node, without)) :
    ∃ vault, without.place target (node.stamp shell.clock) = .ok vault := by
  have hsource := shell.isCanonical_resolve source
  have htarget := isCanonical_targetOf may.target_eq
  obtain ⟨-, -, -, parent, name, hsplit, held⟩ := moveRefusal?_eq_none_iff.1 may.unrefused
  obtain ⟨hnames, hparent⟩ := Path.canonicalComponents_of_split hsplit
  obtain ⟨same, -⟩ := Vault.remove_eq_ok removed
  refine Vault.exists_place hsplit ?_ _
  rw [same.isDirectoryAt, ← Path.components_eq_canonicalComponents hparent]
  · exact held
  · intro begins
    refine may.apart ?_
    unfold Path.Within
    rw [Path.components_eq_canonicalComponents hsource, Path.components_eq_canonicalComponents htarget,
      hnames]
    exact begins.trans (List.prefix_append _ _)

theorem respelt (may : MayMove shell source destination target node)
    (sameSource : shell.resolve source = shell.resolve source')
    (sameDestination : shell.resolve destination = shell.resolve destination') :
    MayMove shell source' destination' target node where
  found := by rw [← sameSource, may.found]
  idle := by rw [← sameSource, may.idle]
  target_eq := by rw [← sameSource, ← targetOf_congr sameDestination, may.target_eq]
  different := by
    rw [← sameSource]
    exact may.different
  unrefused := by
    rw [moveRefusal?_eq_none_iff, ← sameSource]
    exact moveRefusal?_eq_none_iff.1 may.unrefused

end MayMove

/-- **What `mv` is granted**: nothing is done if the node is there already, otherwise it is taken out and
placed at the target, with the time of the clock. -/
inductive MoveGrant (shell : Shell) (source destination : String) :
    Vault → Except Failure String → Prop
  | stays {node : Node} (found : shell.vault.find? (shell.resolve source) = some node)
      (idle : Path.isUnder shell.cwd (shell.resolve source) = false)
      (there : shell.targetOf (shell.resolve source) destination = .ok (shell.resolve source)) :
      MoveGrant shell source destination shell.vault (.ok (shell.resolve source))
  | moved {node : Node} {target : String} {without vault : Vault}
      (may : MayMove shell source destination target node)
      (removed : shell.vault.remove (shell.resolve source) = .ok (node, without))
      (placed : without.place target (node.stamp shell.clock) = .ok vault) :
      MoveGrant shell source destination vault (.ok target)

theorem MoveGrant.respelt {vault : Vault} {result : Except Failure String}
    (grant : MoveGrant shell source destination vault result)
    (sameSource : shell.resolve source = shell.resolve source')
    (sameDestination : shell.resolve destination = shell.resolve destination') :
    MoveGrant shell source' destination' vault result := by
  rcases grant with ⟨found, idle, there⟩ | ⟨may, removed, placed⟩
  · rw [sameSource] at found idle there ⊢
    rw [targetOf_congr sameDestination] at there
    exact .stays found idle there
  · rw [sameSource] at removed
    exact .moved (may.respelt sameSource sameDestination) removed placed

theorem moveNode_outcome (shell : Shell) (source destination : String) :
    Outcome shell (MoveGrant shell source destination) (Refuses "mv: ")
      (moveNode shell source destination) where
  granted := by
    rintro vault result (⟨found, idle, there⟩ | ⟨may, removed, placed⟩)
    · simp only [moveNode, found, idle, there, Bool.false_eq_true, if_false, if_true]
      rfl
    · simp only [moveNode, may.found, may.idle, may.target_eq, may.different, may.unrefused,
        Bool.false_eq_true, if_false, relocate, removed, placed]
  cases := by
    have stat : Begins "mv: " "mv: cannot stat '" := by decide
    have moving : Begins "mv: " "mv: cannot move '" := by decide
    simp only [moveNode]
    split
    case h_1 => exact Or.inr ⟨_, refuses_fault ((stat.append _).append _) _, rfl⟩
    case h_2 node found =>
      split
      case isTrue => exact Or.inr ⟨_, refuses_fault ((moving.append _).append _) _, rfl⟩
      case isFalse busy =>
        have idle := Bool.eq_false_iff.2 busy
        split
        case h_1 => exact Or.inr ⟨_, refuses_fault ((moving.append _).append _) _, rfl⟩
        case h_2 target target_eq =>
          split
          case isTrue same =>
            subst same
            exact Or.inl ⟨_, _, .stays found idle target_eq, rfl⟩
          case isFalse different =>
            split
            case h_1 failure refused => exact Or.inr ⟨_, refuses_of_moveRefusal? refused, rfl⟩
            case h_2 unrefused =>
              have may : MayMove shell source destination target node :=
                ⟨found, idle, target_eq, different, unrefused⟩
              obtain ⟨without, removed⟩ := may.exists_remove
              obtain ⟨vault, placed⟩ := may.exists_place removed
              refine Or.inl ⟨_, _, .moved may removed placed, ?_⟩
              simp only [relocate, removed, placed]

/-- What is reported has no part in what is moved. -/
theorem moveOperand_fst (verbose : Bool) (shell : Shell) (source destination : String) :
    (moveOperand verbose shell source destination).1 =
      (moveNode shell source destination).1 := by
  unfold moveOperand
  generalize moveNode shell source destination = outcome
  rfl

theorem moveOperand_snd (verbose : Bool) (shell : Shell) (source destination : String) :
    (moveOperand verbose shell source destination).2 =
      reportOf (fun target => if verbose then [s!"renamed '{source}' -> '{target}'"] else [])
        (moveNode shell source destination).2 := by
  unfold moveOperand
  generalize moveNode shell source destination = outcome
  rfl

/-! ## Commands -/

/-- The operands of a transfer: the sources, and then the destination. -/
theorem operands_of_sourcesAndDestination? {operands sources : List String} {destination : String}
    (h : sourcesAndDestination? operands = some (sources, destination)) :
    operands = sources ++ [destination] := by
  unfold sourcesAndDestination? at h
  split at h
  case h_1 source rest last front ending =>
    obtain ⟨rfl, rfl⟩ := h
    obtain ⟨before, rfl⟩ := List.getLast?_eq_some_iff.1 ending
    rw [List.dropLast_concat] at front
    rw [front]
  case h_2 => cases h

/-- **What a transfer comes to**: the operands are no good, or each source has its turn. -/
theorem transferAll_walk {step : Shell → String → String → Shell × List String} {command words : String}
    (missing : Begins words (command ++ ": missing file operand"))
    (noDirectory : Begins words (command ++ ": target '")) (help : String) (shell : Shell)
    (operands : List String) :
    Walk shell help words
      (fun stepTo sources => ∃ destination, operands = sources ++ [destination] ∧
        stepTo = fun shell source => step shell source destination)
      (transferAll command step shell operands) := by
  unfold transferAll
  split
  case h_1 => exact .refused (refuses_usage missing) rfl
  case h_2 sources destination parted =>
    split
    case isTrue => exact .refused (refuses_fault ((noDirectory.append _).append _) _) rfl
    case isFalse =>
      exact .walked ⟨destination, operands_of_sourcesAndDestination? parted, rfl⟩ rfl

theorem copy_walk (shell : Shell) (arguments : List String) :
    Walk shell copyHelp "cp: "
      (fun step sources => ∃ destination, operandsOf arguments = sources ++ [destination] ∧
        step = fun shell source => copyOperand (copySettings arguments) shell source destination)
      (shell.copy arguments) := by
  have unrecognized : Begins "cp: " "cp: unrecognized option '" := by decide
  unfold copy
  split
  case isTrue => exact .helped rfl
  case isFalse =>
    split
    case h_1 => exact .refused (refuses_usage ((unrecognized.append _).append _)) rfl
    case h_2 => exact transferAll_walk (by decide) (by decide) copyHelp shell _

theorem move_walk (shell : Shell) (arguments : List String) :
    Walk shell moveHelp "mv: "
      (fun step sources => ∃ destination, operandsOf arguments = sources ++ [destination] ∧
        step = fun shell source =>
          moveOperand (hasFlag ["-v", "--verbose"] arguments) shell source destination)
      (shell.move arguments) := by
  have unrecognized : Begins "mv: " "mv: unrecognized option '" := by decide
  unfold move
  split
  case isTrue => exact .helped rfl
  case isFalse =>
    split
    case h_1 => exact .refused (refuses_usage ((unrecognized.append _).append _)) rfl
    case h_2 => exact transferAll_walk (by decide) (by decide) moveHelp shell _

end Shell

end VaultShell
