import Mathlib.Logic.Relation
import VaultShell.Proofs.Path.Typed
import VaultShell.Proofs.Shell.Running
import VaultShell.Proofs.Shell.Transfers
import VaultShell.Proofs.Vault.Hereditary

/-!
# What a command can do to the state

Seven commands change the state, most of them for any number of operands and each with checks of its
own.  All that they ever do comes down to a few *moves*, and each move carries the checks that were
made before it.  Whatever every move keeps, every command keeps, in every run of lines; so an
invariant is a case for each move and needs no look at a command again.

The copies of `cp` are the moves that may replace a directory by another one.  Whether they are
allowed is a parameter, so that the other commands are known not to make them.

## Main definitions

* `Shell.Typed`: both directories that the shell remembers are typed paths
* `Shell.Move`: a single change of the state

## Main statements

* `Command.execute_moves`: a command is a sequence of moves, with copies for `cp` only
* `Shell.Move.everywhere`: what a move keeps of all nodes
* `Shell.afterAll_invariant`: what the clock and every move keep, every run of lines keeps
-/

namespace VaultShell

open Text (Blankless)

namespace Shell

/-- The directories that a shell remembers are typed paths. -/
structure Typed (shell : Shell) : Prop where
  cwd : Path.IsTyped shell.cwd
  previous : ∀ path, shell.previous = some path → Path.IsTyped path

/-- **A single change of the state**, with what was checked before it. -/
inductive Move (copies : Prop) : Shell → Shell → Prop
  | enter {shell : Shell} {path : String} (typed : Path.IsTyped path)
      (there : shell.vault.isDirectory path = true) :
      Move copies shell { shell with cwd := path, previous := some shell.cwd }
  | createDirectory {shell : Shell} {path : String} {vault : Vault} (typed : Path.IsTyped path)
      (created : shell.vault.createDirectory path shell.clock = .ok vault) :
      Move copies shell (shell.withVault vault)
  | createFile {shell : Shell} {path : String} {vault : Vault} (typed : Path.IsTyped path)
      (created : createPlaceholder shell.vault path shell.clock = .ok vault) :
      Move copies shell (shell.withVault vault)
  | stamp {shell : Shell} {path : String} {vault : Vault} (typed : Path.IsTyped path)
      (stamped : shell.vault.stamp? path shell.clock = some vault) :
      Move copies shell (shell.withVault vault)
  /-- Whatever is removed, it is no directory that the shell works in or beneath. -/
  | remove {shell : Shell} {path : String} {node : Node} {vault : Vault}
      (typed : Path.IsTyped path)
      (apart : shell.vault.isDirectory path = true → Path.isUnder shell.cwd path = false)
      (removed : shell.vault.remove path = .ok (node, vault)) :
      Move copies shell (shell.withVault vault)
  /-- What is moved does not hold the working directory, and takes no directory's place. -/
  | relocate {shell : Shell} {origin target : String} {node : Node} {without vault : Vault}
      (typed : Path.IsTyped target) (canonical : Path.IsCanonical origin)
      (apart : Path.isUnder shell.cwd origin = false)
      (free : shell.vault.isDirectory target = false)
      (removed : shell.vault.remove origin = .ok (node, without))
      (placed : without.place target (node.stamp shell.clock) = .ok vault) :
      Move copies shell (shell.withVault vault)
  | copy {shell : Shell} {origin target : String} {node : Node} {vault : Vault}
      (allowed : copies) (typed : Path.IsTyped target)
      (found : shell.vault.find? origin = some node)
      (placed : shell.vault.place target (node.stamp shell.clock) = .ok vault) :
      Move copies shell (shell.withVault vault)

/-- Moves, one after the other. -/
abbrev Moves (copies : Prop) : Shell → Shell → Prop :=
  Relation.ReflTransGen (Move copies)

variable {copies : Prop} {shell after : Shell}

theorem Typed.withVault (typed : shell.Typed) (vault : Vault) : (shell.withVault vault).Typed :=
  ⟨typed.cwd, typed.previous⟩

theorem Typed.tick (typed : shell.Typed) : shell.tick.Typed :=
  ⟨typed.cwd, typed.previous⟩

theorem typed_fresh (identity : String) (epoch : Instant) : (fresh identity epoch).Typed where
  cwd := Path.isTyped_root
  previous path h := by cases h

theorem Move.typed (move : Move copies shell after) (typed : shell.Typed) : after.Typed := by
  cases move with
  | enter typedPath there =>
      refine ⟨typedPath, ?_⟩
      rintro path ⟨rfl⟩
      exact typed.cwd
  | _ => exact typed.withVault _

theorem Moves.typed (moves : Moves copies shell after) (typed : shell.Typed) : after.Typed := by
  induction moves with
  | refl => exact typed
  | tail _ move ih => exact move.typed ih

/-- **A property of all nodes**, each of them for itself, is kept by a move if it is kept by a new time
and a new name and holds of the nodes that a move can create.  New names have no blanks, since they are
taken off typed paths. -/
theorem Move.everywhere {P : Node → Prop} (move : Move copies shell after)
    (stamped : ∀ node, P node → P (node.stamp shell.clock))
    (renamed : ∀ node name, Blankless name → P node → P (node.rename name))
    (directory : ∀ name, Blankless name → P (.newDirectory name shell.clock))
    (file : ∀ name, Blankless name → P (.newFile name (placeholder name) shell.clock))
    (holds : shell.vault.root.Everywhere P) : after.vault.root.Everywhere P := by
  have isLocal := Node.local_bare P
  have stamped : ∀ node : Node, P node.bare → P (node.stamp shell.clock).bare := by
    intro node here
    rw [Node.stamp, Node.bare_mapAttributes]
    exact stamped node.bare here
  have renamed : ∀ (node : Node) name, Blankless name → P node.bare → P (node.rename name).bare := by
    intro node name blankless here
    rw [Node.rename, Node.bare_mapAttributes]
    exact renamed node.bare name blankless here
  rw [Node.everywhere_iff] at holds ⊢
  cases move with
  | enter typed there => exact holds
  | createDirectory typed created =>
      refine (Vault.standsFor_create isLocal (fun _ name split => ⟨?_, rfl⟩) created).hereditary holds
      exact Node.hereditary_newDirectory
        (directory name (Path.blankless_of_split typed.blankless split))
  | createFile typed created =>
      obtain ⟨parent, name, split, created⟩ := createPlaceholder_eq_ok created
      -- The content is made of the last part of the path, and so is the name of the node.
      refine (Vault.standsFor_create isLocal (fun _ other splitAgain => ⟨?_, rfl⟩)
        created).hereditary holds
      obtain rfl : name = other := congrArg Prod.snd (Except.ok.inj (split.symm.trans splitAgain))
      exact Node.hereditary_newFile (file name (Path.blankless_of_split typed.blankless split))
  | stamp typed stampedVault =>
      exact (Vault.standsFor_stamp? isLocal stamped stampedVault).hereditary holds
  | remove typed apart removed => exact (Vault.standsFor_remove isLocal removed).hereditary holds
  | relocate typed canonical apart free removed placed =>
      have node := holds.find? (Vault.remove_eq_ok removed).2
      have without := (Vault.standsFor_remove isLocal removed).hereditary holds
      refine (Vault.standsFor_place isLocal (fun _ name split n => ?_) (node.mapAttributes stamped)
        placed).hereditary without
      exact renamed n name (Path.blankless_of_split typed.blankless split)
  | copy allowed typed found placed =>
      refine (Vault.standsFor_place isLocal (fun _ name split n => ?_)
        ((holds.find? found).mapAttributes stamped) placed).hereditary holds
      exact renamed n name (Path.blankless_of_split typed.blankless split)

theorem Typed.resolve (typed : shell.Typed) {operand : String} (blankless : Blankless operand) :
    Path.IsTyped (shell.resolve operand) :=
  Path.isTyped_resolve typed.cwd blankless

/-- Steps that are moves make moves when they are run for one operand after the other. -/
theorem eachOperand_moves {step : Shell → String → Shell × List String}
    (hstep : ∀ shell operand, shell.Typed → Blankless operand → Moves copies shell (step shell operand).1)
    (typed : shell.Typed) {operands : List String} (blankless : ∀ o ∈ operands, Blankless o) :
    Moves copies shell (shell.eachOperand step operands).1 := by
  refine eachOperand_fst ?_ .refl
  intro before operand member earlier
  exact earlier.trans (hstep before operand (Moves.typed earlier typed) (blankless operand member))

/-- A request makes moves if whatever it is granted is made by moves. -/
theorem Outcome.moves {β : Type} {Grant : Vault → β → Prop} {Refusal : β → Prop}
    {outcome : Shell × β} (h : Outcome shell Grant Refusal outcome)
    (grants : ∀ vault result, Grant vault result → Moves copies shell (shell.withVault vault)) :
    Moves copies shell outcome.1 :=
  h.fst .refl grants

/-- A command that goes through its operands makes moves if the steps do. -/
theorem Walk.moves {help words : String}
    {Through : (Shell → String → Shell × List String) → List String → Prop}
    {outcome : Shell × Except Failure String} (h : Walk shell help words Through outcome)
    (steps : ∀ step operands, Through step operands →
      Moves copies shell (shell.eachOperand step operands).1) : Moves copies shell outcome.1 := by
  rcases h with helped | ⟨-, refused⟩ | ⟨through, walked⟩
  · rw [helped]
  · rw [refused]
  · rw [walked]
    exact steps _ _ through

/-! ## Creating -/

theorem makeDirectory_moves (typed : shell.Typed) {operand : String}
    (blankless : Blankless operand) : Moves copies shell (shell.makeDirectory operand).1 := by
  refine (makeDirectory_outcome shell operand).moves ?_
  rintro vault result (taken | ⟨free, created⟩)
  · exact .refl
  · exact .single (.createDirectory (typed.resolve blankless) created)

theorem makePath_moves (typed : shell.Typed) {operand : String} (blankless : Blankless operand) :
    Moves copies shell (shell.makePath operand).1 := by
  refine makePath_fst ?_ .refl
  intro before vault path member created earlier
  have typedPath := Path.isTyped_of_mem_wayTo (typed.resolve blankless) member
  exact earlier.tail (.createDirectory typedPath created)

theorem makeOperand_moves (settings : MakeSettings) (shell : Shell) (operand : String)
    (typed : shell.Typed) (blankless : Blankless operand) :
    Moves copies shell (makeOperand settings shell operand).1 := by
  rw [makeOperand_fst]
  split
  · exact makePath_moves typed blankless
  · exact makeDirectory_moves typed blankless

theorem touchOperand_moves (noCreate : Bool) (shell : Shell) (operand : String)
    (typed : shell.Typed) (blankless : Blankless operand) :
    Moves copies shell (touchOperand noCreate shell operand).1 := by
  refine (touchOperand_outcome noCreate shell operand).moves ?_
  rintro vault report (stamped | ⟨missing, asked⟩ | ⟨missing, asked, created⟩)
  · exact .single (.stamp (typed.resolve blankless) stamped)
  · exact .refl
  · exact .single (.createFile (typed.resolve blankless) created)

/-! ## Removing -/

theorem removeNode_moves (settings : RemoveSettings) (shell : Shell) (operand : String)
    (typed : shell.Typed) (blankless : Blankless operand) :
    Moves copies shell (removeNode settings shell operand).1 := by
  refine (removeNode_outcome settings shell operand).moves ?_
  rintro vault result (missing | ⟨found, allowed, removed⟩)
  · exact .refl
  · refine .single (.remove (typed.resolve blankless) ?_ removed)
    obtain ⟨apart, -⟩ := removalFault?_eq_none allowed
    simpa [Vault.isDirectory, found] using apart

theorem removeOperand_moves (settings : RemoveSettings) (shell : Shell) (operand : String)
    (typed : shell.Typed) (blankless : Blankless operand) :
    Moves copies shell (removeOperand settings shell operand).1 := by
  rw [removeOperand_fst]
  exact removeNode_moves settings shell operand typed blankless

theorem removeEmpty_moves (shell : Shell) {path : String} (typed : Path.IsTyped path) :
    Moves copies shell (shell.removeEmpty path).1 := by
  refine (removeEmpty_outcome shell path).moves ?_
  rintro vault result (missing | ⟨found, apart, removed⟩)
  · exact .refl
  · exact .single (.remove typed (fun _ => apart) removed)

theorem removeChain_moves (settings : RemoveDirectorySettings) (typed : shell.Typed)
    {operands : List String} (blankless : ∀ o ∈ operands, Blankless o) :
    Moves copies shell (removeChain settings shell operands).1 := by
  refine removeChain_fst ?_ .refl
  intro before operand member earlier
  have typedPath := (Moves.typed earlier typed).resolve (blankless operand member)
  exact earlier.trans (removeEmpty_moves before typedPath)

/-- What stands before the last slash of a text is followed by a slash in it, and is not empty. -/
theorem parentChars?_eq_some {operand parent : List Char} (h : parentChars? operand = some parent) :
    parent ≠ [] ∧ ∃ rest, operand = parent ++ '/' :: rest := by
  unfold parentChars? at h
  split at h
  · cases h
  case h_2 before ending cut =>
    split at h
    · cases h
    case isFalse something =>
      obtain rfl := Option.some.inj h
      have front := List.rdropWhile_prefix (· = '/') operand
      rw [← Text.dropTrailing_eq_rdropWhile, Text.eq_of_cutLast? cut] at front
      obtain ⟨trailing, whole⟩ := front
      exact ⟨by simpa using something, ending ++ trailing, by rw [← whole]; simp⟩

theorem mem_ancestryChars {operand text : List Char} (h : text ∈ ancestryChars operand) :
    text = operand ∨ text ≠ [] ∧ ∃ rest, operand = text ++ '/' :: rest := by
  fun_induction ancestryChars operand with
  | case1 operand top => exact Or.inl (List.mem_singleton.1 h)
  | case2 operand parent found shorter ih =>
      obtain ⟨something, rest, rfl⟩ := parentChars?_eq_some found
      rcases List.mem_cons.1 h with rfl | h
      · exact Or.inl rfl
      · rcases ih h with rfl | ⟨textSomething, more, rfl⟩
        · exact Or.inr ⟨something, rest, rfl⟩
        · exact Or.inr ⟨textSomething, more ++ '/' :: rest, by simp⟩

theorem blankless_of_mem_ancestry {operand text : String} (blankless : Blankless operand)
    (h : text ∈ ancestry operand) : Blankless text := by
  obtain ⟨chars, hchars, rfl⟩ := List.mem_map.1 h
  intro c hc
  rw [String.toList_ofList] at hc
  refine blankless c ?_
  rcases mem_ancestryChars hchars with rfl | ⟨-, rest, hrest⟩
  · exact hc
  · rw [hrest]
    exact List.mem_append_left _ hc

theorem removeDirectoryOperand_moves (settings : RemoveDirectorySettings) (shell : Shell)
    (operand : String) (typed : shell.Typed) (blankless : Blankless operand) :
    Moves copies shell (removeDirectoryOperand settings shell operand).1 := by
  refine removeChain_moves settings typed ?_
  split
  · exact fun o ho => blankless_of_mem_ancestry blankless ho
  · intro o ho
    rwa [List.mem_singleton.1 ho]

/-! ## Copying and moving -/

theorem targetOf_typed (typed : shell.Typed) {origin destination target : String}
    (horigin : Path.IsTyped origin) (blankless : Blankless destination)
    (h : shell.targetOf origin destination = .ok target) : Path.IsTyped target := by
  have path := typed.resolve blankless
  refine ⟨isCanonical_targetOf h, ?_⟩
  by_cases there : shell.vault.isDirectory (shell.resolve destination) = true
  · obtain ⟨parent, name, hsplit, rfl⟩ := targetOf_eq_ok there h
    exact Path.blankless_join path.blankless (Path.blankless_of_split horigin.blankless hsplit)
  · rw [targetOf, if_neg there] at h
    obtain rfl := Except.ok.inj h
    exact path.blankless

theorem copyNode_moves (allowed : copies) (recursive : Bool) {destination : String}
    (hdestination : Blankless destination) (shell : Shell) (source : String) (typed : shell.Typed)
    (blankless : Blankless source) :
    Moves copies shell (copyNode recursive shell source destination).1 := by
  refine (copyNode_outcome recursive shell source destination).moves ?_
  rintro vault result ⟨may, placed⟩
  have typedTarget := targetOf_typed typed (typed.resolve blankless) hdestination may.target_eq
  exact .single (.copy allowed typedTarget may.found placed)

theorem copyOperand_moves (allowed : copies) (settings : CopySettings) {destination : String}
    (hdestination : Blankless destination) (shell : Shell) (source : String) (typed : shell.Typed)
    (blankless : Blankless source) :
    Moves copies shell (copyOperand settings shell source destination).1 := by
  rw [copyOperand_fst]
  exact copyNode_moves allowed settings.recursive hdestination shell source typed blankless

theorem moveNode_moves {destination : String} (hdestination : Blankless destination)
    (shell : Shell) (source : String) (typed : shell.Typed) (blankless : Blankless source) :
    Moves copies shell (moveNode shell source destination).1 := by
  refine (moveNode_outcome shell source destination).moves ?_
  rintro vault result (⟨found, idle, there⟩ | ⟨may, removed, placed⟩)
  · exact .refl
  · have horigin := typed.resolve blankless
    obtain ⟨-, free, -⟩ := moveRefusal?_eq_none_iff.1 may.unrefused
    exact .single (.relocate (targetOf_typed typed horigin hdestination may.target_eq)
      horigin.canonical may.idle free removed placed)

theorem moveOperand_moves (verbose : Bool) {destination : String}
    (hdestination : Blankless destination) (shell : Shell) (source : String) (typed : shell.Typed)
    (blankless : Blankless source) :
    Moves copies shell (moveOperand verbose shell source destination).1 := by
  rw [moveOperand_fst]
  exact moveNode_moves hdestination shell source typed blankless

/-! ## The working directory -/

theorem enter_moves {path : String} (typed : Path.IsTyped path) (operand : String) :
    Moves copies shell (shell.enter operand path).1 := by
  unfold enter
  split
  case h_1 attributes children found =>
    refine .single (.enter typed ?_)
    simp [Vault.isDirectory, found, Node.isDirectory, Node.kind]
  · exact .refl
  · exact .refl

theorem directoryOperand_eq_ok {arguments : List String} {operand : String}
    (h : directoryOperand arguments = .ok operand) : operand = "~" ∨ operand ∈ arguments := by
  unfold directoryOperand at h
  split at h
  · exact Or.inl (Except.ok.inj h).symm
  · exact Or.inr (by simpa using (Except.ok.inj h).symm)
  · cases h

theorem changeDirectory_moves (typed : shell.Typed) {arguments : List String}
    (blankless : ∀ argument ∈ arguments, Blankless argument) :
    Moves copies shell (shell.changeDirectory arguments).1 := by
  unfold changeDirectory
  split
  · exact .refl
  case h_2 operand hoperand =>
    split
    · split
      · exact .refl
      case h_2 path previous => exact enter_moves (typed.previous path previous) operand
    · refine enter_moves (typed.resolve ?_) operand
      rcases directoryOperand_eq_ok hoperand with rfl | hmem
      · decide
      · exact blankless operand hmem

end Shell

/-! ## Commands -/

/-- Operands are among the arguments. -/
theorem mem_of_mem_operandsOf {arguments : List String} {operand : String}
    (h : operand ∈ operandsOf arguments) : operand ∈ arguments :=
  (List.mem_filter.1 h).1

/-- **A command is a sequence of moves**, with copies for `cp` only. -/
theorem Command.execute_moves (command : Command) (wallClock : String) {shell : Shell}
    (typed : shell.Typed) {arguments : List String}
    (blankless : ∀ argument ∈ arguments, Blankless argument) :
    Shell.Moves (command = .cp) shell (command.execute wallClock shell arguments).1 := by
  have operands : ∀ o ∈ operandsOf arguments, Blankless o :=
    fun o ho => blankless o (mem_of_mem_operandsOf ho)
  cases command with
  | cd => exact Shell.changeDirectory_moves typed blankless
  | cp =>
      refine (shell.copy_walk arguments).moves ?_
      rintro _ sources ⟨destination, parted, rfl⟩
      rw [parted] at operands
      exact Shell.eachOperand_moves (Shell.copyOperand_moves rfl _ (operands destination (by simp))) typed
        fun source member => operands source (List.mem_append_left _ member)
  | mkdir =>
      refine (shell.makeDirectories_walk arguments).moves ?_
      rintro _ _ ⟨rfl, rfl⟩
      exact Shell.eachOperand_moves (Shell.makeOperand_moves _) typed operands
  | mv =>
      refine (shell.move_walk arguments).moves ?_
      rintro _ sources ⟨destination, parted, rfl⟩
      rw [parted] at operands
      exact Shell.eachOperand_moves (Shell.moveOperand_moves _ (operands destination (by simp))) typed
        fun source member => operands source (List.mem_append_left _ member)
  | rm =>
      refine (shell.remove_walk arguments).moves ?_
      rintro _ _ ⟨rfl, rfl⟩
      exact Shell.eachOperand_moves (Shell.removeOperand_moves _) typed operands
  | rmdir =>
      refine (shell.removeDirectories_walk arguments).moves ?_
      rintro _ _ ⟨rfl, rfl⟩
      exact Shell.eachOperand_moves (Shell.removeDirectoryOperand_moves _) typed operands
  | touch =>
      refine (shell.touch_walk arguments).moves ?_
      rintro _ _ ⟨rfl, rfl⟩
      exact Shell.eachOperand_moves (Shell.touchOperand_moves _) typed operands
  | _ => exact .refl

/-! ## Runs of lines -/

namespace Shell

variable {shell : Shell} {copies : Prop}

/-- A line leaves the state alone, or makes moves a minute later; with copies only if it names
`cp`. -/
theorem after_moves (typed : shell.Typed) (input : String) :
    shell.after .standard input = shell ∨
      Moves ((CommandLine.parse? input).map CommandLine.name = some "cp") shell.tick
        (shell.after .standard input) := by
  rcases after_cases shell input with h | ⟨raw, command, arguments, parsed, -, h⟩
  · exact Or.inl h
  · refine Or.inr ?_
    rw [h, parsed]
    have blankless : ∀ argument ∈ arguments, Blankless argument :=
      fun _ h => CommandLine.blankless_of_mem_arguments parsed h
    have names : (command = .cp) = (some command.name = some "cp") := by
      rw [Option.some.injEq, eq_iff_iff]
      exact ⟨fun h => by rw [h]; rfl, fun h => Command.name_injective h⟩
    have moves := command.execute_moves "" typed.tick blankless
    rw [names] at moves
    exact moves

theorem after_typed (typed : shell.Typed) (input : String) :
    (shell.after .standard input).Typed := by
  rcases after_moves typed input with h | moves
  · rwa [h]
  · exact moves.typed typed.tick

/-- With copies allowed, moves that were made without them are moves. -/
theorem Move.mono {other : Prop} (h : copies → other) {after : Shell}
    (move : Move copies shell after) : Move other shell after := by
  cases move with
  | enter typed there => exact .enter typed there
  | createDirectory typed created => exact .createDirectory typed created
  | createFile typed created => exact .createFile typed created
  | stamp typed stamped => exact .stamp typed stamped
  | remove typed apart removed => exact .remove typed apart removed
  | relocate typed canonical apart free removed placed =>
      exact .relocate typed canonical apart free removed placed
  | copy allowed typed found placed => exact .copy (h allowed) typed found placed

/-- An invariant of single moves is one of moves. -/
theorem Moves.invariant {Invariant : Shell → Prop}
    (keeps : ∀ shell after, shell.Typed → Move copies shell after → Invariant shell → Invariant after)
    {after : Shell} (moves : Moves copies shell after) (typed : shell.Typed)
    (holds : Invariant shell) : Invariant after := by
  induction moves with
  | refl => exact holds
  | tail earlier move ih => exact keeps _ _ (Moves.typed earlier typed) move ih

/-- **What the clock and every move keep, every run of lines keeps.**  The moves are made from states
whose directories are typed, which the invariant may use. -/
theorem afterAll_invariant {Invariant : Shell → Prop}
    (ticks : ∀ shell, Invariant shell → Invariant shell.tick)
    (keeps : ∀ shell after, shell.Typed → Move True shell after → Invariant shell → Invariant after)
    (typed : shell.Typed) (holds : Invariant shell) (inputs : List String) :
    Invariant (shell.afterAll .standard inputs) := by
  induction inputs generalizing shell with
  | nil => exact holds
  | cons input rest ih =>
      rw [afterAll_cons]
      refine ih (after_typed typed input) ?_
      rcases after_moves typed input with h | moves
      · rwa [h]
      · refine Moves.invariant ?_ moves typed.tick (ticks shell holds)
        intro before after typedBefore move
        exact keeps before after typedBefore (move.mono fun _ => trivial)

theorem afterAll_typed (typed : shell.Typed) (inputs : List String) :
    (shell.afterAll .standard inputs).Typed :=
  afterAll_invariant (fun _ h => h.tick) (fun _ _ _ move h => move.typed h) typed typed inputs

end Shell

end VaultShell
