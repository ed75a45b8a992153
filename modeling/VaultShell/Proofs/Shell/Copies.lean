import VaultShell.Proofs.Shell.Overwriting
import VaultShell.Proofs.Shell.WellFormed

/-!
# What a copy takes away

A copy puts a node at its target, and whatever stood there is gone, with all that lay beneath it.  A
file that comes where a file was takes nothing away.  But `cp -r` puts a directory where a directory or
a file was, and what the new one does not hold under the same names is lost.

A line may copy several sources, and a later copy may bring back what an earlier one took.  So the log
of the copies is read from its end: what a path leads to after the line is told by the last copy that
stands there or above, and if there is none, then it leads to what it led to before.

## Main definitions

* `Vault.Keeps`: whatever was there is there still and of the same kind
* `Copy`: a copy that was made, with what it replaced
* `Copy.Spares`: the copy holds all that it replaced
* `Shell.copiesOf`: the log of the copies of a line

## Main statements

* `Shell.kindAt?_copy`: the last copy that reaches a path tells what is there
* `Shell.copy_keeps_iff`: when `cp` keeps everything
-/

namespace VaultShell

/-- **Nothing disappears and nothing changes its kind**: a path that leads to a file or to a directory
leads to one afterwards as well. -/
def Vault.Keeps (vault after : Vault) : Prop :=
  ∀ path kind, vault.kindAt? path = some kind → after.kindAt? path = some kind

theorem Vault.Keeps.trans {vault between after : Vault} (first : vault.Keeps between)
    (second : between.Keeps after) : vault.Keeps after :=
  fun path kind there => second path kind (first path kind there)

/-- **A copy that was made**: where it stands, what was copied, and what stood there before. -/
structure Copy where
  target : String
  node : Node
  replaced : Option Node

namespace Copy

/-- The path leads to the copy or into it. -/
def Reaches (copy : Copy) (path : String) : Prop :=
  Path.Within path copy.target

instance (copy : Copy) (path : String) : Decidable (copy.Reaches path) :=
  inferInstanceAs (Decidable (Path.Within path copy.target))

/-- The names that lead on from the target to a path that reaches the copy. -/
def namesInside (copy : Copy) (path : String) : List String :=
  (Path.components path).drop (Path.components copy.target).length

/-- What such a path leads to in the copy. -/
def kindAt? (copy : Copy) (path : String) : Option Kind :=
  copy.node.kindAt? (copy.namesInside path)

/-- What it led to in what was replaced. -/
def kindBefore? (copy : Copy) (path : String) : Option Kind :=
  copy.replaced.bind fun replaced => replaced.kindAt? (copy.namesInside path)

/-- **The copy holds all that it replaced**, under the same names and of the same kinds. -/
def Spares (copy : Copy) : Prop :=
  ∀ path kind, copy.Reaches path → copy.kindBefore? path = some kind →
    copy.kindAt? path = some kind

/-- The copy was made on the way from one state to another one. -/
structure Made (copy : Copy) (recursive : Bool) (shell after : Shell) : Prop where
  canonical : Path.IsCanonical copy.target
  replaced_eq : copy.replaced = shell.vault.find? copy.target
  /-- Directories are copied only where a flag allows it. -/
  allowed : copy.node.isDirectory = true → recursive = true
  /-- A file replaces no directory. -/
  file : copy.node.isDirectory = false → shell.vault.isDirectory copy.target = false
  placed : shell.vault.place copy.target (copy.node.stamp shell.clock) = .ok after.vault

namespace Made

variable {copy : Copy} {recursive : Bool} {shell after : Shell} {path : String}

/-- **What is where after a copy**: beneath its target what was copied, elsewhere what was there. -/
theorem kindAt?_after (made : copy.Made recursive shell after) (path : String) :
    after.vault.kindAt? path =
      if copy.Reaches path then copy.kindAt? path else shell.vault.kindAt? path := by
  have target_eq := Path.components_eq_canonicalComponents made.canonical
  split
  case isTrue reaches =>
    obtain ⟨rest, hrest⟩ := reaches
    rw [Vault.kindAt?, Copy.kindAt?, namesInside, ← hrest, List.drop_left, target_eq,
      Vault.kindAt?_of_place made.placed]
    exact Node.kindAt?_mapAttributes _ copy.node rest
  case isFalse beside =>
    obtain ⟨same, -⟩ := Vault.place_eq_ok made.placed
    rw [← target_eq] at same
    exact same.kindAt? beside

/-- What was replaced is what was beneath the target. -/
theorem kindBefore?_eq (made : copy.Made recursive shell after) (reaches : copy.Reaches path) :
    copy.kindBefore? path = shell.vault.kindAt? path := by
  obtain ⟨rest, hrest⟩ := reaches
  rw [kindBefore?, namesInside, made.replaced_eq, Vault.kindAt?, ← hrest, List.drop_left,
    Node.kindAt?_append]
  rfl

/-- **A copy keeps everything if and only if it holds all that it replaced.** -/
theorem keeps_iff (made : copy.Made recursive shell after) :
    shell.vault.Keeps after.vault ↔ copy.Spares := by
  constructor
  · intro keeps path kind reaches before
    rw [made.kindBefore?_eq reaches] at before
    have kept := keeps path kind before
    rwa [made.kindAt?_after, if_pos reaches] at kept
  · intro spares path kind before
    rw [made.kindAt?_after]
    split
    case isTrue reaches => exact spares path kind reaches (by rwa [made.kindBefore?_eq reaches])
    case isFalse => exact before

/-- A file holds all that it replaced, since that was a file or nothing. -/
theorem spares_of_file (made : copy.Made recursive shell after)
    (isFile : copy.node.isDirectory = false) : copy.Spares := by
  have free : shell.vault.root.isDirectoryAt (Path.components copy.target) = false :=
    made.file isFile
  intro path kind reaches before
  rw [made.kindBefore?_eq reaches] at before
  obtain ⟨rest, hrest⟩ := reaches
  rw [Vault.kindAt?, ← hrest] at before
  rw [kindAt?, namesInside, ← hrest, List.drop_left]
  cases rest with
  | nil =>
      rw [List.append_nil, Node.kindAt?] at before
      obtain ⟨there, found, rfl⟩ := Option.map_eq_some_iff.1 before
      rw [Node.isDirectoryAt, found] at free
      have bothFiles : copy.node.kind = .file ∧ there.kind = .file := by
        cases hnode : copy.node <;> cases there <;> simp_all [Node.isDirectory, Node.kind]
      rw [bothFiles.2, ← bothFiles.1]
      rfl
  | cons name more =>
      have nothing := Node.find?_append_of_not_isDirectory free name more
      rw [Node.kindAt?, nothing] at before
      cases before

/-- **Only a directory that replaces something can take something away.** -/
theorem of_not_spares (made : copy.Made recursive shell after) (loses : ¬ copy.Spares) :
    copy.node.isDirectory = true ∧ recursive = true ∧ copy.replaced.isSome = true := by
  have directory : copy.node.isDirectory = true := by
    by_contra isFile
    exact loses (made.spares_of_file (by simpa using isFile))
  refine ⟨directory, made.allowed directory, ?_⟩
  by_contra nothing
  rw [Option.not_isSome_iff_eq_none] at nothing
  refine loses fun path kind reaches before => ?_
  rw [kindBefore?, nothing] at before
  cases before

end Made

/-! ## The log of several copies -/

/-- The last copy of a log that a path reaches. -/
def lastReaching? (log : List Copy) (path : String) : Option Copy :=
  log.reverse.find? fun copy => copy.Reaches path

/-- What a path leads to after the copies of a log, if it led to `before`. -/
def kindAfter? (log : List Copy) (path : String) (before : Option Kind) : Option Kind :=
  match lastReaching? log path with
  | some copy => copy.kindAt? path
  | none => before

/-- A copy counts as long as none after it reaches the path. -/
theorem kindAfter?_cons (copy : Copy) (log : List Copy) (path : String) (before : Option Kind) :
    kindAfter? (copy :: log) path before =
      kindAfter? log path (if copy.Reaches path then copy.kindAt? path else before) := by
  unfold kindAfter? lastReaching?
  rw [List.reverse_cons, List.find?_append]
  cases log.reverse.find? fun copy => copy.Reaches path with
  | some later => rfl
  | none =>
      by_cases reaches : copy.Reaches path
      · simp [reaches]
      · simp [reaches]

end Copy

namespace Shell

/-- The copy that comes of one source, unless it is refused. -/
def copied? (recursive : Bool) (shell : Shell) (source destination : String) : Option Copy :=
  match (copyNode recursive shell source destination).2 with
  | .error _ => none
  | .ok target => (shell.vault.find? (shell.resolve source)).map fun node =>
      ⟨target, node, shell.vault.find? target⟩

/-- **The log of the copies** that are made of several sources, one after the other. -/
def copies (settings : CopySettings) (destination : String) (shell : Shell) :
    List String → List Copy
  | [] => []
  | source :: rest =>
    (shell.copied? settings.recursive source destination).toList ++
      copies settings destination (copyOperand settings shell source destination).1 rest

/-- The log of a line of `cp`, which is empty if the line is refused as a whole. -/
def copiesOf (shell : Shell) (arguments : List String) : List Copy :=
  match copyParts? arguments with
  | none => []
  | some (settings, sources, destination) =>
    if 1 < sources.length ∧ !shell.vault.isDirectory (shell.resolve destination) then []
    else shell.copies settings destination sources

variable {settings : CopySettings} {shell : Shell} {source destination : String}
  {sources arguments : List String}

/-- **What comes of one source**: nothing at all, or a copy. -/
theorem copied?_cases (settings : CopySettings) (shell : Shell) (source destination : String) :
    let after := (copyOperand settings shell source destination).1
    (shell.copied? settings.recursive source destination = none ∧ after = shell) ∨
      ∃ copy, shell.copied? settings.recursive source destination = some copy ∧
        copy.Made settings.recursive shell after := by
  intro after
  have after_eq : after = (copyNode settings.recursive shell source destination).1 :=
    copyOperand_fst settings shell source destination
  rcases (copyNode_outcome settings.recursive shell source destination).cases with
    ⟨vault, _, @⟨node, target, _, may, placed⟩, made⟩ | ⟨_, ⟨failure, rfl, -⟩, refused⟩
  · rw [made] at after_eq
    refine Or.inr ⟨⟨target, node, shell.vault.find? target⟩, ?_, ?_⟩
    · simp only [copied?, made, may.found, Option.map_some]
    · exact
        { canonical := isCanonical_targetOf may.target_eq
          replaced_eq := rfl
          allowed := may.allowed
          file := (copyRefusal?_eq_none_iff.1 may.unrefused).2.2
          placed := by rw [after_eq]; exact placed }
  · rw [refused] at after_eq
    exact Or.inl ⟨by simp only [copied?, refused], after_eq⟩

/-- Every copy of a log was made. -/
theorem made_of_mem_copies {copy : Copy} (logged : copy ∈ shell.copies settings destination sources) :
    ∃ before after, copy.Made settings.recursive before after := by
  induction sources generalizing shell with
  | nil => cases logged
  | cons source rest ih =>
      rcases List.mem_append.1 logged with first | later
      · rcases copied?_cases settings shell source destination with ⟨nothing, -⟩ | ⟨made, heq, hmade⟩
        · simp [nothing] at first
        · obtain rfl : copy = made := by simpa [heq] using first
          exact ⟨_, _, hmade⟩
      · exact ih later

theorem afterCopies_cons (settings : CopySettings) (destination : String) (shell : Shell)
    (source : String) (rest : List String) :
    shell.afterCopies settings destination (source :: rest) =
      (copyOperand settings shell source destination).1.afterCopies settings destination rest := by
  unfold afterCopies
  rw [eachOperand_cons]

/-- **What is where after several copies.**  The induction takes the sources from the first one on: each
copy tells anew what the paths lead to that reach it. -/
theorem kindAt?_afterCopies (settings : CopySettings) (destination : String) (shell : Shell)
    (sources : List String) (path : String) :
    (shell.afterCopies settings destination sources).vault.kindAt? path =
      Copy.kindAfter? (shell.copies settings destination sources) path
        (shell.vault.kindAt? path) := by
  induction sources generalizing shell with
  | nil => rfl
  | cons source rest ih =>
      rw [afterCopies_cons, ih, copies]
      rcases copied?_cases settings shell source destination with ⟨nothing, same⟩ | ⟨copy, heq, made⟩
      · rw [nothing, same]
        rfl
      · rw [heq, made.kindAt?_after path]
        exact (Copy.kindAfter?_cons copy _ path _).symm

/-- Where every copy holds all that it replaced, everything is kept. -/
theorem keeps_afterCopies (settings : CopySettings) (destination : String) (shell : Shell)
    (sources : List String)
    (spare : ∀ copy ∈ shell.copies settings destination sources, copy.Spares) :
    shell.vault.Keeps (shell.afterCopies settings destination sources).vault := by
  induction sources generalizing shell with
  | nil => exact fun path kind before => before
  | cons source rest ih =>
      rw [afterCopies_cons]
      have later := ih (copyOperand settings shell source destination).1
        fun copy logged => spare copy (List.mem_append_right _ logged)
      rcases copied?_cases settings shell source destination with ⟨nothing, same⟩ | ⟨copy, heq, made⟩
      · rw [same] at later ⊢
        exact later
      · have first : copy.Spares := spare copy (List.mem_append_left _ (by simp [heq]))
        exact (made.keeps_iff.2 first).trans later

/-- The first copy of a log was made from the state that the line began with. -/
theorem made_of_copies_eq_cons {copy : Copy} {log : List Copy}
    (logged : shell.copies settings destination sources = copy :: log) :
    ∃ after, copy.Made settings.recursive shell after := by
  induction sources generalizing shell with
  | nil => cases logged
  | cons source rest ih =>
      rw [copies] at logged
      rcases copied?_cases settings shell source destination with ⟨nothing, same⟩ | ⟨first, heq, made⟩
      · rw [nothing, same] at logged
        exact ih logged
      · rw [heq] at logged
        obtain rfl : first = copy := List.head_eq_of_cons_eq logged
        exact ⟨_, made⟩

/-! ## Lines -/

/-- **A line of `cp` is its log**: it is refused as a whole and logs nothing, or its sources are copied
one after the other. -/
theorem copy_fst_cases (shell : Shell) (arguments : List String) :
    ((shell.copy arguments).1 = shell ∧ shell.copiesOf arguments = []) ∨
      ∃ sources destination,
        (shell.copy arguments).1 =
          shell.afterCopies (copySettings arguments) destination sources ∧
        shell.copiesOf arguments = shell.copies (copySettings arguments) destination sources := by
  rw [copy_fst]
  unfold copiesOf
  cases parts : copyParts? arguments with
  | none => exact Or.inl ⟨rfl, rfl⟩
  | some line =>
      obtain ⟨settings, sources, destination⟩ := line
      have settings_eq : settings = copySettings arguments := by
        unfold copyParts? at parts
        split at parts
        · obtain ⟨_, -, hline⟩ := Option.map_eq_some_iff.1 parts
          exact (congrArg Prod.fst hline).symm
        · cases parts
      subst settings_eq
      dsimp only
      split
      · exact Or.inl ⟨rfl, rfl⟩
      · exact Or.inr ⟨sources, destination, rfl, rfl⟩

theorem made_of_mem_copiesOf {copy : Copy} (logged : copy ∈ shell.copiesOf arguments) :
    ∃ before after, copy.Made (copySettings arguments).recursive before after := by
  rcases copy_fst_cases shell arguments with ⟨-, empty⟩ | ⟨sources, destination, -, log_eq⟩
  · rw [empty] at logged
    cases logged
  · rw [log_eq] at logged
    exact made_of_mem_copies logged

theorem made_of_copiesOf_eq_cons {copy : Copy} {log : List Copy}
    (logged : shell.copiesOf arguments = copy :: log) :
    ∃ after, copy.Made (copySettings arguments).recursive shell after := by
  rcases copy_fst_cases shell arguments with ⟨-, empty⟩ | ⟨sources, destination, -, log_eq⟩
  · rw [empty] at logged
    cases logged
  · rw [log_eq] at logged
    exact made_of_copies_eq_cons logged

/-- **What is where after a line of `cp`**: the last copy that reaches a path tells what it leads to. -/
theorem kindAt?_copy (shell : Shell) (arguments : List String) (path : String) :
    (shell.copy arguments).1.vault.kindAt? path =
      Copy.kindAfter? (shell.copiesOf arguments) path (shell.vault.kindAt? path) := by
  rcases copy_fst_cases shell arguments with ⟨same, empty⟩ | ⟨sources, destination, copied, logged⟩
  · rw [same, empty]
    rfl
  · rw [copied, logged]
    exact kindAt?_afterCopies _ destination shell sources path

/-- Everything is kept if each path that led somewhere leads to the same kind in the last copy that it
reaches, and in no other case. -/
theorem keeps_copy_iff (shell : Shell) (arguments : List String) :
    shell.vault.Keeps (shell.copy arguments).1.vault ↔
      ∀ path kind copy, shell.vault.kindAt? path = some kind →
        Copy.lastReaching? (shell.copiesOf arguments) path = some copy →
          copy.kindAt? path = some kind := by
  have told := kindAt?_copy shell arguments
  constructor
  · intro keeps path kind copy before last
    have kept := keeps path kind before
    rwa [told, Copy.kindAfter?, last] at kept
  · intro each path kind before
    rw [told, Copy.kindAfter?]
    split
    case h_1 copy last => exact each path kind copy before last
    case h_2 => exact before

theorem keeps_copy_of_spares (spare : ∀ copy ∈ shell.copiesOf arguments, copy.Spares) :
    shell.vault.Keeps (shell.copy arguments).1.vault := by
  rcases copy_fst_cases shell arguments with ⟨same, -⟩ | ⟨sources, destination, copied, logged⟩
  · rw [same]
    exact fun path kind before => before
  · rw [logged] at spare
    rw [copied]
    exact keeps_afterCopies _ destination shell sources spare

/-- A single copy is not mended by a later one. -/
theorem keeps_copy_iff_spares {copy : Copy} (single : shell.copiesOf arguments = [copy]) :
    shell.vault.Keeps (shell.copy arguments).1.vault ↔ copy.Spares := by
  obtain ⟨once, made⟩ := made_of_copiesOf_eq_cons single
  have same : ∀ path, (shell.copy arguments).1.vault.kindAt? path = once.vault.kindAt? path := by
    intro path
    rw [kindAt?_copy, single, Copy.kindAfter?_cons, made.kindAt?_after]
    rfl
  unfold Vault.Keeps
  simp only [same]
  exact made.keeps_iff

/-- **When `cp` keeps everything.**  For any state and any arguments: nothing disappears and nothing
changes its kind if and only if each path that led somewhere leads to the same kind in the last copy of
the line that it reaches.  That is so if every copy holds all that it replaced, and where the line makes
a single copy it is so in no other case.  A copy that does not hold all that it replaced is one of a
directory, made because the flag for that was given, over something that was there. -/
theorem copy_keeps_iff (shell : Shell) (arguments : List String) :
    let after := (shell.copy arguments).1
    let log := shell.copiesOf arguments
    (shell.vault.Keeps after.vault ↔
      ∀ path kind copy, shell.vault.kindAt? path = some kind →
        Copy.lastReaching? log path = some copy → copy.kindAt? path = some kind) ∧
    ((∀ copy ∈ log, copy.Spares) → shell.vault.Keeps after.vault) ∧
    (∀ copy, log = [copy] → (shell.vault.Keeps after.vault ↔ copy.Spares)) ∧
    ∀ copy ∈ log, ¬ copy.Spares →
      copy.node.isDirectory = true ∧ (copySettings arguments).recursive = true ∧
        copy.replaced.isSome = true := by
  refine ⟨keeps_copy_iff shell arguments, keeps_copy_of_spares, fun copy => keeps_copy_iff_spares, ?_⟩
  intro copy logged loses
  obtain ⟨_, _, made⟩ := made_of_mem_copiesOf logged
  exact made.of_not_spares loses

/-- A directory copied over one of its name takes away what only the old one held, and a directory
copied over a file takes the place of the file. -/
theorem not_keeps_copy_directory :
    let shell := Settings.standard.start.afterAll .standard ["mkdir -p x/vault/sub"]
    shell.vault.WellFormed ∧
      ¬ shell.vault.Keeps (shell.copy ["-r", "/vault", "/x"]).1.vault ∧
      ¬ shell.vault.Keeps (shell.copy ["-r", "vault", "readme.txt"]).1.vault := by
  intro shell
  refine ⟨wellFormed_afterAll _ _, ?_, ?_⟩
  · intro keeps
    have lost := keeps "/x/vault/sub" .directory (by decide +kernel)
    revert lost
    decide +kernel
  · intro keeps
    have changed := keeps "/readme.txt" .file (by decide +kernel)
    revert changed
    decide +kernel

end Shell

end VaultShell
