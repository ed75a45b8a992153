import VaultShell.Proofs.Shell.Removals
import VaultShell.Proofs.Shell.WellFormed

/-!
# `rmdir` removes directories that hold nothing

With the flag for it, `rmdir` walks up from an operand: once a directory is removed it goes on with the
one above, as long as that holds nothing either.  Which one is above it takes from the text of the
operand alone, while the vault is asked for the path that the text leads to.  The two need not agree.
What stands before the last slash of `a/../b` is `a/..`, which is no directory above `b`, and before the
last slash of `a//b` it is `a/`, the directory `a` under a longer name.

So nothing can be said about the walk from the tree.  That it ends, and how soon, follows from the text:
every round leaves a shorter one, with fewer slashes.  And that it does no harm follows from what each
round checks: whatever the text, what is removed is a directory that holds nothing and that the shell
does not work in.

## Main definitions

* `Shell.walk`: the walk, round by round, in a number of rounds
* `Shell.Mentions`: the texts that an operand stands for
* `Shell.RemovesEmpty`: what is left of the vault

## Main statements

* `Shell.walk_eq`: the walk ends in one round more than the operand has slashes, or before
* `Shell.removeDirectories_only_empty`: `rmdir` ends, and removes directories that hold nothing
-/

namespace VaultShell

namespace Shell

/-! ## The texts of an operand -/

theorem count_parentChars?_lt {operand parent : List Char} (h : parentChars? operand = some parent) :
    parent.count '/' < operand.count '/' := by
  obtain ⟨-, rest, rfl⟩ := parentChars?_eq_some h
  rw [List.count_append, List.count_cons_self]
  omega

/-- **A text that an operand stands for**: the operand itself, and with the flag for it every text that
is followed by a slash in it. -/
def Mentions (settings : RemoveDirectorySettings) (operand text : String) : Prop :=
  text = operand ∨ settings.parents = true ∧ text ≠ "" ∧
    ∃ rest, operand.toList = text.toList ++ '/' :: rest

/-- Where the walk goes on from a text, if it does. -/
def above? (settings : RemoveDirectorySettings) (text : String) : Option String :=
  if settings.parents then (parentChars? text.toList).map String.ofList else none

/-- The texts that the walk goes through. -/
def walkTexts (settings : RemoveDirectorySettings) (operand : String) : List String :=
  if settings.parents then ancestry operand else [operand]

theorem ancestry_of_eq_none {operand : String} (top : parentChars? operand.toList = none) :
    ancestry operand = [operand] := by
  unfold ancestry
  rw [ancestryChars]
  split
  · rw [List.map_singleton, String.ofList_toList]
  case h_2 parent found =>
    rw [top] at found
    cases found

theorem ancestry_of_eq_some {operand : String} {parent : List Char}
    (found : parentChars? operand.toList = some parent) :
    ancestry operand = operand :: ancestry (String.ofList parent) := by
  unfold ancestry
  rw [ancestryChars]
  split
  case h_1 top =>
    rw [top] at found
    cases found
  case h_2 other same =>
    obtain rfl : other = parent := Option.some.inj (same.symm.trans found)
    rw [List.map_cons, String.ofList_toList, String.toList_ofList]

/-- The walk goes through the texts in the order in which they lie above each other. -/
theorem walkTexts_eq (settings : RemoveDirectorySettings) (operand : String) :
    walkTexts settings operand =
      operand :: ((above? settings operand).map (walkTexts settings)).getD [] := by
  unfold walkTexts above?
  cases settings.parents with
  | false => rfl
  | true =>
      cases found : parentChars? operand.toList with
      | none => exact ancestry_of_eq_none found
      | some parent => exact ancestry_of_eq_some found

theorem mentions_of_mem_walkTexts {settings : RemoveDirectorySettings} {operand text : String}
    (h : text ∈ walkTexts settings operand) : Mentions settings operand text := by
  unfold walkTexts at h
  split at h
  case isFalse => exact Or.inl (List.mem_singleton.1 h)
  case isTrue parents =>
    obtain ⟨chars, hchars, rfl⟩ := List.mem_map.1 h
    rcases mem_ancestryChars hchars with rfl | ⟨something, rest, hrest⟩
    · exact Or.inl String.ofList_toList
    · refine Or.inr ⟨parents, ?_, rest, by rw [hrest, String.toList_ofList]⟩
      intro empty
      exact something (by rw [← String.toList_ofList (l := chars), empty]; rfl)

/-! ## The walk -/

/-- **The walk, round by round.**  The directory that a text names is removed; if that was done and the
walk goes on from the text, then the next round has what it goes on with.  Nothing comes of a walk that
is not over when its rounds are. -/
def walk (settings : RemoveDirectorySettings) : Nat → Shell → String → Option (Shell × List String)
  | 0, _, _ => none
  | rounds + 1, shell, text =>
    match shell.removeEmpty (shell.resolve text) with
    | (after, .ok true) =>
      let said := if settings.verbose then [s!"rmdir: removing directory, '{text}'"] else []
      match above? settings text with
      | none => some (after, said)
      | some next =>
        (walk settings rounds after next).map fun (final, report) => (final, said ++ report)
    | (after, .ok false) => some (after, [])
    | (after, .error fault) =>
      if fault = .notEmpty ∧ settings.ignoreNotEmpty then some (after, [])
      else some (after, [s!"rmdir: failed to remove '{text}': {fault.message}"])

/-- **Every round has fewer slashes.** -/
theorem count_above?_lt {settings : RemoveDirectorySettings} {text next : String}
    (goesOn : above? settings text = some next) :
    next.toList.count '/' < text.toList.count '/' := by
  unfold above? at goesOn
  split at goesOn
  · obtain ⟨parent, found, rfl⟩ := Option.map_eq_some_iff.1 goesOn
    rw [String.toList_ofList]
    exact count_parentChars?_lt found
  · cases goesOn

/-- **The walk ends in one round more than the operand has slashes, or before**, whatever the operand and
whatever the state, and it is then what `rmdir` does for the operand. -/
theorem walk_eq (settings : RemoveDirectorySettings) {rounds : Nat} (shell : Shell) {operand : String}
    (enough : operand.toList.count '/' < rounds) :
    walk settings rounds shell operand = some (removeDirectoryOperand settings shell operand) := by
  induction rounds generalizing shell operand with
  | zero => exact absurd enough (Nat.not_lt_zero _)
  | succ rounds ih =>
      show _ = some (removeChain settings shell (walkTexts settings operand))
      rw [walkTexts_eq, walk, removeChain]
      rcases shell.removeEmpty (shell.resolve operand) with ⟨after, fault | _ | _⟩
      · show (if _ then _ else _) = some (if _ then _ else _)
        split <;> rfl
      · rfl
      · cases goesOn : above? settings operand with
        | none => simp [removeChain]
        | some next =>
            -- The next text has fewer slashes, so the rounds that are left are enough for it.
            have fewer := count_above?_lt goesOn
            have later := @ih after next (by omega)
            simp only [later]
            rfl

/-! ## What is removed -/

/-- What `rmdir` may take: something that was named, and it is a directory that holds nothing. -/
structure MayRemoveEmpty (named : String → Prop) (path : String) (node : Node) : Prop where
  named : named path
  empty : ∃ attributes, node = .directory attributes []

theorem MayRemoveEmpty.bare_eq {named : String → Prop} {path : String} {node : Node}
    (may : MayRemoveEmpty named path node) : node.bare = node := by
  obtain ⟨attributes, rfl⟩ := may.empty
  rfl

/-- A path that the walk from one of the operands may come to. -/
def Reached (settings : RemoveDirectorySettings) (operands : List String) (shell : Shell)
    (path : String) : Prop :=
  ∃ operand ∈ operands, ∃ text, Mentions settings operand text ∧ shell.resolve text = path

/-- **What `rmdir` leaves of the vault** when it is called for some operands. -/
structure RemovesEmpty (settings : RemoveDirectorySettings) (operands : List String)
    (shell after : Shell) : Prop where
  /-- Every file is where it was, and no other file is there. -/
  files : ∀ path attributes content,
    after.vault.bareAt? path = some (.file attributes content) ↔
      shell.vault.bareAt? path = some (.file attributes content)
  /-- What is missing is a directory that an operand mentions, and nothing beneath it is left. -/
  directories : ∀ path, shell.vault.has path = true → after.vault.has path = false →
    shell.vault.isDirectory path = true ∧
    (∃ operand ∈ operands, ∃ text, Mentions settings operand text ∧ shell.Names text path) ∧
    ∀ inner, Path.Within inner path → after.vault.has inner = false
  /-- Every other path shows what it showed. -/
  same : ∀ path, (shell.vault.has path = true → after.vault.has path = true) →
    after.vault.bareAt? path = shell.vault.bareAt? path
  /-- The working directory is left, and so is every directory above it. -/
  above : shell.HasDirectory → ∀ path, Path.Within shell.cwd path →
    after.vault.isDirectory path = true
  /-- Of the state only the vault has changed. -/
  state_eq : after = shell.withVault after.vault

variable {settings : RemoveDirectorySettings} {shell after : Shell} {operands paths : List String}
  {named : String → Prop}

/-- **What comes of a round**: nothing, or a directory is removed that holds nothing and that the shell
does not work in. -/
theorem removeEmpty_cases (shell : Shell) {path : String} (canonical : Path.IsCanonical path) :
    ((shell.removeEmpty path).1 = shell ∧ (shell.removeEmpty path).2 ≠ .ok true) ∨
    ∃ attributes vault, shell.vault.remove path = .ok (.directory attributes [], vault) ∧
      Path.isUnder shell.cwd path = false ∧
      shell.removeEmpty path = (shell.withVault vault, .ok true) := by
  rcases (shell.removeEmpty_outcome path).cases with
    ⟨vault, _, missing | ⟨found, apart, removed⟩, done⟩ | ⟨_, ⟨fault, rfl⟩, refused⟩
  · exact Or.inl (by simp [done])
  · obtain rfl := eq_of_find?_of_remove canonical found removed
    exact Or.inr ⟨_, vault, removed, apart, done⟩
  · exact Or.inl (by simp [refused])

/-- A round without success is the last one. -/
theorem removeChain_cons_of_ne {text : String} (rest : List String)
    (unsuccessful : (shell.removeEmpty (shell.resolve text)).2 ≠ .ok true) :
    (removeChain settings shell (text :: rest)).1 = (shell.removeEmpty (shell.resolve text)).1 := by
  rw [removeChain]
  generalize shell.removeEmpty (shell.resolve text) = outcome at unsuccessful ⊢
  rcases outcome with ⟨after, fault | _ | _⟩
  · dsimp only
    split <;> rfl
  · rfl
  · exact absurd rfl unsuccessful

/-- **The rounds of a walk make a chain of removals**, whatever texts they are for. -/
theorem exists_removals_removeChain (settings : RemoveDirectorySettings) {texts : List String}
    (hnamed : ∀ text ∈ texts, named (shell.resolve text)) :
    ∃ paths, Removals (MayRemoveEmpty named) paths shell (removeChain settings shell texts).1 := by
  induction texts generalizing shell with
  | nil => exact ⟨[], .nil shell⟩
  | cons text rest ih =>
      have canonical := shell.isCanonical_resolve text
      rcases removeEmpty_cases shell canonical with
        ⟨same, unsuccessful⟩ | ⟨attributes, vault, removed, apart, done⟩
      · rw [removeChain_cons_of_ne rest unsuccessful, same]
        exact ⟨[], .nil shell⟩
      · have later : ∃ paths, Removals (MayRemoveEmpty named) paths (shell.withVault vault)
            (removeChain settings (shell.withVault vault) rest).1 :=
          ih fun other member => hnamed other (List.mem_cons_of_mem text member)
        obtain ⟨paths, chain⟩ := later
        rw [removeChain, done]
        exact ⟨shell.resolve text :: paths, .cons canonical
          ⟨hnamed text List.mem_cons_self, attributes, rfl⟩ (fun _ => apart) removed chain⟩

/-- The operands make one chain, each of them going on from the state that the one before it left. -/
theorem exists_removals_eachOperand (settings : RemoveDirectorySettings)
    (hnamed : ∀ operand ∈ operands, ∀ text, Mentions settings operand text →
      named (shell.resolve text)) :
    ∃ paths, Removals (MayRemoveEmpty named) paths shell
      (shell.eachOperand (removeDirectoryOperand settings) operands).1 := by
  induction operands generalizing shell with
  | nil => exact ⟨[], .nil shell⟩
  | cons operand rest ih =>
      have single : ∃ paths, Removals (MayRemoveEmpty named) paths shell
          (removeDirectoryOperand settings shell operand).1 :=
        exists_removals_removeChain settings fun text member =>
          hnamed operand List.mem_cons_self text (mentions_of_mem_walkTexts member)
      obtain ⟨paths, first⟩ := single
      have later : ∀ other ∈ rest, ∀ text, Mentions settings other text →
          named ((removeDirectoryOperand settings shell operand).1.resolve text) := by
        intro other member text mentioned
        rw [first.resolve_eq]
        exact hnamed other (List.mem_cons_of_mem operand member) text mentioned
      obtain ⟨more, second⟩ := ih later
      rw [eachOperand_cons]
      exact ⟨paths ++ more, first.append second⟩

/-- **Every line makes a chain of removals**, of none if it is a request for help or not understood. -/
theorem exists_removals_removeDirectories (shell : Shell) (arguments : List String) :
    ∃ paths, Removals
      (MayRemoveEmpty (Reached (removeDirectorySettings arguments) (operandsOf arguments) shell))
      paths shell (shell.removeDirectories arguments).1 := by
  unfold removeDirectories
  split
  · exact ⟨[], .nil shell⟩
  · split
    · exact ⟨[], .nil shell⟩
    · split
      · exact ⟨[], .nil shell⟩
      · refine exists_removals_eachOperand (removeDirectorySettings arguments) ?_
        exact fun operand given text mentioned => ⟨operand, given, text, mentioned, rfl⟩

/-- **What a chain of such removals leaves.** -/
theorem Removals.removesEmpty
    (removals : Removals (MayRemoveEmpty (Reached settings operands shell)) paths shell after)
    (wellFormed : shell.vault.WellFormed) (canonical : Path.IsCanonical shell.cwd) :
    RemovesEmpty settings operands shell after := by
  have pruned := removals.pruned wellFormed
  have taken : ∀ path seen, shell.vault.bareAt? path = some seen →
      after.vault.bareAt? path = none → (∃ attributes, seen = .directory attributes []) ∧
        ∃ operand ∈ operands, ∃ text, Mentions settings operand text ∧ shell.Names text path := by
    intro path seen there missing
    obtain ⟨place, same, may⟩ :=
      removals.may_of_missing wellFormed (fun _ _ may => may.bare_eq) there missing
    obtain ⟨operand, given, text, mentioned, rfl⟩ := may.named
    exact ⟨may.empty, operand, given, text, mentioned, same⟩
  refine
    { files := ?_
      directories := ?_
      same := ?_
      above := ?_
      state_eq := removals.state_eq }
  · intro path attributes content
    refine ⟨fun there => pruned.bareAt?_eq_some there, ?_⟩
    intro there
    cases left : after.vault.bareAt? path with
    | none =>
        obtain ⟨⟨_, directory⟩, -⟩ := taken path _ there left
        cases directory
    | some seen => exact (pruned.bareAt?_eq_some left).symm.trans there
  · intro path there missing
    obtain ⟨seen, found⟩ := Vault.has_eq_true_iff.1 there
    have missing := Vault.has_eq_false_iff.1 missing
    obtain ⟨⟨attributes, rfl⟩, mentioned⟩ := taken path seen found missing
    refine ⟨?_, mentioned, ?_⟩
    · rw [Vault.isDirectory_eq_true_iff, Vault.kindAt?, Node.kindAt?_eq, ← Vault.bareAt?, found]
      rfl
    · intro inner within
      have gone := Vault.kindAt?_eq_none_of_within (Node.kindAt?_eq_none_iff.2 missing) within
      exact Vault.has_eq_false_iff.2 (Node.kindAt?_eq_none_iff.1 gone)
  · intro path kept
    cases there : shell.vault.bareAt? path with
    | none => exact pruned.bareAt?_eq_none there
    | some seen =>
        obtain ⟨left, found⟩ :=
          Vault.has_eq_true_iff.1 (kept (Vault.has_eq_true_iff.2 ⟨seen, there⟩))
        rw [found]
        exact (pruned.bareAt?_eq_some found).symm.trans there
  · intro directory path within
    have left : after.vault.isDirectory after.cwd = true := removals.hasDirectory canonical directory
    rw [removals.cwd_eq] at left
    exact Node.isDirectoryAt_of_prefix left within

/-! ## Lines -/

/-- **`rmdir` ends, and removes directories that hold nothing.**  For any operand in any state the walk
is over in one round more than the operand has slashes, and it is what `rmdir` does for the operand.  In
a well-formed vault, with a canonical working directory and for any arguments, what is left is what
`RemovesEmpty` says. -/
theorem removeDirectories_only_empty (wellFormed : shell.vault.WellFormed)
    (canonical : Path.IsCanonical shell.cwd) (arguments : List String) :
    let settings := removeDirectorySettings arguments
    (∀ state operand rounds, operand.toList.count '/' < rounds →
      walk settings rounds state operand = some (removeDirectoryOperand settings state operand)) ∧
    RemovesEmpty settings (operandsOf arguments) shell (shell.removeDirectories arguments).1 := by
  intro settings
  refine ⟨fun state operand rounds enough => walk_eq settings state enough, ?_⟩
  obtain ⟨paths, removals⟩ := exists_removals_removeDirectories shell arguments
  exact removals.removesEmpty wellFormed canonical

/-- What stands before the last slash of `a//b` is `a/`, and that leads to `a`. -/
theorem removeDirectories_only_empty_slashes :
    let shell := Settings.standard.start.afterAll .standard ["mkdir -p a/b"]
    let after := (shell.removeDirectories ["-p", "a//b/"]).1
    shell.vault.has "/a" = true ∧ after.vault.has "/a" = false ∧
      ∀ inner, Path.Within inner "/a" → after.vault.has inner = false := by
  intro shell after
  have wellFormed : shell.vault.WellFormed := wellFormed_afterAll _ _
  have there : shell.vault.has "/a" = true := by decide +kernel
  have missing : after.vault.has "/a" = false := by decide +kernel
  obtain ⟨-, left⟩ := removeDirectories_only_empty wellFormed (by decide +kernel) ["-p", "a//b/"]
  obtain ⟨-, -, beneath⟩ := left.directories "/a" there missing
  exact ⟨there, missing, beneath⟩

end Shell

end VaultShell
