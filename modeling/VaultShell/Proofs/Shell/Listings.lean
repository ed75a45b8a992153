import VaultShell.Proofs.Path.Composition
import VaultShell.Proofs.Shell.Operands
import VaultShell.Proofs.Shell.WellFormed
import VaultShell.Proofs.Text.Pieces

/-!
# Reading a listing

`ls` prints names with a line feed or two spaces between them, and nothing in the text says where a name
ends.  A name with a blank in it could not be told from two names, and one that is empty not from none.

Neither can be in the vault.  Every name there was once the last part of a path that somebody typed, and
such a path has no blanks, since it was a word of a line or was put together from words.  Copies and
moves take old names along and give a new one only at the top, which is of the same origin.  So from a
listing in either form the names can be read off, and what a line has created is found in the next one.

## Main definitions

* `Shell.BlanklessNames`: no name in the vault has a blank
* `Vault.childNames`, `Shell.shownNames`: the names of the children, and those that `ls` shows
* `Shell.Shows`: what is printed, and the names that are read off

## Main statements

* `Shell.blanklessNames_afterAll`: after every run of lines no name has a blank
* `Shell.shows_operand`: the names that flags ask for are read off the listing
* `Shell.exists_created`: what `mkdir` and `touch` do with a new name
* `Shell.listings_unambiguous`: listings after every run of lines
-/

namespace VaultShell

open Text (Blankless)

/-! ## Names without blanks -/

/-- The resources have names without blanks, and so have the nodes that hold them. -/
theorem Vault.blanklessNames_initial (time : Instant) :
    (Vault.initial time).root.Everywhere fun node => Blankless node.name := by
  have root : Blankless Path.root := by decide
  have readme : Blankless "readme.txt" := by decide
  have resources : Blankless "vault" := by decide
  have resource : ∀ name ∈ initialResources, Blankless name := by decide
  exact Vault.everywhere_initial root readme resources resource

/-- The names of the children of the directory at a path, none if there is no directory. -/
def Vault.childNames (vault : Vault) (path : String) : List String :=
  match vault.find? path with
  | some (.directory _ children) => Catalog.names children
  | _ => []

theorem Vault.childNames_eq {vault : Vault} {path : String} {attributes : Attributes}
    {children : List (String × Node)}
    (found : vault.find? path = some (.directory attributes children)) :
    vault.childNames path = Catalog.names children := by
  simp only [childNames, found]

namespace Shell

/-- **No name in the vault has a blank.** -/
def BlanklessNames (shell : Shell) : Prop :=
  shell.vault.root.Everywhere fun node => Blankless node.name

/-- **No move gives a name with a blank.** -/
theorem Move.blanklessNames {copies : Prop} {shell after : Shell} (move : Move copies shell after)
    (h : shell.BlanklessNames) : after.BlanklessNames := by
  refine move.everywhere ?_ ?_ ?_ ?_ h
  · intro node held
    rwa [Node.name_stamp]
  · intro node name blankless _
    rwa [Node.name_rename]
  · exact fun name blankless => blankless
  · exact fun name blankless => blankless

/-- **No run of lines gives a name with a blank.** -/
theorem blanklessNames_afterAll (settings : Settings) (lines : List String) :
    (settings.start.afterAll .standard lines).BlanklessNames :=
  afterAll_invariant (fun _ h => h) (fun _ _ _ move h => move.blanklessNames h)
    (typed_fresh settings.identity settings.epochOrOrigin) (Vault.blanklessNames_initial _) lines

/-- What a listing shows as a name: it is not empty, and no separator begins in it. -/
def Legible (name : String) : Prop :=
  name ≠ "" ∧ Blankless name

/-- Where no name has a blank, the names of children are in order and legible. -/
theorem BlanklessNames.names {shell : Shell} (h : shell.BlanklessNames)
    (wellFormed : shell.vault.WellFormed) {path : String} {attributes : Attributes}
    {children : List (String × Node)}
    (found : shell.vault.find? path = some (.directory attributes children)) :
    (Catalog.names children).Pairwise (· < ·) ∧ ∀ name ∈ Catalog.names children, Legible name := by
  have everywhere : (Node.directory attributes children).Everywhere fun node => Blankless node.name :=
    Node.Everywhere.find? h found
  cases wellFormed.tree.find? found with
  | directory _ sorted named beneath =>
      cases everywhere with
      | directory here inside =>
          refine ⟨List.pairwise_map.2 sorted, ?_⟩
          intro name hname
          obtain ⟨member, hmember, rfl⟩ := List.mem_map.1 hname
          obtain ⟨same, isName⟩ := named member hmember
          have blankless := (inside member hmember).bare
          have nameEq : member.2.bare.name = member.2.name := by cases member.2 <;> rfl
          rw [nameEq, same] at blankless
          exact ⟨isName.1, blankless⟩

/-! ## Listings of a directory -/

variable {shell : Shell} {arguments flags : List String} {operand : String} {settings : ListSettings}
  {attributes : Attributes} {children : List (String × Node)}

/-- The names that are shown of a directory with these children. -/
def shownNames (settings : ListSettings) (children : Catalog Node) : List String :=
  if settings.showAll then "." :: ".." :: Catalog.names children
  else (Catalog.names children).filter (!isHidden ·)

/-- What stands between two names. -/
def nameSeparator (settings : ListSettings) : String :=
  if settings.onePerLine then "\n" else "  "

theorem legible_of_mem_shownNames (legible : ∀ name ∈ Catalog.names children, Legible name) :
    ∀ name ∈ shownNames settings children, Legible name := by
  unfold shownNames
  split
  · have here : Legible "." := ⟨by decide, by decide⟩
    have above : Legible ".." := ⟨by decide, by decide⟩
    exact List.forall_mem_cons.2 ⟨here, List.forall_mem_cons.2 ⟨above, legible⟩⟩
  · exact fun name member => legible name (List.mem_filter.1 member).1

/-- **Names that are legible are read off**, whichever separator they are printed with. -/
theorem pieces_nameSeparator {names : List String} (legible : ∀ name ∈ names, Legible name)
    (settings : ListSettings) :
    Text.pieces (nameSeparator settings) ((nameSeparator settings).intercalate names) = names := by
  have absent : ∀ {c : Char}, Text.isBlank c = true → ∀ name ∈ names, name ≠ "" ∧ c ∉ name.toList := by
    intro c blank name member
    obtain ⟨something, blankless⟩ := legible name member
    refine ⟨something, ?_⟩
    intro inside
    rw [blankless c inside] at blank
    cases blank
  unfold nameSeparator
  split
  · exact Text.pieces_intercalate (show "\n".toList = ['\n'] from rfl) (absent (by decide))
  · exact Text.pieces_intercalate (show "  ".toList = [' ', ' '] from rfl) (absent (by decide))

/-- **`ls` of a directory in short form**: the names that are shown, and nothing else. -/
theorem list_directory
    (found : shell.vault.find? (shell.resolve operand) = some (.directory attributes children))
    (first : (operandsOf arguments).headD "." = operand) (noHelp : helpFlag ∉ arguments)
    (reads : listSettings arguments = settings) (short : settings.long = false) :
    shell.list arguments =
      .ok ((nameSeparator settings).intercalate (shownNames settings children)) := by
  have rows : (shell.listRows settings operand (shell.resolve operand)
      (.directory attributes children)).map Prod.fst = shownNames settings children := by
    simp only [listRows, shownNames]
    split
    · rfl
    · rw [Catalog.names, List.filter_map]
      rfl
  unfold list
  simp only [noHelp, if_false, first, found, reads]
  rw [listText, short, rows]
  rfl

/-- **What is printed and read off**: `ls` with the arguments leaves the state alone and prints a text
whose pieces between the separators are the names; and so does every line with these words, a minute
later. -/
def Shows (shell : Shell) (arguments : List String) (separator : String) (names : List String) :
    Prop :=
  ∃ text, Text.pieces separator text = names ∧ ∀ wallClock,
    Command.ls.execute wallClock shell arguments = (shell, .ok text) ∧
    ∀ line, Text.words line = "ls" :: arguments →
      shell.run .standard wallClock line = (shell.tick, .output text)

theorem shows_directory
    (found : shell.vault.find? (shell.resolve operand) = some (.directory attributes children))
    (legible : ∀ name ∈ Catalog.names children, Legible name)
    (first : (operandsOf arguments).headD "." = operand) (noHelp : helpFlag ∉ arguments)
    (reads : listSettings arguments = settings) (short : settings.long = false) :
    shell.Shows arguments (nameSeparator settings) (shownNames settings children) := by
  refine ⟨_, pieces_nameSeparator (legible_of_mem_shownNames legible) settings, ?_⟩
  intro wallClock
  refine ⟨?_, ?_⟩
  · exact congrArg (Prod.mk shell) (list_directory found first noHelp reads short)
  · intro line words
    -- The time has no part in a listing of this form.
    have foundLater : shell.tick.vault.find? (shell.tick.resolve operand) =
        some (.directory attributes children) := found
    have printed := list_directory foundLater first noHelp reads short
    have named : Text.words line = Command.ls.name :: arguments := words
    rw [run_of_words named rfl]
    show (shell.tick, Reply.output (resultText (shell.tick.list arguments))) = _
    rw [printed]
    rfl

/-- **The names that flags ask for are read off** the listing of an operand. -/
theorem shows_operand
    (found : shell.vault.find? (shell.resolve operand) = some (.directory attributes children))
    (legible : ∀ name ∈ Catalog.names children, Legible name) (given : isFlag operand = false)
    (all : ∀ flag ∈ flags, isFlag flag = true) (noHelp : helpFlag ∉ flags)
    (reads : listSettings flags = settings) (short : settings.long = false) :
    shell.Shows (flags ++ [operand]) (nameSeparator settings) (shownNames settings children) := by
  have flagsOnly : flagsOf flags = flags := List.filter_eq_self.2 all
  have flags_eq : flagsOf (flags ++ [operand]) = flags := by
    rw [flagsOf_append, flagsOf_cons_operand given, flagsOnly]
    exact List.append_nil flags
  have first : (operandsOf (flags ++ [operand])).headD "." = operand := by
    rw [← flagsOnly, operandsOf_append, operandsOf_flagsOf, operandsOf_cons_operand given]
    rfl
  refine shows_directory found legible first ?_ ?_ short
  · rwa [← helpFlag_mem_flagsOf, flags_eq]
  · rw [← listSettings_flagsOf, flags_eq, reads]

/-- The same for the working directory, with no arguments at all. -/
theorem shows_here (named : shell.BlanklessNames) (wellFormed : shell.vault.WellFormed)
    (canonical : Path.IsCanonical shell.cwd)
    (standing : shell.vault.find? shell.cwd = some (.directory attributes children)) :
    shell.Shows [] "  " ((Catalog.names children).filter (!isHidden ·)) := by
  have found : shell.vault.find? (shell.resolve ".") = some (.directory attributes children) := by
    rw [resolve, Path.resolve_here canonical, standing]
  have reads : listSettings [] = ⟨false, false, false⟩ := by decide
  have shows := shows_directory found (named.names wellFormed standing).2 rfl List.not_mem_nil reads rfl
  exact shows

/-! ## A new name -/

variable {name : String}

/-- **`mkdir` and `touch` with a new name** put one more node among the children of the working
directory, and leave the directory itself as it was. -/
theorem exists_created (canonical : Path.IsCanonical shell.cwd)
    (standing : shell.vault.find? shell.cwd = some (.directory attributes children))
    (isName : Path.IsName name) (notTilde : name ≠ "~") (given : isFlag name = false)
    (free : Catalog.get? children name = none) (wallClock : String) :
    ∀ command ∈ [Command.mkdir, .touch], ∃ vault node,
      (command.execute wallClock shell [name]).1 = shell.withVault vault ∧
      vault.find? shell.cwd = some (.directory attributes (Catalog.put children name node)) := by
  have resolved : shell.resolve name = Path.join shell.cwd name :=
    Path.resolve_name canonical isName notTilde
  have nothing : shell.vault.find? (Path.join shell.cwd name) = none :=
    (Vault.find?_join canonical isName standing).trans free
  have filled := Vault.exists_create_join canonical isName standing free
  refine List.forall_mem_cons.2 ⟨?_, List.forall_mem_singleton.2 ?_⟩
  · obtain ⟨vault, created, found⟩ := filled fun name => .newDirectory name shell.clock
    refine ⟨vault, _, ?_, found⟩
    have creates : shell.vault.createDirectory (Path.join shell.cwd name) shell.clock = .ok vault :=
      created
    have alone : (makeSettings []).parents = false := by decide
    rw [← resolved] at nothing creates
    have granted := (shell.makeDirectory_outcome name).granted _ _
      (.created (by rw [Vault.has, nothing]; rfl) creates)
    rw [Command.execute_operand rfl given, makeOperand_fst, alone, if_neg Bool.false_ne_true, granted]
  · obtain ⟨vault, created, found⟩ := filled fun other => .newFile other (placeholder name) shell.clock
    refine ⟨vault, _, ?_, found⟩
    have split : Path.split (Path.join shell.cwd name) = .ok (shell.cwd, name) :=
      (Path.join_eq canonical isName).2.2
    have creates : createPlaceholder shell.vault (Path.join shell.cwd name) shell.clock = .ok vault := by
      simp only [createPlaceholder, split]
      exact created
    rw [← resolved] at nothing creates
    have granted := (touchOperand_outcome (hasFlag ["-c", "--no-create"] []) shell name).granted _ _
      (.created (Vault.stamp?_eq_none nothing _) (by decide) creates)
    rw [Command.execute_operand rfl given]
    exact congrArg Prod.fst granted

/-- The same for a line with these words. -/
theorem exists_after_created (canonical : Path.IsCanonical shell.cwd)
    (standing : shell.vault.find? shell.cwd = some (.directory attributes children))
    (isName : Path.IsName name) (notTilde : name ≠ "~") (given : isFlag name = false)
    (free : Catalog.get? children name = none) {line : String}
    (words : Text.words line = ["mkdir", name] ∨ Text.words line = ["touch", name]) :
    ∃ vault node, shell.after .standard line = shell.tick.withVault vault ∧
      vault.find? shell.cwd = some (.directory attributes (Catalog.put children name node)) := by
  have canonicalLater : Path.IsCanonical shell.tick.cwd := canonical
  have creations := exists_created canonicalLater standing isName notTilde given free ""
  unfold Shell.after
  rcases words with words | words
  · have named : Text.words line = Command.mkdir.name :: [name] := words
    rw [run_of_words named rfl]
    exact creations .mkdir List.mem_cons_self
  · have named : Text.words line = Command.touch.name :: [name] := words
    rw [run_of_words named rfl]
    exact creations .touch (List.mem_cons_of_mem _ List.mem_cons_self)

/-- **A name that is not hidden is one more** among the names that are shown. -/
theorem shown_put_perm (free : Catalog.get? children name = none) (seen : isHidden name = false)
    (node : Node) :
    ((Catalog.names (Catalog.put children name node)).filter (!isHidden ·)).Perm
      (name :: (Catalog.names children).filter (!isHidden ·)) := by
  have names : (Catalog.names (Catalog.put children name node)).Perm
      (name :: Catalog.names children) :=
    (Catalog.put_perm free node).map Prod.fst
  have shown := names.filter (!isHidden ·)
  rwa [List.filter_cons_of_pos (by simp [seen])] at shown

/-- **Listings are unambiguous.**  After every run of lines, under any settings, the names of the children
of a directory are in the order of their code points, and they are read off a listing: those that are not
hidden, or all of them behind the two full stops, in one line and in several.  So if `mkdir` or `touch`
is given a new name in the working directory, the next listing shows that name and otherwise the names
that were shown before. -/
theorem listings_unambiguous (settings : Settings) (lines : List String) :
    let shell := settings.start.afterAll .standard lines
    (∀ operand, isFlag operand = false → shell.vault.isDirectory (shell.resolve operand) = true →
      let all := shell.vault.childNames (shell.resolve operand)
      let visible := all.filter (!isHidden ·)
      all.Pairwise (· < ·) ∧
      shell.Shows [operand] "  " visible ∧
      shell.Shows ["-1", operand] "\n" visible ∧
      shell.Shows ["-a", operand] "  " ("." :: ".." :: all) ∧
      ∀ flags ∈ [["-1", "-a"], ["-a", "-1"], ["-1a"], ["-a1"]],
        shell.Shows (flags ++ [operand]) "\n" ("." :: ".." :: all)) ∧
    (shell.vault.isDirectory shell.cwd = true →
      ∀ name, '/' ∉ name.toList → name ≠ "~" → name.toList.head? ≠ some '.' →
        name.toList.head? ≠ some '-' → name ∉ shell.vault.childNames shell.cwd →
        ∀ line, Text.words line = ["mkdir", name] ∨ Text.words line = ["touch", name] →
          let before := (shell.vault.childNames shell.cwd).filter (!isHidden ·)
          ∃ now, shell.Shows [] "  " before ∧ (shell.after .standard line).Shows [] "  " now ∧
            now.Perm (name :: before) ∧ now.Pairwise (· < ·)) := by
  intro shell
  have named : shell.BlanklessNames := blanklessNames_afterAll settings lines
  have wellFormed : shell.vault.WellFormed := wellFormed_afterAll settings lines
  have typed : shell.Typed :=
    afterAll_typed (typed_fresh settings.identity settings.epochOrOrigin) lines
  refine ⟨?_, ?_⟩
  · intro operand given directory all visible
    obtain ⟨attributes, children, found⟩ := Node.isDirectoryAt_eq_true.1 directory
    have found : shell.vault.find? (shell.resolve operand) = some (.directory attributes children) :=
      found
    obtain ⟨ordered, legible⟩ := named.names wellFormed found
    have shows : ∀ (flags : List String) (settings : ListSettings),
        ((∀ flag ∈ flags, isFlag flag = true) ∧ helpFlag ∉ flags ∧ listSettings flags = settings) →
        settings.long = false →
        shell.Shows (flags ++ [operand]) (nameSeparator settings) (shownNames settings children) :=
      fun flags settings known => shows_operand found legible given known.1 known.2.1 known.2.2
    have none := shows [] ⟨false, false, false⟩ (by decide) rfl
    have single := shows ["-1"] ⟨false, false, true⟩ (by decide) rfl
    have lettered := shows ["-a"] ⟨true, false, false⟩ (by decide) rfl
    have names : all = Catalog.names children := Vault.childNames_eq found
    simp only [visible, names]
    refine ⟨ordered, none, single, lettered, ?_⟩
    intro flags member
    have known : (∀ flag ∈ flags, isFlag flag = true) ∧ helpFlag ∉ flags ∧
        listSettings flags = ⟨true, false, true⟩ := by
      revert flags member
      decide
    have both := shows flags ⟨true, false, true⟩ known rfl
    exact both
  · intro directory name noSlash notTilde noStop noHyphen new line words before
    obtain ⟨attributes, children, standing⟩ := Node.isDirectoryAt_eq_true.1 directory
    have standing : shell.vault.find? shell.cwd = some (.directory attributes children) := standing
    have names : shell.vault.childNames shell.cwd = Catalog.names children :=
      Vault.childNames_eq standing
    have isWord : name ∈ Text.words line := by
      rcases words with words | words <;> simp [words]
    have isName : Path.IsName name := by
      refine ⟨Text.ne_empty_of_mem_words isWord, noSlash, ?_, ?_⟩
      · rintro rfl
        exact noStop (by decide)
      · rintro rfl
        exact noStop (by decide)
    have given : isFlag name = false := isFlag_eq_false_of_head? noHyphen
    have seen : isHidden name = false := by simpa [isHidden] using noStop
    have free : Catalog.get? children name = none := by
      cases held : Catalog.get? children name with
      | none => rfl
      | some node =>
          rw [names] at new
          exact absurd (List.mem_map_of_mem (Catalog.mem_of_get? held)) new
    obtain ⟨vault, node, after, found⟩ :=
      exists_after_created typed.cwd.canonical standing isName notTilde given free words
    -- The state after the line is again one that lines lead to.
    have later : shell.after .standard line = settings.start.afterAll .standard (lines ++ [line]) :=
      (afterAll_append .standard settings.start lines [line]).symm
    have namedLater := blanklessNames_afterAll settings (lines ++ [line])
    have wellFormedLater := wellFormed_afterAll settings (lines ++ [line])
    rw [← later, after] at namedLater wellFormedLater
    simp only [before, after, names]
    refine ⟨_, shows_here named wellFormed typed.cwd.canonical standing,
      shows_here namedLater wellFormedLater typed.cwd.canonical found, shown_put_perm free seen node, ?_⟩
    exact (namedLater.names wellFormedLater found).1.sublist List.filter_sublist

/-- A directory with a hidden file and another one, looked at from within, and a third one that is
created there. -/
theorem listings_unambiguous_hidden :
    let shell := Settings.standard.start.afterAll .standard
      ["mkdir docs", "touch docs/b docs/.a", "cd docs"]
    shell.vault.isDirectory (shell.resolve "../docs") = true ∧
    shell.Shows ["-1", "../docs"] "\n" ["b"] ∧
    shell.Shows ["-1a", "../docs"] "\n" [".", "..", ".a", "b"] ∧
    ∃ now, (shell.after .standard " touch  a").Shows [] "  " now ∧ now.Perm ["a", "b"] := by
  intro shell
  have given : isFlag "../docs" = false := by decide
  have directory : shell.vault.isDirectory (shell.resolve "../docs") = true := by decide +kernel
  have here : shell.resolve "../docs" = shell.cwd := by decide +kernel
  have names : shell.vault.childNames (shell.resolve "../docs") = [".a", "b"] := by decide +kernel
  have visible : [".a", "b"].filter (!isHidden ·) = ["b"] := by decide
  obtain ⟨listed, created⟩ := listings_unambiguous Settings.standard
    ["mkdir docs", "touch docs/b docs/.a", "cd docs"]
  obtain ⟨-, -, single, -, all⟩ := listed "../docs" given directory
  have lettered := all ["-1a"] (by simp)
  rw [names, visible] at single
  rw [names] at lettered
  rw [here] at directory names
  have new : "a" ∉ shell.vault.childNames shell.cwd := by
    rw [names]
    decide
  have words : Text.words " touch  a" = ["touch", "a"] := by decide +kernel
  obtain ⟨now, -, shown, perm, -⟩ := created directory "a" (by decide) (by decide) (by decide)
    (by decide) new " touch  a" (Or.inr words)
  rw [names, visible] at perm
  exact ⟨here ▸ directory, single, lettered, now, shown, perm⟩

end Shell

end VaultShell
