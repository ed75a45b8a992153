import VaultShell.Proofs.Shell.EmptyDirectories
import VaultShell.Proofs.Shell.MissingDirectories
import VaultShell.Proofs.Shell.Operands
import VaultShell.Proofs.Shell.Output
import VaultShell.Proofs.Shell.Overwriting

/-!
# One operand at a time

A command with many operands does what the same command does that is run for each of them in turn, and
prints what those runs print.  Nothing is kept from one operand to the next but the state, so this only
asks for what is done once, before the first operand: the flags are read, and a destination of several
sources has to be a directory.  It is one for all the others too, since no copy and no move takes away
the directory that it leads into.

In such a run an operand that fails leaves the state as it was.  This is told by the text that is
printed: messages of failures begin in their own way and name the operand.  The directories above an
operand of `rmdir` have names of their own, so what is reported of one of them is no report of the
operand.

## Main definitions

* `Shell.inTurn`: runs in turn, one for each operand
* `Command.failureOpening`, `Command.ReportsFailure`: the report that an operand has failed

## Main statements

* `Shell.inTurn_eq`: runs in turn and steps in turn
* `Shell.isDirectory_destination_moveOperand`: a destination stays a directory
* `Command.execute_one_by_one`: all operands at once, or one at a time
-/

namespace VaultShell

namespace Shell

variable {shell : Shell}

/-! ## Runs in turn -/

/-- Runs in turn, one for each operand, each in the state that the one before it left: the state after
all of them, and what each of them comes to. -/
def inTurn (run : Shell → String → Shell × Except Failure String) (shell : Shell) :
    List String → Shell × List (Except Failure String)
  | [] => (shell, [])
  | operand :: rest =>
    let (after, result) := run shell operand
    let (final, results) := inTurn run after rest
    (final, result :: results)

/-- **A run that makes a step and prints its report** does in turn what the step does, and prints the
same lines in as many parts as there are operands. -/
theorem inTurn_eq {run : Shell → String → Shell × Except Failure String}
    {step : Shell → String → Shell × List String} {operands : List String}
    (runs : ∀ shell, ∀ operand ∈ operands,
      run shell operand = ((step shell operand).1, .ok (Text.joinLines (step shell operand).2)))
    (reports : ReportsForeign step) (shell : Shell) :
    ∃ texts : List String, shell.inTurn run operands =
        ((shell.eachOperand step operands).1, texts.map .ok) ∧
      Text.joinLines (texts.filter (· ≠ "")) =
        Text.joinLines (shell.eachOperand step operands).2 := by
  have parts : ∃ groups : List (List String),
      shell.inTurn run operands =
        ((shell.eachOperand step operands).1, (groups.map Text.joinLines).map .ok) ∧
      (shell.eachOperand step operands).2 = groups.flatten := by
    induction operands generalizing shell with
    | nil => exact ⟨[], rfl, rfl⟩
    | cons operand rest ih =>
        obtain ⟨groups, turns, lines⟩ :=
          ih (fun shell other member => runs shell other (List.mem_cons_of_mem operand member))
            (step shell operand).1
        refine ⟨(step shell operand).2 :: groups, ?_, ?_⟩
        · simp only [inTurn, runs shell operand List.mem_cons_self, turns, eachOperand, List.map_cons]
        · simp only [eachOperand, lines, List.flatten_cons]
  obtain ⟨groups, turns, lines⟩ := parts
  refine ⟨groups.map Text.joinLines, turns, ?_⟩
  rw [lines]
  refine Text.joinLines_flatten fun group member line held => ?_
  have reported : line ∈ (shell.eachOperand step operands).2 := by
    rw [lines]
    exact List.mem_flatten.2 ⟨group, member, held⟩
  rintro rfl
  obtain ⟨c, never, -⟩ := reports.eachOperand shell operands "" reported
  cases never

/-! ## The destination of several sources -/

/-- The destination stays a directory whatever is moved into it: what is moved holds neither the
destination nor anything in it. -/
theorem isDirectory_destination_moveOperand (verbose : Bool) (source : String) {destination : String}
    (there : shell.vault.isDirectory (shell.resolve destination) = true) :
    (moveOperand verbose shell source destination).1.vault.isDirectory (shell.resolve destination) =
      true := by
  let Stays := fun after : Shell => after.vault.isDirectory (shell.resolve destination) = true
  show Stays (moveOperand verbose shell source destination).1
  rw [moveOperand_fst]
  refine (moveNode_outcome shell source destination).fst there ?_
  rintro vault _ (⟨found, idle, stays⟩ | ⟨may, removed, placed⟩)
  · exact there
  · obtain ⟨sameWithout, -⟩ := Vault.remove_eq_ok removed
    obtain ⟨samePlaced, -⟩ := Vault.place_eq_ok placed
    obtain ⟨parent, name, hsplit, rfl⟩ := targetOf_eq_ok there may.target_eq
    obtain ⟨-, hnames, -⟩ :=
      Path.join_eq (shell.isCanonical_resolve destination) (Path.isName_of_split hsplit)
    have placedBeneath := samePlaced.isDirectoryAt (not_prefix_destination hsplit)
    refine placedBeneath.trans ((sameWithout.isDirectoryAt ?_).trans there)
    intro begins
    refine may.apart ?_
    rw [← Path.components_eq_canonicalComponents (shell.isCanonical_resolve source)] at begins
    unfold Path.Within
    rw [hnames]
    exact begins.trans (List.prefix_append _ _)

/-- A step that keeps the working directory and a directory keeps them for all operands. -/
theorem isDirectory_eachOperand {step : Shell → String → Shell × List String} {destination : String}
    (keeps : ∀ shell operand, (step shell operand).1.cwd = shell.cwd)
    (stays : ∀ (shell : Shell) operand, shell.vault.isDirectory (shell.resolve destination) = true →
      (step shell operand).1.vault.isDirectory (shell.resolve destination) = true)
    (there : shell.vault.isDirectory (shell.resolve destination) = true) (operands : List String) :
    (shell.eachOperand step operands).1.vault.isDirectory (shell.resolve destination) = true := by
  let Stays := fun after : Shell =>
    after.cwd = shell.cwd ∧ after.vault.isDirectory (shell.resolve destination) = true
  have stay : Stays (shell.eachOperand step operands).1 := by
    refine eachOperand_fst ?_ ⟨rfl, there⟩
    rintro before operand - ⟨here, held⟩
    have same : before.resolve destination = shell.resolve destination := by
      unfold resolve
      rw [here]
    rw [← same] at held
    refine ⟨(keeps before operand).trans here, ?_⟩
    rw [← same]
    exact stays before operand held
  exact stay.2

/-! ## Requests that fail -/

variable {after : Shell} {operand source destination : String}

/-- A directory is created in a root that is one. -/
theorem isDirectory_of_createDirectory {vault made : Vault} {path : String} {time : Instant}
    (created : vault.createDirectory path time = .ok made) : vault.root.isDirectoryAt [] = true := by
  obtain ⟨_, changed⟩ := Vault.eq_ok_of_map_snd created
  obtain ⟨parent, name, attributes, children, _, _, held, _⟩ :=
    Vault.alterPlace_eq_ok (fun name => Vault.onlyAt_create name (.newDirectory name time)) changed
  exact Node.isDirectoryAt_of_prefix (Node.isDirectoryAt_eq_true.2 ⟨attributes, children, held⟩)
    List.nil_prefix

/-- **A directory that cannot be created** with those above it leaves none of them behind. -/
theorem makePath_fst_of_error {fault : Fault} (failed : (shell.makePath operand).2 = .error fault) :
    (shell.makePath operand).1 = shell := by
  unfold makePath at failed ⊢
  by_cases held : shell.vault.root.isDirectoryAt [] = true
  · rcases makeDown_cases (OnTheWay.start (shell.isCanonical_resolve operand)) held with
      ⟨refused, -, -⟩ | ⟨after, descends, -⟩
    · rw [refused]
    · rw [descends.makeDown_eq] at failed
      cases failed
  · -- A root that is a file holds nothing and receives nothing.
    cases names : Path.components (shell.resolve operand) with
    | nil => rfl
    | cons name rest =>
        have first := OnTheWay.start (shell.isCanonical_resolve operand)
        rw [names] at first
        have free : shell.vault.find? ("" ++ "/" ++ name) = none := by
          rw [Vault.find?, first.components_eq]
          exact Node.find?_append_of_not_isDirectory (by simpa using held) name []
        simp only [makeDown, free]
        cases created : shell.vault.createDirectory ("" ++ "/" ++ name) shell.clock with
        | error fault => rfl
        | ok vault => exact absurd (isDirectory_of_createDirectory created) held

/-! ## Reports of failures -/

/-- Two beginnings that no text has together. -/
def Apart (words words' : String) : Prop :=
  ¬ words.toList <+: words'.toList ∧ ¬ words'.toList <+: words.toList

instance (words words' : String) : Decidable (Apart words words') :=
  inferInstanceAs (Decidable (_ ∧ _))

theorem begins_joinLines (line : String) (rest : List String) :
    Begins line (Text.joinLines (line :: rest)) := by
  unfold Text.joinLines
  cases rest with
  | nil =>
      rw [String.intercalate_singleton]
      exact begins_self line
  | cons next others =>
      rw [String.intercalate_cons_cons]
      exact ((begins_self line).append _).append _

/-- A report without lines begins with no words. -/
theorem not_begins_joinLines_nil {opening words : String} (begins : Begins words opening)
    (something : words ≠ "") : ¬ Begins opening (Text.joinLines []) := by
  intro opens
  refine something (String.toList_inj.1 ?_)
  exact List.prefix_nil.1 (begins.trans opens)

/-- **Reports are told apart by the words that their first lines begin with.** -/
theorem not_begins_joinLines {opening words words' : String} {report : List String}
    (begins : Begins words opening) (apart : Apart words words')
    (lines : ∀ line ∈ report.head?, Begins words' line) : ¬ Begins opening (Text.joinLines report) := by
  cases report with
  | nil =>
      refine not_begins_joinLines_nil begins ?_
      rintro rfl
      exact apart.1 List.nil_prefix
  | cons line rest =>
      intro opens
      have first := (lines line rfl).trans (begins_joinLines line rest)
      rcases List.prefix_or_prefix_of_prefix (begins.trans opens) first with h | h
      · exact apart.1 h
      · exact apart.2 h

/-- **A report that begins with the words for a failure is of a refusal**, if a success is told in other
words or not at all; and a refusal leaves the state as it was. -/
theorem Outcome.fst_of_begins {α : Type} {Grant : Vault → Except Failure α → Prop}
    {Refusal : Except Failure α → Prop} {outcome : Shell × Except Failure α}
    (h : Outcome shell Grant Refusal outcome)
    (grants : ∀ vault failure, ¬ Grant vault (.error failure)) {asked : α → Bool} {line : α → String}
    {opening words words' : String} (begins : Begins words opening) (apart : Apart words words')
    (lines : ∀ a, Begins words' (line a))
    (opens : Begins opening
      (Text.joinLines (reportOf (fun a => if asked a then [line a] else []) outcome.2))) :
    outcome.1 = shell := by
  cases result : outcome.2 with
  | error failure => exact (h.refused result fun vault => grants vault failure).2
  | ok a =>
      rw [result] at opens
      refine absurd opens (not_begins_joinLines begins apart ?_)
      intro first reported
      have reported : first ∈ if asked a then [line a] else [] := List.mem_of_mem_head? reported
      split at reported
      case isFalse => cases reported
      case isTrue =>
        obtain rfl := List.mem_singleton.1 reported
        exact lines a

theorem makeOperand_fst_of_begins {settings : MakeSettings}
    (opens : Begins s!"mkdir: cannot create directory '{operand}': "
      (Text.joinLines (makeOperand settings shell operand).2)) :
    (makeOperand settings shell operand).1 = shell := by
  rw [makeOperand_fst]
  cases result :
      (if settings.parents then shell.makePath operand else shell.makeDirectory operand).2 with
  | error fault =>
      split at result
      case isTrue asked =>
        rw [if_pos asked]
        exact makePath_fst_of_error result
      case isFalse asked =>
        rw [if_neg asked]
        exact ((shell.makeDirectory_outcome operand).refused result (by rintro _ ⟨⟩)).2
  | ok created =>
      simp only [makeOperand, result] at opens
      refine absurd opens (not_begins_joinLines (((begins_self _).append _).append _)
        (show Apart "mkdir: cannot create directory '" "mkdir: created directory '" by decide) ?_)
      intro line first
      have reported := List.mem_of_mem_head? first
      split at reported
      case isFalse => cases reported
      case isTrue =>
        obtain ⟨path, -, rfl⟩ := List.mem_map.1 reported
        exact ((begins_self _).append _).append _

theorem touchOperand_fst_of_begins {noCreate : Bool}
    (opens : Begins s!"touch: cannot touch '{operand}': "
      (Text.joinLines (touchOperand noCreate shell operand).2)) :
    (touchOperand noCreate shell operand).1 = shell := by
  rcases (touchOperand_outcome noCreate shell operand).cases with
    ⟨vault, report, grant, done⟩ | ⟨_, -, refused⟩
  · have silent : report = [] := by cases grant <;> rfl
    rw [done, silent] at opens
    exact absurd opens (not_begins_joinLines_nil (((begins_self _).append _).append _)
      (show "touch: cannot touch '" ≠ "" by decide))
  · rw [refused]

theorem removeOperand_fst_of_begins {settings : RemoveSettings}
    (opens : Begins s!"rm: cannot remove '{operand}': "
      (Text.joinLines (removeOperand settings shell operand).2)) :
    (removeOperand settings shell operand).1 = shell := by
  rw [removeOperand_snd] at opens
  rw [removeOperand_fst]
  have apart : Apart "rm: cannot remove '" "removed '" := by decide
  refine (removeNode_outcome settings shell operand).fst_of_begins (by rintro _ _ ⟨⟩)
    (((begins_self _).append _).append _) apart ?_ opens
  exact fun removed => ((begins_self _).append _).append _

/-- Each text that a walk goes on with is followed by a slash in the operand. -/
theorem exists_rest_of_mem_walkTexts {settings : RemoveDirectorySettings} {text : String}
    (member : text ∈ ((above? settings operand).map (walkTexts settings)).getD []) :
    ∃ rest, operand.toList = text.toList ++ '/' :: rest := by
  cases found : above? settings operand with
  | none =>
      rw [found] at member
      cases member
  | some next =>
      rw [found] at member
      unfold above? at found
      split at found
      case isFalse => cases found
      case isTrue =>
        obtain ⟨parent, holds, rfl⟩ := Option.map_eq_some_iff.1 found
        obtain ⟨-, rest, whole⟩ := parentChars?_eq_some holds
        rcases mentions_of_mem_walkTexts member with rfl | ⟨-, -, more, longer⟩
        · exact ⟨rest, by rw [whole, String.toList_ofList]⟩
        · rw [String.toList_ofList] at longer
          exact ⟨more ++ '/' :: rest, by rw [whole, longer]; simp⟩

/-- A walk that does not tell what it removes reports at most one failure. -/
theorem removeChain_snd_of_quiet {settings : RemoveDirectorySettings} (quiet : settings.verbose = false)
    (shell : Shell) (texts : List String) :
    (removeChain settings shell texts).2 = [] ∨
      ∃ text ∈ texts, ∃ fault : Fault, (removeChain settings shell texts).2 =
        [s!"rmdir: failed to remove '{text}': {fault.message}"] := by
  induction texts generalizing shell with
  | nil => exact Or.inl rfl
  | cons text rest ih =>
      simp only [removeChain, quiet, Bool.false_eq_true, if_false, List.nil_append]
      split
      case h_1 after _ =>
        rcases ih after with silent | ⟨above, member, fault, report⟩
        · exact Or.inl silent
        · exact Or.inr ⟨above, List.mem_cons_of_mem text member, fault, report⟩
      case h_2 => exact Or.inl rfl
      case h_3 fault _ =>
        split
        · exact Or.inl rfl
        · exact Or.inr ⟨text, List.mem_cons_self, fault, rfl⟩

/-- A report of a directory above an operand is none of the operand, for a slash comes where its name
ends. -/
theorem not_begins_of_above {text : String} {rest : List Char} {fault : Fault}
    (above : operand.toList = text.toList ++ '/' :: rest) :
    ¬ Begins s!"rmdir: failed to remove '{operand}': "
      s!"rmdir: failed to remove '{text}': {fault.message}" := by
  intro begins
  have begins : ("rmdir: failed to remove '" ++ operand ++ "': ").toList <+:
      ("rmdir: failed to remove '" ++ text ++ "': " ++ fault.message).toList := begins
  simp only [String.toList_append, above, List.append_assoc, List.prefix_append_right_inj,
    List.cons_append] at begins
  have same := (List.cons_prefix_cons.1 begins).1
  cases same

theorem removeDirectoryOperand_fst_of_begins {settings : RemoveDirectorySettings}
    (opens : Begins s!"rmdir: failed to remove '{operand}': "
      (Text.joinLines (removeDirectoryOperand settings shell operand).2)) :
    (removeDirectoryOperand settings shell operand).1 = shell := by
  have walk : removeDirectoryOperand settings shell operand =
      removeChain settings shell (walkTexts settings operand) := rfl
  rw [walk, walkTexts_eq] at opens ⊢
  rcases shell.removeEmpty_cases (shell.isCanonical_resolve operand) with
    ⟨stays, unsuccessful⟩ | ⟨_, vault, -, -, done⟩
  · rw [removeChain_cons_of_ne _ unsuccessful]
    exact stays
  · -- Once the operand is gone, whatever fails is a directory above it.
    refine absurd opens ?_
    simp only [removeChain, done]
    cases verbose : settings.verbose with
    | true =>
        refine not_begins_joinLines (((begins_self _).append _).append _)
          (show Apart "rmdir: failed to remove '" "rmdir: removing directory, '" by decide) ?_
        intro line first
        obtain rfl : _ = line := Option.some.inj first
        exact ((begins_self _).append _).append _
    | false =>
        simp only [Bool.false_eq_true, if_false, List.nil_append]
        rcases removeChain_snd_of_quiet verbose (shell.withVault vault)
            ((above? settings operand).map (walkTexts settings) |>.getD []) with
          silent | ⟨text, member, fault, report⟩
        · rw [silent]
          exact not_begins_joinLines_nil (((begins_self _).append _).append _)
            (show "rmdir: failed to remove '" ≠ "" by decide)
        · rw [report, Text.joinLines, String.intercalate_singleton]
          obtain ⟨rest, above⟩ := exists_rest_of_mem_walkTexts member
          exact not_begins_of_above above

theorem copyOperand_fst_of_begins {settings : CopySettings}
    (opens : Begins "cp: " (Text.joinLines (copyOperand settings shell source destination).2)) :
    (copyOperand settings shell source destination).1 = shell := by
  rw [copyOperand_snd] at opens
  rw [copyOperand_fst]
  have apart : Apart "cp: " "'" := by decide
  refine (copyNode_outcome settings.recursive shell source destination).fst_of_begins
    (by rintro _ _ ⟨⟩) (begins_self _) apart ?_ opens
  exact fun target => ((((begins_self _).append _).append _).append _).append _

theorem moveOperand_fst_of_begins {verbose : Bool}
    (opens : Begins "mv: " (Text.joinLines (moveOperand verbose shell source destination).2)) :
    (moveOperand verbose shell source destination).1 = shell := by
  rw [moveOperand_snd] at opens
  rw [moveOperand_fst]
  have apart : Apart "mv: " "renamed '" := by decide
  refine (moveNode_outcome shell source destination).fst_of_begins (by rintro _ _ ⟨⟩) (begins_self _)
    apart ?_ opens
  exact fun target => ((((begins_self _).append _).append _).append _).append _

end Shell

namespace Command

/-! ## One run for each operand -/

/-- The words with which a command begins to report that an operand has failed. -/
def failureOpening (operand : String) : Command → String
  | .mkdir => s!"mkdir: cannot create directory '{operand}': "
  | .touch => s!"touch: cannot touch '{operand}': "
  | .rm => s!"rm: cannot remove '{operand}': "
  | .rmdir => s!"rmdir: failed to remove '{operand}': "
  | command => command.name ++ ": "

/-- **A run reports that its operand has failed.** -/
def ReportsFailure (command : Command) (operand : String) (outcome : Shell × Except Failure String) :
    Prop :=
  ∃ text, outcome.2 = .ok text ∧ Shell.Begins (command.failureOpening operand) text

variable {command : Command} {arguments : List String} {wallClock : String}

/-- One run of a command that makes a step for each operand. -/
theorem execute_single {step : Shell → String → Shell × List String}
    (steps : command.step? (flagsOf arguments) = some step)
    (accepted : ∀ flag ∈ flagsOf arguments, command.accepts flag = true) {operand : String}
    (given : isFlag operand = false) (shell : Shell) :
    command.execute wallClock shell (flagsOf arguments ++ [operand]) =
      ((step shell operand).1, .ok (Text.joinLines (step shell operand).2)) := by
  have flags : flagsOf (flagsOf arguments ++ [operand]) = flagsOf arguments :=
    flagsOf_flagsOf_append arguments (by simpa using given)
  have operands : operandsOf (flagsOf arguments ++ [operand]) = [operand] :=
    operandsOf_flagsOf_append arguments (by simpa using given)
  rw [← flags] at steps
  rw [execute_of_step? steps (by rwa [flags]) (by simp [operands]), operands]
  simp only [Shell.eachOperand, List.append_nil]

/-- One run of `cp` or `mv`, with a single source. -/
theorem execute_single_source {transfer : Shell → String → String → Shell × List String}
    (transfers : command.transfer? (flagsOf arguments) = some transfer)
    (accepted : ∀ flag ∈ flagsOf arguments, command.accepts flag = true) {source destination : String}
    (given : isFlag source = false) (given' : isFlag destination = false) (shell : Shell) :
    command.execute wallClock shell (flagsOf arguments ++ [source, destination]) =
      ((transfer shell source destination).1,
        .ok (Text.joinLines (transfer shell source destination).2)) := by
  have plain : ∀ operand ∈ [source, destination], isFlag operand = false := by
    simp [given, given']
  have flags : flagsOf (flagsOf arguments ++ [source, destination]) = flagsOf arguments :=
    flagsOf_flagsOf_append arguments plain
  have operands : operandsOf (flagsOf arguments ++ [source, destination]) = [source, destination] :=
    operandsOf_flagsOf_append arguments plain
  rw [← flags] at transfers
  rw [execute_of_transfer? transfers (by rwa [flags]), operands]
  simp [Shell.transferAll, Shell.sourcesAndDestination?, Shell.eachOperand]

/-- **What runs in turn do**, for the commands that take any number of operands. -/
theorem execute_inTurn {step : Shell → String → Shell × List String}
    (steps : command.step? (flagsOf arguments) = some step)
    (accepted : ∀ flag ∈ flagsOf arguments, command.accepts flag = true)
    (given : operandsOf arguments ≠ []) (reports : Shell.ReportsForeign step)
    (failed : ∀ shell operand,
      Shell.Begins (command.failureOpening operand) (Text.joinLines (step shell operand).2) →
      (step shell operand).1 = shell) (shell : Shell) :
    let run := fun shell operand => command.execute wallClock shell (flagsOf arguments ++ [operand])
    let turns := shell.inTurn run (operandsOf arguments)
    (∃ texts : List String, turns.2 = texts.map .ok ∧
      command.execute wallClock shell arguments =
        (turns.1, .ok (Text.joinLines (texts.filter (· ≠ ""))))) ∧
    ∀ shell, ∀ operand ∈ operandsOf arguments, command.ReportsFailure operand (run shell operand) →
      (run shell operand).1 = shell := by
  intro run turns
  have single : ∀ shell, ∀ operand ∈ operandsOf arguments,
      run shell operand = ((step shell operand).1, .ok (Text.joinLines (step shell operand).2)) :=
    fun shell operand member =>
      execute_single steps accepted (isFlag_eq_false_of_mem_operandsOf member) shell
  refine ⟨?_, ?_⟩
  · obtain ⟨texts, each, lines⟩ := Shell.inTurn_eq single reports shell
    have turns_eq : turns = _ := each
    refine ⟨texts, congrArg Prod.snd turns_eq, ?_⟩
    rw [execute_of_step? steps accepted given, lines, turns_eq]
  · rintro shell operand member ⟨text, printed, begins⟩
    rw [single shell operand member] at printed ⊢
    obtain rfl := Except.ok.inj printed
    exact failed shell operand begins

/-- The same for `cp` and `mv` with any number of sources. -/
theorem execute_inTurn_sources {transfer : Shell → String → String → Shell × List String}
    {sources : List String} {destination : String}
    (transfers : command.transfer? (flagsOf arguments) = some transfer)
    (accepted : ∀ flag ∈ flagsOf arguments, command.accepts flag = true)
    (operands : operandsOf arguments = sources ++ [destination]) (given : sources ≠ [])
    (keeps : ∀ shell source destination, Shell.VaultOnly shell (transfer shell source destination).1)
    (stays : ∀ (shell : Shell) source, shell.vault.isDirectory (shell.resolve destination) = true →
      (transfer shell source destination).1.vault.isDirectory (shell.resolve destination) = true)
    (reports : Shell.ReportsForeign fun shell source => transfer shell source destination)
    (failed : ∀ shell source,
      Shell.Begins (command.failureOpening source)
        (Text.joinLines (transfer shell source destination).2) →
      (transfer shell source destination).1 = shell) {shell : Shell}
    (there : shell.vault.isDirectory (shell.resolve destination) = true) :
    let run := fun shell source =>
      command.execute wallClock shell (flagsOf arguments ++ [source, destination])
    let turns := shell.inTurn run sources
    (∃ texts : List String, turns.2 = texts.map .ok ∧
      command.execute wallClock shell arguments =
        (turns.1, .ok (Text.joinLines (texts.filter (· ≠ ""))))) ∧
    (∀ before, before <+: sources →
      (shell.inTurn run before).1.vault.isDirectory (shell.resolve destination) = true) ∧
    ∀ shell, ∀ source ∈ sources, command.ReportsFailure source (run shell source) →
      (run shell source).1 = shell := by
  intro run turns
  have areOperands : ∀ operand ∈ sources ++ [destination], isFlag operand = false := by
    intro operand member
    rw [← operands] at member
    exact isFlag_eq_false_of_mem_operandsOf member
  have single : ∀ shell, ∀ source ∈ sources,
      run shell source = ((transfer shell source destination).1,
        .ok (Text.joinLines (transfer shell source destination).2)) :=
    fun shell source member =>
      execute_single_source transfers accepted (areOperands source (List.mem_append_left _ member))
        (areOperands destination (by simp)) shell
  refine ⟨?_, ?_, ?_⟩
  · obtain ⟨texts, each, lines⟩ := Shell.inTurn_eq single reports shell
    have turns_eq : turns = _ := each
    refine ⟨texts, congrArg Prod.snd turns_eq, ?_⟩
    obtain ⟨source, rest, rfl⟩ := List.exists_cons_of_ne_nil given
    have parts : Shell.sourcesAndDestination? (operandsOf arguments) =
        some (source :: rest, destination) := by
      unfold Shell.sourcesAndDestination?
      rw [operands, List.dropLast_concat, List.getLast?_concat]
    rw [execute_of_transfer? transfers accepted, lines, turns_eq]
    simp only [Shell.transferAll, parts, there, Bool.not_true, Bool.false_eq_true, and_false, if_false]
  · intro before begins
    obtain ⟨texts, each, -⟩ := Shell.inTurn_eq
      (fun shell source member => single shell source (begins.subset member)) reports shell
    rw [each]
    exact Shell.isDirectory_eachOperand (fun shell source => (keeps shell source destination).cwd)
      (fun shell source => stays shell source) there before
  · rintro shell source member ⟨text, printed, begins⟩
    rw [single shell source member] at printed ⊢
    obtain rfl := Except.ok.inj printed
    exact failed shell source begins

/-- **All operands at once, or one at a time.**  In any state, let a command be given flags that it
starts on its operands with, and operands among them in any order.

* `mkdir`, `touch`, `rm` and `rmdir` with one or more operands do what the same flags and the single
  operands do in turn.  None of these runs fails as a whole, and what the one run prints are the texts of
  the others that are not empty, each on lines of its own.
* `cp` and `mv` with one or more sources do likewise, if the destination is a directory at the start; and
  before each of the runs it is one still.
* In any such run, an operand that is reported to have failed leaves the state as it was. -/
theorem execute_one_by_one (wallClock : String) (shell : Shell)
    (accepted : ∀ flag ∈ flagsOf arguments, command.accepts flag = true) :
    (command ∈ [Command.mkdir, .touch, .rm, .rmdir] → operandsOf arguments ≠ [] →
      let run := fun shell operand => command.execute wallClock shell (flagsOf arguments ++ [operand])
      let turns := shell.inTurn run (operandsOf arguments)
      (∃ texts : List String, turns.2 = texts.map .ok ∧
        command.execute wallClock shell arguments =
          (turns.1, .ok (Text.joinLines (texts.filter (· ≠ ""))))) ∧
      ∀ shell, ∀ operand ∈ operandsOf arguments, command.ReportsFailure operand (run shell operand) →
        (run shell operand).1 = shell) ∧
    (command ∈ [Command.cp, .mv] → ∀ sources destination,
      operandsOf arguments = sources ++ [destination] → sources ≠ [] →
      shell.vault.isDirectory (shell.resolve destination) = true →
      let run := fun shell source =>
        command.execute wallClock shell (flagsOf arguments ++ [source, destination])
      let turns := shell.inTurn run sources
      (∃ texts : List String, turns.2 = texts.map .ok ∧
        command.execute wallClock shell arguments =
          (turns.1, .ok (Text.joinLines (texts.filter (· ≠ ""))))) ∧
      (∀ before, before <+: sources →
        (shell.inTurn run before).1.vault.isDirectory (shell.resolve destination) = true) ∧
      ∀ shell, ∀ source ∈ sources, command.ReportsFailure source (run shell source) →
        (run shell source).1 = shell) := by
  refine ⟨?_, ?_⟩
  · intro walks given
    simp only [List.mem_cons, List.not_mem_nil, or_false] at walks
    rcases walks with rfl | rfl | rfl | rfl
    · exact execute_inTurn rfl accepted given (Shell.reportsForeign_makeOperand _)
        (fun _ _ => Shell.makeOperand_fst_of_begins) shell
    · exact execute_inTurn rfl accepted given (Shell.reportsForeign_touchOperand _)
        (fun _ _ => Shell.touchOperand_fst_of_begins) shell
    · exact execute_inTurn rfl accepted given (Shell.reportsForeign_removeOperand _)
        (fun _ _ => Shell.removeOperand_fst_of_begins) shell
    · exact execute_inTurn rfl accepted given (Shell.reportsForeign_removeDirectoryOperand _)
        (fun _ _ => Shell.removeDirectoryOperand_fst_of_begins) shell
  · intro walks sources destination operands given there
    simp only [List.mem_cons, List.not_mem_nil, or_false] at walks
    rcases walks with rfl | rfl
    · exact execute_inTurn_sources rfl accepted operands given (Shell.copyOperand_vaultOnly _)
        (fun _ source => Shell.isDirectory_destination_copyOperand _ source)
        (Shell.reportsForeign_copyOperand _ destination)
        (fun _ _ => Shell.copyOperand_fst_of_begins) there
    · exact execute_inTurn_sources rfl accepted operands given (Shell.moveOperand_vaultOnly _)
        (fun _ source => Shell.isDirectory_destination_moveOperand _ source)
        (Shell.reportsForeign_moveOperand _ destination)
        (fun _ _ => Shell.moveOperand_fst_of_begins) there

/-- Of three directories the second would have to be made in a file; of two copies the second has no
source. -/
theorem execute_one_by_one_failing :
    (∃ texts : List String,
      ((Shell.fresh "vault-user" .origin).inTurn
        (fun shell operand => Command.mkdir.execute "" shell (["-v"] ++ [operand]))
        ["notes", "readme.txt/x", "drafts"]).2 = texts.map .ok ∧
      (Command.mkdir.execute "" (Shell.fresh "vault-user" .origin)
        ["notes", "-v", "readme.txt/x", "drafts"]).2 = .ok (Text.joinLines (texts.filter (· ≠ "")))) ∧
    (Command.mkdir.execute "" (Shell.fresh "vault-user" .origin) (["-v"] ++ ["readme.txt/x"])).1 =
      Shell.fresh "vault-user" .origin ∧
    ((Shell.fresh "vault-user" .origin).inTurn
      (fun shell source => Command.cp.execute "" shell ([] ++ [source, "vault"]))
      ["readme.txt", "none"]).1.vault.isDirectory
        ((Shell.fresh "vault-user" .origin).resolve "vault") = true := by
  have flags : flagsOf ["notes", "-v", "readme.txt/x", "drafts"] = ["-v"] := by decide
  have operands : operandsOf ["notes", "-v", "readme.txt/x", "drafts"] =
      ["notes", "readme.txt/x", "drafts"] := by decide
  have bare : flagsOf ["readme.txt", "none", "vault"] = [] := by decide
  have sources : operandsOf ["readme.txt", "none", "vault"] = ["readme.txt", "none"] ++ ["vault"] := by
    decide
  obtain ⟨made, -⟩ := @execute_one_by_one .mkdir ["notes", "-v", "readme.txt/x", "drafts"] ""
    (Shell.fresh "vault-user" .origin) (by decide)
  obtain ⟨-, copied⟩ := @execute_one_by_one .cp ["readme.txt", "none", "vault"] ""
    (Shell.fresh "vault-user" .origin) (by decide)
  obtain ⟨⟨texts, each, whole⟩, fails⟩ := made (by decide) (by decide)
  obtain ⟨-, stays, -⟩ := copied (by decide) _ _ sources (by decide) (by decide +kernel)
  rw [flags, operands] at each
  rw [flags] at fails
  rw [bare] at stays
  refine ⟨⟨texts, each, congrArg Prod.snd whole⟩, ?_, stays _ (List.prefix_refl _)⟩
  refine fails _ "readme.txt/x" (by decide) ⟨_, rfl, ?_⟩
  decide +kernel

end Command

end VaultShell
