import VaultShell.Proofs.Shell.Stock
import VaultShell.Shell.Command

/-!
# What a command can print

A token that is printed is not told from a token that the session sends, so it matters which texts
commands can print.  Messages and help texts have characters of their own that are in no token, and
so have the contents of files, paths and the reading of a clock.  What is left is a listing.  Its
short form is made of names and blanks only, and names are up to the user; a listing of a single name
is that name.

## Main definitions

* `Shell.ReportsForeign`: a step all of whose messages have a character that is in no token
* `Shell.ListsOnly`: `ls` shows one name and nothing else

## Main statements

* `Shell.resultText_list_eq_token_iff`: when `ls` prints a token
* `Command.resultText_execute_eq_token_iff`: no other command does
-/

namespace VaultShell

open Sentinel

namespace Shell

variable {shell after : Shell}

/-! ## Results -/

theorem not_isToken_of_ok {text : String} (h : Foreign text) : ¬ IsToken (resultText (.ok text)) :=
  h.not_isToken

theorem not_isToken_of_usage {text : String} (h : Foreign text) :
    ¬ IsToken (resultText (.error (.usage text))) :=
  h.not_isToken

theorem not_isToken_of_fault (context : String) (cause : Fault) :
    ¬ IsToken (resultText (.error (.fault context cause))) :=
  (Failure.foreign_fault context cause).not_isToken

/-! ## Reports -/

/-- All that a step ever reports has a character that is in no token. -/
def ReportsForeign (step : Shell → String → Shell × List String) : Prop :=
  ∀ shell operand, ∀ line ∈ (step shell operand).2, Foreign line

/-- The reports of all operands are those of the steps, one after the other. -/
theorem ReportsForeign.eachOperand {step : Shell → String → Shell × List String}
    (h : ReportsForeign step) (shell : Shell) (operands : List String) :
    ∀ line ∈ (shell.eachOperand step operands).2, Foreign line := by
  induction operands generalizing shell with
  | nil => exact List.forall_mem_nil _
  | cons operand rest ih =>
      intro line hline
      rcases List.mem_append.1 hline with first | others
      · exact h shell operand line first
      · exact ih (step shell operand).1 line others

/-- **A report is no token** if every line of it has a character that is in none. -/
theorem ReportsForeign.not_isToken {step : Shell → String → Shell × List String}
    (h : ReportsForeign step) (shell : Shell) (operands : List String) :
    ¬ IsToken (Text.joinLines (shell.eachOperand step operands).2) :=
  not_isToken_joinLines fun line hline => (h.eachOperand shell operands line hline).not_isToken

/-- A text has what the words have that it begins with. -/
theorem Begins.foreign {words text : String} (begins : Begins words text) (h : Foreign words) :
    Foreign text := by
  obtain ⟨c, member, never⟩ := h
  exact ⟨c, begins.subset member, never⟩

/-- A report of a request is foreign if what is shown of a success is, and the words of a refusal are. -/
theorem Outcome.foreign_reportOf {α : Type} {Grant : Vault → Except Failure α → Prop} {words : String}
    {outcome : Shell × Except Failure α} (h : Outcome shell Grant (Refuses words) outcome)
    (grants : ∀ vault failure, ¬ Grant vault (.error failure)) {shown : α → List String}
    (hshown : ∀ a, ∀ line ∈ shown a, Foreign line) (hwords : Foreign words) :
    ∀ line ∈ reportOf shown outcome.2, Foreign line := by
  cases result : outcome.2 with
  | ok a => exact hshown a
  | error failure =>
      obtain ⟨⟨other, same, -, begins⟩, -⟩ := h.refused result fun vault => grants vault failure
      obtain rfl := Except.error.inj same
      exact List.forall_mem_singleton.2 (begins.foreign hwords)

/-- A report that is one line where it is asked for and empty otherwise. -/
theorem foreign_of_mem_ite {asked : Bool} {text : String} (h : Foreign text) :
    ∀ line ∈ (if asked then [text] else []), Foreign line := by
  cases asked with
  | false => exact List.forall_mem_nil _
  | true =>
      intro line hline
      obtain rfl := List.mem_singleton.1 hline
      exact h

/-! ## Creating -/

theorem reportsForeign_makeOperand (settings : MakeSettings) :
    ReportsForeign (makeOperand settings) := by
  intro shell operand
  simp only [makeOperand]
  generalize (if settings.parents then shell.makePath operand else shell.makeDirectory operand) =
    outcome
  obtain ⟨after, fault | created⟩ := outcome
  · intro line hline
    obtain rfl := List.mem_singleton.1 hline
    exact ((foreign_ofList rfl).prepend _).append _
  · cases settings.verbose with
    | false => exact List.forall_mem_nil _
    | true =>
        intro line hline
        obtain ⟨path, -, rfl⟩ := List.mem_map.1 hline
        exact (foreign_ofList rfl).prepend _

theorem reportsForeign_touchOperand (noCreate : Bool) : ReportsForeign (touchOperand noCreate) := by
  intro shell operand
  rcases (touchOperand_outcome noCreate shell operand).cases with
    ⟨vault, report, grant, done⟩ | ⟨_, ⟨fault, rfl⟩, refused⟩
  · rw [done]
    cases grant <;> exact List.forall_mem_nil _
  · rw [refused]
    exact List.forall_mem_singleton.2 (((foreign_ofList rfl).prepend _).append _)

/-! ## Removing -/

theorem reportsForeign_removeOperand (settings : RemoveSettings) :
    ReportsForeign (removeOperand settings) := by
  intro shell operand
  have words : Foreign "rm: cannot remove '" := foreign_ofList rfl
  rw [removeOperand_snd]
  refine (removeNode_outcome settings shell operand).foreign_reportOf (by rintro _ _ ⟨⟩) ?_
    ((words.append _).append _)
  intro removed
  exact foreign_of_mem_ite ((foreign_ofList rfl).prepend _)

theorem foreign_of_mem_removeChain {settings : RemoveDirectorySettings} {operands : List String} :
    ∀ line ∈ (removeChain settings shell operands).2, Foreign line := by
  induction operands generalizing shell with
  | nil => exact List.forall_mem_nil _
  | cons operand rest ih =>
      simp only [removeChain]
      split
      case h_1 after _ =>
        intro line hline
        rcases List.mem_append.1 hline with own | others
        · exact foreign_of_mem_ite ((foreign_ofList rfl).prepend _) line own
        · exact ih line others
      case h_2 => exact List.forall_mem_nil _
      case h_3 =>
        split
        · exact List.forall_mem_nil _
        · intro line hline
          obtain rfl := List.mem_singleton.1 hline
          exact ((foreign_ofList rfl).prepend _).append _

theorem reportsForeign_removeDirectoryOperand (settings : RemoveDirectorySettings) :
    ReportsForeign (removeDirectoryOperand settings) :=
  fun _ _ => foreign_of_mem_removeChain

/-! ## Copying and moving -/

theorem reportsForeign_copyOperand (settings : CopySettings) (destination : String) :
    ReportsForeign fun shell source => copyOperand settings shell source destination := by
  intro shell source
  rw [copyOperand_snd]
  refine (copyNode_outcome settings.recursive shell source destination).foreign_reportOf
    (by rintro _ _ ⟨⟩) ?_ (foreign_ofList rfl)
  intro target
  exact foreign_of_mem_ite ((foreign_ofList rfl).prepend _)

theorem reportsForeign_moveOperand (verbose : Bool) (destination : String) :
    ReportsForeign fun shell source => moveOperand verbose shell source destination := by
  intro shell source
  rw [moveOperand_snd]
  refine (moveNode_outcome shell source destination).foreign_reportOf (by rintro _ _ ⟨⟩) ?_
    (foreign_ofList rfl)
  intro target
  exact foreign_of_mem_ite ((foreign_ofList rfl).prepend _)

/-! ## Commands that go through their operands -/

/-- **Such a command prints no token** if its help, the words of a refusal and the reports of its steps
have characters that are in none. -/
theorem Walk.not_isToken {help words : String}
    {Through : (Shell → String → Shell × List String) → List String → Prop}
    {outcome : Shell × Except Failure String} (h : Walk shell help words Through outcome)
    (hhelp : Foreign help) (hwords : Foreign words)
    (steps : ∀ step operands, Through step operands → ReportsForeign step) :
    ¬ IsToken (resultText outcome.2) := by
  rcases h with helped | ⟨⟨failure, rfl, -, begins⟩, refused⟩ | ⟨through, walked⟩
  · rw [helped]
    exact not_isToken_of_ok hhelp
  · rw [refused]
    exact (begins.foreign hwords).not_isToken
  · rw [walked]
    exact (steps _ _ through).not_isToken shell _

theorem not_isToken_makeDirectories (shell : Shell) (arguments : List String) :
    ¬ IsToken (resultText (shell.makeDirectories arguments).2) := by
  refine (shell.makeDirectories_walk arguments).not_isToken ((foreign_ofList rfl).prepend _)
    (foreign_ofList rfl) ?_
  rintro _ _ ⟨rfl, -⟩
  exact reportsForeign_makeOperand _

theorem not_isToken_touch (shell : Shell) (arguments : List String) :
    ¬ IsToken (resultText (shell.touch arguments).2) := by
  refine (shell.touch_walk arguments).not_isToken ((foreign_ofList rfl).prepend _)
    (foreign_ofList rfl) ?_
  rintro _ _ ⟨rfl, -⟩
  exact reportsForeign_touchOperand _

theorem not_isToken_remove (shell : Shell) (arguments : List String) :
    ¬ IsToken (resultText (shell.remove arguments).2) := by
  refine (shell.remove_walk arguments).not_isToken ((foreign_ofList rfl).prepend _)
    (foreign_ofList rfl) ?_
  rintro _ _ ⟨rfl, -⟩
  exact reportsForeign_removeOperand _

theorem not_isToken_removeDirectories (shell : Shell) (arguments : List String) :
    ¬ IsToken (resultText (shell.removeDirectories arguments).2) := by
  refine (shell.removeDirectories_walk arguments).not_isToken ((foreign_ofList rfl).prepend _)
    (foreign_ofList rfl) ?_
  rintro _ _ ⟨rfl, -⟩
  exact reportsForeign_removeDirectoryOperand _

theorem not_isToken_copy (shell : Shell) (arguments : List String) :
    ¬ IsToken (resultText (shell.copy arguments).2) := by
  refine (shell.copy_walk arguments).not_isToken ((foreign_ofList rfl).prepend _)
    (foreign_ofList rfl) ?_
  rintro _ _ ⟨destination, -, rfl⟩
  exact reportsForeign_copyOperand _ destination

theorem not_isToken_move (shell : Shell) (arguments : List String) :
    ¬ IsToken (resultText (shell.move arguments).2) := by
  refine (shell.move_walk arguments).not_isToken ((foreign_ofList rfl).prepend _)
    (foreign_ofList rfl) ?_
  rintro _ _ ⟨destination, -, rfl⟩
  exact reportsForeign_moveOperand _ destination

/-! ## The working directory -/

/-- A canonical path has a slash. -/
theorem foreign_of_isCanonical {path : String} (canonical : Path.IsCanonical path) : Foreign path := by
  rw [← Path.render_components canonical]
  cases hnames : Path.components path with
  | nil => decide
  | cons name rest =>
      refine ⟨'/', ?_, rfl⟩
      rw [Path.toList_render (List.cons_ne_nil name rest), List.flatMap_cons]
      exact List.mem_append_left _ List.mem_cons_self

theorem not_isToken_printDirectory (typed : shell.Typed) (arguments : List String) :
    ¬ IsToken (resultText (shell.printDirectory arguments)) := by
  unfold printDirectory
  split
  · exact not_isToken_of_ok ((foreign_ofList rfl).prepend _)
  · exact (foreign_of_isCanonical typed.cwd.canonical).not_isToken

/-- Going somewhere prints what is shown of it, or a fault. -/
theorem not_isToken_enter {operand path shown : String} (h : ¬ IsToken shown) :
    ¬ IsToken (resultText ((shell.enter operand path).2.map fun _ => shown)) := by
  unfold enter
  split
  · exact h
  · exact not_isToken_of_fault _ _
  · exact not_isToken_of_fault _ _

theorem not_isToken_changeDirectory (typed : shell.Typed) (arguments : List String) :
    ¬ IsToken (resultText (shell.changeDirectory arguments).2) := by
  have operands : ∀ failure, directoryOperand arguments = .error failure →
      Foreign failure.message := by
    intro failure h
    unfold directoryOperand at h
    split at h
    · cases h
    · cases h
    · cases h
      exact foreign_ofList rfl
  unfold changeDirectory
  split
  case h_1 failure refused => exact (operands failure refused).not_isToken
  · split
    · split
      · exact not_isToken_of_usage (foreign_ofList rfl)
      case h_2 path previous =>
        -- The directory before is printed, and it is a path like any other.
        have canonical := (typed.previous path previous).canonical
        exact not_isToken_enter (foreign_of_isCanonical canonical).not_isToken
    · exact not_isToken_enter not_isToken_empty

/-! ## Reading -/

theorem not_isToken_printedFile (stocked : shell.Stocked) (command operand : String) :
    ¬ IsToken (shell.printedFile command operand) := by
  unfold printedFile
  split
  case h_1 content found => exact (stocked.read found).foreign_dropFinalFeeds.not_isToken
  case h_2 =>
    have colon : Foreign ": " := foreign_ofList rfl
    exact ((colon.prepend _).append _).not_isToken

/-- A number stands before a tabulator. -/
theorem not_isToken_numberLines (text : String) : ¬ IsToken (numberLines text) := by
  refine not_isToken_joinLines ?_
  intro line hline
  obtain ⟨numbered, -, rfl⟩ := List.mem_map.1 hline
  have tabulator : Foreign "\t" := foreign_ofList rfl
  exact ((tabulator.prepend _).append _).not_isToken

theorem not_isToken_print (stocked : shell.Stocked) (command : String) (arguments : List String) :
    ¬ IsToken (resultText (print command shell arguments)) := by
  unfold print
  split
  · exact not_isToken_of_usage ((foreign_ofList rfl).prepend _)
  case h_2 operands _ =>
    -- The result is known, so what is shown of it is one of the two texts.
    show ¬ IsToken (if hasFlag ["-n", "--number"] arguments then numberLines _ else _)
    split
    · exact not_isToken_numberLines _
    · refine not_isToken_joinLines ?_
      intro text htext
      obtain ⟨operand, -, rfl⟩ := List.mem_map.1 htext
      exact not_isToken_printedFile stocked command operand

theorem mem_of_mem_pick {α : Type} {side : FileEnd} {count : Nat} {elements : List α} {a : α}
    (h : a ∈ side.pick count elements) : a ∈ elements := by
  cases side with
  | front => exact List.mem_of_mem_take h
  | back => exact List.mem_of_mem_drop h

/-- **An excerpt of a content is no token**, whichever of its lines are picked. -/
theorem not_isToken_excerptOf {content : String} (stock : IsStock content) (side : FileEnd)
    (count : Nat) : ¬ IsToken (excerptOf side count content) := by
  refine not_isToken_joinLines ?_
  intro line hline
  exact (stock.foreign_of_mem_lines (mem_of_mem_pick hline)).not_isToken

theorem not_isToken_excerptSection (stocked : shell.Stocked) (side : FileEnd) (count : Nat)
    (headed : Bool) (operand : String) :
    ¬ IsToken (shell.excerptSection side count headed operand) := by
  simp only [excerptSection]
  split
  · have middle : Foreign "' for reading: " := foreign_ofList rfl
    exact ((middle.prepend _).append _).not_isToken
  case h_2 content found =>
    split
    · have heading : Foreign "==> " := foreign_ofList rfl
      exact (((heading.append _).append _).append _).not_isToken
    · exact not_isToken_excerptOf (stocked.read found) side count

theorem not_isToken_excerpt (stocked : shell.Stocked) (side : FileEnd) (arguments : List String) :
    ¬ IsToken (resultText (excerpt side shell arguments)) := by
  unfold excerpt
  split
  case h_1 failure refused =>
    obtain ⟨-, begins⟩ := isOwn_and_begins_of_excerptRequest refused
    exact (begins.foreign (by cases side <;> exact foreign_ofList rfl)).not_isToken
  · exact not_isToken_of_usage ((foreign_ofList rfl).prepend _)
  case h_3 count operand rest _ =>
    refine not_isToken_joinLines ?_
    intro text htext
    obtain ⟨other, -, rfl⟩ := List.mem_map.1 htext
    exact not_isToken_excerptSection stocked side count _ other

/-! ## Listings -/

/-- **`ls` shows one name and nothing else**: the file it was asked for, or the only child that is
shown of a directory. -/
def ListsOnly (shell : Shell) (arguments : List String) (name : String) : Prop :=
  helpFlag ∉ arguments ∧ (listSettings arguments).long = false ∧
    match shell.vault.find? (shell.resolve ((operandsOf arguments).headD ".")) with
    | none => False
    | some (.file ..) => (operandsOf arguments).headD "." = name
    | some (.directory _ children) =>
      (listSettings arguments).showAll = false ∧
        (children.filter fun child => !isHidden child.1).map Prod.fst = [name]

/-- A listing does not look at the clock. -/
theorem listsOnly_tick {arguments : List String} {name : String} :
    shell.tick.ListsOnly arguments name ↔ shell.ListsOnly arguments name := Iff.rfl

/-- A row of a long listing has blanks between its columns. -/
theorem foreign_longRow (identity : String) (row : String × Node) : Foreign (longRow identity row) := by
  obtain ⟨name, node⟩ := row
  refine ⟨' ', ?_, by decide⟩
  unfold longRow
  rw [String.toList_intercalate, List.map_cons, List.map_cons, List.intercalate_cons_cons]
  exact List.mem_append_left _ (List.mem_append_right _ List.mem_cons_self)

/-- **The text of a listing is a token** only if the listing is short and has a single row. -/
theorem listText_eq_token_iff {identity : String} {settings : ListSettings}
    {rows : List (String × Node)} {sentinel : Sentinel} :
    listText identity settings rows = sentinel.token ↔
      settings.long = false ∧ rows.map Prod.fst = [sentinel.token] := by
  have wide : Foreign "  " := foreign_ofList rfl
  cases hlong : settings.long with
  | true =>
      -- A single row may do without a line feed, but not without its columns.
      simp only [listText, hlong, Bool.true_or, if_true, Bool.true_eq_false, false_and, iff_false]
      intro heq
      rw [intercalate_eq_token_iff foreign_feed] at heq
      have row : sentinel.token ∈ rows.map (longRow identity) := by
        rw [heq]
        exact List.mem_singleton_self _
      obtain ⟨shown, -, hshown⟩ := List.mem_map.1 row
      exact (foreign_longRow identity shown).not_isToken ⟨sentinel, hshown⟩
  | false =>
      simp only [listText, hlong, Bool.false_or, Bool.false_eq_true, if_false, true_and]
      cases settings.onePerLine with
      | true => exact intercalate_eq_token_iff foreign_feed
      | false => exact intercalate_eq_token_iff wide

/-- Which nodes have a listing with a single row, and of which name: with all children, a directory
has its own row and that of the one above besides. -/
theorem listRows_eq_singleton_iff {settings : ListSettings} {operand path name : String}
    {node : Node} :
    (shell.listRows settings operand path node).map Prod.fst = [name] ↔
      match node with
      | .file .. => operand = name
      | .directory _ children =>
        settings.showAll = false ∧
          (children.filter fun child => !isHidden child.1).map Prod.fst = [name] := by
  cases node with
  | file attributes content => simp [listRows]
  | directory attributes children =>
      cases hall : settings.showAll with
      | true => simp [listRows, hall]
      | false => simp [listRows, hall]

/-- **When `ls` prints a token.** -/
theorem resultText_list_eq_token_iff {arguments : List String} {sentinel : Sentinel} :
    resultText (shell.list arguments) = sentinel.token ↔
      shell.ListsOnly arguments sentinel.token := by
  unfold list ListsOnly
  by_cases help : helpFlag ∈ arguments
  · rw [if_pos help]
    constructor
    · intro heq
      exact absurd ⟨sentinel, heq⟩ (not_isToken_of_ok ((foreign_ofList rfl).prepend _))
    · rintro ⟨without, -⟩
      exact absurd help without
  · simp only [help, if_false, not_false_eq_true, true_and]
    cases found : shell.vault.find? (shell.resolve ((operandsOf arguments).headD ".")) with
    | none =>
        constructor
        · intro heq
          exact absurd ⟨sentinel, heq⟩ (not_isToken_of_fault _ _)
        · rintro ⟨-, none⟩
          exact none.elim
    | some node =>
        show listText _ _ _ = sentinel.token ↔ _
        rw [listText_eq_token_iff, listRows_eq_singleton_iff]
        cases node <;> exact Iff.rfl

end Shell

/-! ## All commands -/

/-- The reading of a clock has blanks around its zone. -/
theorem foreign_full (now : Instant) : Foreign (ClockTime.full now) := by
  have zone : Foreign " UTC " := foreign_ofList rfl
  exact ((zone.prepend _).append _).prepend _

/-- **No command prints a token, but `ls`** where it shows one name and the name is a token.  The
shell has to have a user who is not named like a token. -/
theorem Command.resultText_execute_eq_token_iff {shell : Shell} (typed : shell.Typed)
    (stocked : shell.Stocked) (identity : ¬ IsToken shell.identity) (now : Instant)
    (command : Command) (arguments : List String) (sentinel : Sentinel) :
    Shell.resultText (command.execute (ClockTime.full now) shell arguments).2 = sentinel.token ↔
      command = .ls ∧ shell.ListsOnly arguments sentinel.token := by
  by_cases listing : command = .ls
  · subst listing
    rw [eq_self_iff_true, true_and]
    exact Shell.resultText_list_eq_token_iff
  · rw [iff_false_intro fun h : command = .ls ∧ _ => listing h.1, iff_false]
    suffices silent : ¬ IsToken
        (Shell.resultText (command.execute (ClockTime.full now) shell arguments).2) from
      fun heq => silent ⟨sentinel, heq⟩
    cases command with
    | cat => exact Shell.not_isToken_print stocked "cat" arguments
    | cd => exact Shell.not_isToken_changeDirectory typed arguments
    | clear => exact not_isToken_empty
    | cp => exact Shell.not_isToken_copy shell arguments
    | date => exact (foreign_full now).not_isToken
    | exit => exact not_isToken_empty
    | head => exact Shell.not_isToken_excerpt stocked .front arguments
    | less => exact Shell.not_isToken_print stocked "less" arguments
    | ls => exact absurd rfl listing
    | mkdir => exact Shell.not_isToken_makeDirectories shell arguments
    | mv => exact Shell.not_isToken_move shell arguments
    | pwd => exact Shell.not_isToken_printDirectory typed arguments
    | rm => exact Shell.not_isToken_remove shell arguments
    | rmdir => exact Shell.not_isToken_removeDirectories shell arguments
    | tail => exact Shell.not_isToken_excerpt stocked .back arguments
    | touch => exact Shell.not_isToken_touch shell arguments
    | whoami => exact identity

end VaultShell
