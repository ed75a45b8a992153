import VaultShell.Proofs.Shell.DirectoryChanges
import VaultShell.Proofs.Shell.Excerpts
import VaultShell.Proofs.Shell.Operands

/-!
# Spellings of a path

One path has many spellings: relative to the working directory or not, behind a tilde, with full stops,
doubled slashes or a slash at its end.  A message shows the spelling that was typed, but no decision is
made by it.  So two operands that lead to the same path can stand for each other, wherever no message is
printed about them; and a state remembers no message.

For one step this is read off its definition.  For a run of steps it is carried along by the fact that no
step moves the working directory: operands that lead to the same path in the first state still do so in
every later one.  An operand that begins with a hyphen is left out, since it might be a flag.

## Main definitions

* `Shell.SeesPath`: a step that knows an operand by its path
* `excerptOperands`: the operands of `head` and `tail`

## Main statements

* `Shell.eachOperand_fst_congr`, `Shell.transferAll_fst_congr`: runs of steps
* `Command.execute_fst_of_paths`: the state after a command
* `Command.execute_spelling`: the state and, where no message is printed, the output
-/

namespace VaultShell

namespace Shell

variable {shell : Shell}

/-! ## One operand -/

/-- **A step that knows an operand by its path**, as far as the state afterwards goes. -/
def SeesPath (step : Shell → String → Shell × List String) : Prop :=
  ∀ shell one two, resolve shell one = resolve shell two → (step shell one).1 = (step shell two).1

theorem seesPath_makeOperand (settings : MakeSettings) : SeesPath (makeOperand settings) := by
  intro shell one two same
  rw [makeOperand_fst, makeOperand_fst]
  split
  · rw [makePath, makePath, same]
  · refine (shell.makeDirectory_outcome one).fst_congr (shell.makeDirectory_outcome two) ?_
    intro vault result
    rw [same]

theorem seesPath_touchOperand (noCreate : Bool) : SeesPath (touchOperand noCreate) := by
  intro shell one two same
  refine (touchOperand_outcome noCreate shell one).fst_congr (touchOperand_outcome noCreate shell two) ?_
  intro vault report
  rw [same]

theorem seesPath_removeOperand (settings : RemoveSettings) : SeesPath (removeOperand settings) := by
  intro shell one two same
  rw [removeOperand_fst, removeOperand_fst]
  refine (removeNode_outcome settings shell one).fst_congr (removeNode_outcome settings shell two) ?_
  intro vault result
  rw [same]

/-- The directories above an operand are found in its text, so `rmdir` is included only where it leaves
them alone. -/
theorem seesPath_removeDirectoryOperand {settings : RemoveDirectorySettings}
    (single : settings.parents = false) : SeesPath (removeDirectoryOperand settings) := by
  intro shell one two same
  simp only [removeDirectoryOperand, single, Bool.false_eq_true, if_false, removeChain, same]
  split
  · rfl
  · rfl
  · split <;> rfl

/-! ## A source and a destination -/

variable {source source' destination destination' : String}

theorem copyOperand_fst_congr (settings : CopySettings)
    (sameSource : shell.resolve source = shell.resolve source')
    (sameDestination : shell.resolve destination = shell.resolve destination') :
    (copyOperand settings shell source destination).1 =
      (copyOperand settings shell source' destination').1 := by
  rw [copyOperand_fst, copyOperand_fst]
  refine (copyNode_outcome _ shell source destination).fst_congr
    (copyNode_outcome _ shell source' destination') fun vault result => ?_
  exact ⟨fun grant => grant.respelt sameSource sameDestination,
    fun grant => grant.respelt sameSource.symm sameDestination.symm⟩

theorem moveOperand_fst_congr (verbose : Bool)
    (sameSource : shell.resolve source = shell.resolve source')
    (sameDestination : shell.resolve destination = shell.resolve destination') :
    (moveOperand verbose shell source destination).1 =
      (moveOperand verbose shell source' destination').1 := by
  rw [moveOperand_fst, moveOperand_fst]
  refine (moveNode_outcome shell source destination).fst_congr
    (moveNode_outcome shell source' destination') fun vault result => ?_
  exact ⟨fun grant => grant.respelt sameSource sameDestination,
    fun grant => grant.respelt sameSource.symm sameDestination.symm⟩

/-! ## All operands -/

/-- **Steps that do the same to the same paths** do the same to operands that lead to the same paths: the
working directory stays where it is, so they lead there in every state on the way. -/
theorem eachOperand_fst_congr {step step' : Shell → String → Shell × List String}
    (keeps : ∀ shell operand, VaultOnly shell (step shell operand).1) {cwd : String}
    (alike : ∀ shell one two, shell.cwd = cwd → resolve shell one = resolve shell two →
      (step shell one).1 = (step' shell two).1)
    {shell : Shell} (here : shell.cwd = cwd) {operands operands' : List String}
    (same : operands.map (Path.resolve cwd) = operands'.map (Path.resolve cwd)) :
    (shell.eachOperand step operands).1 = (shell.eachOperand step' operands').1 := by
  induction operands generalizing shell operands' with
  | nil =>
      obtain rfl : operands' = [] := by simpa using same.symm
      rfl
  | cons operand rest ih =>
      cases operands' with
      | nil => cases same
      | cons operand' rest' =>
          obtain ⟨first, others⟩ := List.cons.inj same
          have led : resolve shell operand = resolve shell operand' := by
            unfold resolve
            rw [here]
            exact first
          rw [eachOperand_cons, eachOperand_cons, ← alike shell operand operand' here led]
          exact ih ((keeps shell operand).cwd.trans here) others

theorem SeesPath.eachOperand {step : Shell → String → Shell × List String} (sees : SeesPath step)
    (keeps : ∀ shell operand, VaultOnly shell (step shell operand).1) (shell : Shell)
    {operands operands' : List String}
    (same : operands.map shell.resolve = operands'.map shell.resolve) :
    (shell.eachOperand step operands).1 = (shell.eachOperand step operands').1 :=
  eachOperand_fst_congr keeps (fun shell one two _ => sees shell one two) rfl same

/-- Operands that lead to the same paths are sources and a destination alike. -/
theorem sourcesAndDestination?_congr {operands operands' : List String}
    (same : operands.map shell.resolve = operands'.map shell.resolve) :
    (sourcesAndDestination? operands = none ∧ sourcesAndDestination? operands' = none) ∨
      ∃ sources sources' destination destination',
        sourcesAndDestination? operands = some (sources, destination) ∧
        sourcesAndDestination? operands' = some (sources', destination') ∧
        sources.map shell.resolve = sources'.map shell.resolve ∧
        shell.resolve destination = shell.resolve destination' := by
  have front : operands.dropLast.map shell.resolve = operands'.dropLast.map shell.resolve := by
    rw [List.map_dropLast, List.map_dropLast, same]
  have last : operands.getLast?.map shell.resolve = operands'.getLast?.map shell.resolve := by
    rw [← List.getLast?_map, ← List.getLast?_map, same]
  unfold sourcesAndDestination?
  cases sources : operands.dropLast with
  | nil =>
      rw [sources] at front
      have none : operands'.dropLast = [] := List.map_eq_nil_iff.1 front.symm
      exact Or.inl ⟨rfl, by rw [none]⟩
  | cons source rest =>
      rw [sources] at front
      obtain ⟨source', rest', sources', -⟩ := List.map_eq_cons_iff.1 front.symm
      cases destination : operands.getLast? with
      | none =>
          rw [destination] at last
          have none : operands'.getLast? = none := by simpa using last.symm
          exact Or.inl ⟨rfl, by rw [sources', none]⟩
      | some final =>
          rw [destination] at last
          obtain ⟨final', destination', led⟩ := Option.map_eq_some_iff.1 last.symm
          rw [sources'] at front
          exact Or.inr ⟨_, _, _, _, rfl, by rw [sources', destination'], front, led.symm⟩

/-- The same for the sources and the destination of a transfer. -/
theorem transferAll_fst_congr {command : String}
    {step : Shell → String → String → Shell × List String}
    (keeps : ∀ shell source destination, VaultOnly shell (step shell source destination).1)
    (alike : ∀ (shell : Shell) (source source' destination destination' : String),
      shell.resolve source = shell.resolve source' →
      shell.resolve destination = shell.resolve destination' →
      (step shell source destination).1 = (step shell source' destination').1)
    (shell : Shell) {operands operands' : List String}
    (same : operands.map shell.resolve = operands'.map shell.resolve) :
    (transferAll command step shell operands).1 = (transferAll command step shell operands').1 := by
  rcases sourcesAndDestination?_congr same with
    ⟨none, none'⟩ | ⟨sources, sources', destination, destination', parts, parts', front, last⟩
  · simp only [transferAll, none, none']
  · have count : sources.length = sources'.length := by
      simpa using congrArg List.length front
    have led : ∀ after : Shell, after.cwd = shell.cwd →
        after.resolve destination = after.resolve destination' := by
      intro after here
      unfold resolve at last ⊢
      rw [here]
      exact last
    simp only [transferAll, parts, parts', count, last]
    split
    · rfl
    · exact eachOperand_fst_congr (fun after source => keeps after source destination)
        (fun after source source' here reached =>
          alike after source source' _ _ reached (led after here))
        rfl front

/-! ## What is printed of a path -/

variable {one two content : String} {arguments : List String}

/-- `cat` and `less` of a single file that can be read. -/
theorem print_single (readable : shell.vault.read (shell.resolve one) = .ok content)
    (single : operandsOf arguments = [one]) (command : String) :
    print command shell arguments =
      .ok (if hasFlag ["-n", "--number"] (flagsOf arguments) then
          numberLines (Text.joinLines [Text.dropFinalFeeds content])
        else Text.joinLines [Text.dropFinalFeeds content]) := by
  rw [hasFlag_flagsOf (by decide)]
  simp only [print, single, List.map_cons, List.map_nil, printedFile, readable]

/-- **`cat` and `less` of a single file that can be read** print the same for every spelling. -/
theorem print_congr {front back : List String}
    (readable : shell.vault.read (shell.resolve one) = .ok content)
    (same : shell.resolve one = shell.resolve two) (plain : isFlag one = false)
    (plain' : isFlag two = false) (single : operandsOf (front ++ one :: back) = [one])
    (command : String) :
    print command shell (front ++ one :: back) = print command shell (front ++ two :: back) := by
  have readable' := readable
  rw [same] at readable'
  have single' : operandsOf (front ++ two :: back) = [two] := by
    rw [operandsOf_append_operand plain, List.append_eq_singleton_iff] at single
    rw [operandsOf_append_operand plain']
    rcases single with ⟨front, back⟩ | ⟨-, never⟩
    · rw [front, (List.cons.inj back).2]
      rfl
    · cases never
  rw [print_single readable single, print_single readable' single', flagsOf_append_operand plain,
    flagsOf_append_operand plain']

/-- What `ls` shows of its first operand. -/
def listed (shell : Shell) (settings : ListSettings) (operand : String) : Except Failure String :=
  let path := shell.resolve operand
  match shell.vault.find? path with
  | none => .error (.fault s!"ls: cannot access '{operand}'" .notFound)
  | some node => .ok (listText shell.identity settings (shell.listRows settings operand path node))

/-- `ls` by its flags and its first operand. -/
theorem list_eq (shell : Shell) (arguments : List String) :
    shell.list arguments =
      if helpFlag ∈ flagsOf arguments then .ok listHelp
      else shell.listed (listSettings (flagsOf arguments)) ((operandsOf arguments).headD ".") := by
  simp only [helpFlag_mem_flagsOf, listSettings_flagsOf]
  rfl

/-- A directory is shown without its own name. -/
theorem listed_congr (same : shell.resolve one = shell.resolve two)
    (directory : shell.vault.isDirectory (shell.resolve one) = true) (settings : ListSettings) :
    shell.listed settings one = shell.listed settings two := by
  obtain ⟨attributes, children, found⟩ := Node.isDirectoryAt_eq_true.1 directory
  have found' : shell.vault.find? (shell.resolve one) = some (.directory attributes children) := found
  rw [same] at found'
  simp only [listed, same, found']
  rfl

/-- **`ls` of a directory** prints the same for every spelling. -/
theorem list_congr (same : shell.resolve one = shell.resolve two)
    (directory : shell.vault.isDirectory (shell.resolve one) = true) (plain : isFlag one = false)
    (plain' : isFlag two = false) (front back : List String) :
    shell.list (front ++ one :: back) = shell.list (front ++ two :: back) := by
  rw [list_eq, list_eq, flagsOf_append_operand plain, flagsOf_append_operand plain',
    operandsOf_append_operand plain, operandsOf_append_operand plain']
  -- An operand further in front hides both of them.
  cases operandsOf front with
  | nil => simp only [List.nil_append, List.headD_cons, listed_congr same directory]
  | cons first rest => rfl

end Shell

/-! ## The operands of `head` and `tail` -/

/-- The operands among the arguments of `head` and `tail`, and whether a flag at the end still waits for
its number. -/
def excerptOperands : List String → List String × Bool
  | [] => ([], false)
  | argument :: rest =>
    if argument = "-n" ∨ argument = "--lines" then
      match rest with
      | [] => ([], true)
      | _ :: rest => excerptOperands rest
    else
      let (operands, waiting) := excerptOperands rest
      (if isFlag argument then operands else argument :: operands, waiting)

theorem excerptOperands_number {argument : String} (number : argument = "-n" ∨ argument = "--lines")
    (spelling : String) (rest : List String) :
    excerptOperands (argument :: spelling :: rest) = excerptOperands rest := by
  conv_lhs => unfold excerptOperands
  simp only [number, if_true]

theorem excerptOperands_fst {argument : String} (number : ¬ (argument = "-n" ∨ argument = "--lines"))
    (rest : List String) :
    (excerptOperands (argument :: rest)).1 =
      if isFlag argument then (excerptOperands rest).1 else argument :: (excerptOperands rest).1 := by
  conv_lhs => unfold excerptOperands
  simp only [number, if_false]

namespace Shell

/-- **The operands of a request** are found without reading a number. -/
theorem operands_of_excerptRequest {side : FileEnd} {count found : Nat}
    {arguments operands : List String}
    (request : excerptRequest side count arguments = .ok (found, operands)) :
    operands = (excerptOperands arguments).1 := by
  have flag : ∀ {argument spelling : String}, attachedCount? argument = some spelling →
      isFlag argument = true := by
    intro argument spelling attached
    by_contra operand
    rw [attachedCount?_eq_none (by simpa using operand)] at attached
    cases attached
  fun_induction excerptRequest side count arguments generalizing operands found
  case case1 =>
    cases request
    rfl
  case case2 | case3 | case5 | case8 => cases request
  case case4 argument number spelling rest _ _ ih =>
    rw [excerptOperands_number number]
    exact ih request
  case case6 argument rest number _ attached _ _ ih =>
    rw [excerptOperands_fst number, if_pos (flag attached)]
    exact ih request
  case case7 argument rest number _ isFlag ih =>
    rw [excerptOperands_fst number, if_pos isFlag]
    exact ih request
  case case9 argument rest number _ operand _ others read ih =>
    cases request
    rw [excerptOperands_fst number, if_neg operand, ih read]

/-- **Flags that do not wait for a number** are read first, whatever follows them. -/
theorem excerptRequest_append {front : List String} (complete : excerptOperands front = ([], false))
    (side : FileEnd) (count : Nat) :
    (∃ failure, ∀ back, excerptRequest side count (front ++ back) = .error failure) ∨
      ∃ found, ∀ back, excerptRequest side count (front ++ back) = excerptRequest side found back := by
  fun_induction excerptOperands front generalizing count
  case case1 => exact Or.inr ⟨count, fun _ => rfl⟩
  case case2 => cases complete
  case case3 argument number spelling rest ih =>
    simp only [List.cons_append, excerptRequest_number side _ _ number]
    cases lineCount side spelling with
    | error failure => exact Or.inl ⟨failure, fun _ => rfl⟩
    | ok count => exact ih complete count
  case case4 argument rest number operands waiting read ih =>
    simp only [Prod.mk.injEq] at complete
    obtain ⟨empty, rfl⟩ := complete
    split at empty
    case isFalse => cases empty
    case isTrue flag =>
      subst empty
      simp only [List.cons_append, excerptRequest_flag side _ _ number flag]
      cases attachedCount? argument with
      | none => exact ih read count
      | some spelling =>
          simp only
          cases lineCount side spelling with
          | error failure => exact Or.inl ⟨failure, fun _ => rfl⟩
          | ok count => exact ih read count

/-- **`head` and `tail` of a single file that can be read** print the same for every spelling. -/
theorem excerpt_congr {shell : Shell} {one two content : String} {front back : List String}
    (side : FileEnd) (readable : shell.vault.read (shell.resolve one) = .ok content)
    (same : shell.resolve one = shell.resolve two) (plain : isFlag one = false)
    (plain' : isFlag two = false) (complete : excerptOperands front = ([], false))
    (single : (excerptOperands back).1 = []) :
    excerpt side shell (front ++ one :: back) = excerpt side shell (front ++ two :: back) := by
  unfold excerpt
  rcases excerptRequest_append complete side defaultLineCount with
    ⟨failure, refused⟩ | ⟨count, reads⟩
  · simp only [refused]
  · simp only [reads, excerptRequest_operand side count back plain,
      excerptRequest_operand side count back plain']
    cases request : excerptRequest side count back with
    | error failure => rfl
    | ok found =>
        obtain ⟨last, operands⟩ := found
        obtain rfl : operands = [] := (operands_of_excerptRequest request).trans single
        have readable' := readable
        rw [same] at readable'
        simp only [Except.map, List.map_cons, List.map_nil, excerptSection, readable, readable',
          List.isEmpty_nil, Bool.not_true, Bool.false_eq_true, if_false]

/-- `cd` moves to the path, however it is spelt; a failure stays. -/
theorem changeDirectory_fst_congr {shell : Shell} {one two : String}
    (same : shell.resolve one = shell.resolve two) (notBack : one ≠ "-") (notBack' : two ≠ "-")
    (front back : List String) :
    (shell.changeDirectory (front ++ one :: back)).1 =
      (shell.changeDirectory (front ++ two :: back)).1 := by
  have many : ∀ operand : String, front ≠ [] ∨ back ≠ [] →
      shell.changeDirectory (front ++ operand :: back) =
        (shell, .error (.usage "cd: too many arguments")) := by
    intro operand others
    match front, back, others with
    | [], _ :: _, _ => rfl
    | [_], [], _ => rfl
    | [_], _ :: _, _ => rfl
    | _ :: _ :: _, _, _ => rfl
  by_cases others : front ≠ [] ∨ back ≠ []
  · rw [many one others, many two others]
  · obtain ⟨rfl, rfl⟩ : front = [] ∧ back = [] := by simpa using others
    rw [List.nil_append, List.nil_append, changeDirectory_operand notBack,
      changeDirectory_operand notBack', same]
    split <;> rfl

end Shell

/-! ## Commands -/

namespace Command

variable {command : Command} {wallClock : String} {shell : Shell} {arguments arguments' : List String}

/-- **What a command does to the state** is the same for the same flags and the same paths. -/
theorem execute_fst_congr_of_step? {step : Shell → String → Shell × List String}
    (steps : command.step? (flagsOf arguments) = some step)
    (walks : command ∈ [.mkdir, .touch, .rm, .rmdir, .cp, .mv]) (sees : Shell.SeesPath step)
    (keeps : ∀ shell operand, Shell.VaultOnly shell (step shell operand).1)
    (flags : flagsOf arguments = flagsOf arguments')
    (paths : (operandsOf arguments).map shell.resolve = (operandsOf arguments').map shell.resolve)
    (given : operandsOf arguments ≠ []) :
    (command.execute wallClock shell arguments).1 = (command.execute wallClock shell arguments').1 := by
  have given' : operandsOf arguments' ≠ [] := by
    intro none
    rw [none] at paths
    exact given (List.map_eq_nil_iff.1 paths)
  have steps' := steps
  rw [flags] at steps'
  by_cases accepted : ∀ flag ∈ flagsOf arguments, command.accepts flag = true
  · have accepted' := accepted
    rw [flags] at accepted'
    rw [execute_of_step? steps accepted given, execute_of_step? steps' accepted' given']
    exact sees.eachOperand keeps shell paths
  · have refused := accepted
    rw [flags] at refused
    rw [execute_fst_of_not_accepted walks accepted, execute_fst_of_not_accepted walks refused]

/-- The same for `cp` and `mv`. -/
theorem execute_fst_congr_of_transfer? {transfer : Shell → String → String → Shell × List String}
    (transfers : command.transfer? (flagsOf arguments) = some transfer)
    (walks : command ∈ [.mkdir, .touch, .rm, .rmdir, .cp, .mv])
    (keeps : ∀ shell source destination, Shell.VaultOnly shell (transfer shell source destination).1)
    (alike : ∀ (shell : Shell) (source source' destination destination' : String),
      shell.resolve source = shell.resolve source' →
      shell.resolve destination = shell.resolve destination' →
      (transfer shell source destination).1 = (transfer shell source' destination').1)
    (flags : flagsOf arguments = flagsOf arguments')
    (paths : (operandsOf arguments).map shell.resolve = (operandsOf arguments').map shell.resolve) :
    (command.execute wallClock shell arguments).1 = (command.execute wallClock shell arguments').1 := by
  have transfers' := transfers
  rw [flags] at transfers'
  by_cases accepted : ∀ flag ∈ flagsOf arguments, command.accepts flag = true
  · have accepted' := accepted
    rw [flags] at accepted'
    rw [execute_of_transfer? transfers accepted, execute_of_transfer? transfers' accepted']
    exact Shell.transferAll_fst_congr keeps alike shell paths
  · have refused := accepted
    rw [flags] at refused
    rw [execute_fst_of_not_accepted walks accepted, execute_fst_of_not_accepted walks refused]

/-- **The commands that change the state**, `rmdir` with the directories above its operands apart. -/
theorem execute_fst_of_paths
    (changes : command ∈ [.mkdir, .touch, .rm, .cp, .mv] ∨
      command = .rmdir ∧ hasFlag ["-p", "--parents"] arguments = false)
    (flags : flagsOf arguments = flagsOf arguments')
    (paths : (operandsOf arguments).map shell.resolve = (operandsOf arguments').map shell.resolve)
    (given : operandsOf arguments ≠ []) :
    (command.execute wallClock shell arguments).1 = (command.execute wallClock shell arguments').1 := by
  simp only [List.mem_cons, List.not_mem_nil, or_false] at changes
  rcases changes with (rfl | rfl | rfl | rfl | rfl) | ⟨rfl, single⟩
  · exact execute_fst_congr_of_step? rfl (by simp) (Shell.seesPath_makeOperand _)
      (Shell.makeOperand_vaultOnly _) flags paths given
  · exact execute_fst_congr_of_step? rfl (by simp) (Shell.seesPath_touchOperand _)
      (Shell.touchOperand_vaultOnly _) flags paths given
  · exact execute_fst_congr_of_step? rfl (by simp) (Shell.seesPath_removeOperand _)
      (Shell.removeOperand_vaultOnly _) flags paths given
  · exact execute_fst_congr_of_transfer? rfl (by simp) (Shell.copyOperand_vaultOnly _)
      (fun _ _ _ _ _ => Shell.copyOperand_fst_congr _) flags paths
  · exact execute_fst_congr_of_transfer? rfl (by simp) (Shell.moveOperand_vaultOnly _)
      (fun _ _ _ _ _ => Shell.moveOperand_fst_congr _) flags paths
  · refine execute_fst_congr_of_step? rfl (by simp) (Shell.seesPath_removeDirectoryOperand ?_)
      (Shell.removeDirectoryOperand_vaultOnly _) flags paths given
    rw [Shell.removeDirectorySettings_flagsOf]
    exact single

/-- **Only the path of an operand counts.**  In any state, let two operands lead to the same path and let
neither begin with a hyphen.  Wherever one of them stands among the arguments, it can be replaced by the
other one:

* `mkdir`, `touch`, `rm`, `cp`, `mv` and `cd` leave the same state, whatever their flags and the other
  operands are, and so does `rmdir` unless it goes on with the directories above;
* `cat`, `less`, `head` and `tail` print the same if it is their single operand and a file is there, and
  so does `ls` if a directory is there. -/
theorem execute_spelling (wallClock : String) {shell : Shell} {one two : String}
    (same : shell.resolve one = shell.resolve two) (plain : one.toList.head? ≠ some '-')
    (plain' : two.toList.head? ≠ some '-') (front back : List String) :
    let arguments := front ++ one :: back
    let respelt := front ++ two :: back
    (∀ command ∈ [Command.mkdir, .touch, .rm, .cp, .mv, .cd],
      (command.execute wallClock shell arguments).1 = (command.execute wallClock shell respelt).1) ∧
    (hasFlag ["-p", "--parents"] arguments = false →
      (Command.rmdir.execute wallClock shell arguments).1 =
        (Command.rmdir.execute wallClock shell respelt).1) ∧
    (∀ content, shell.vault.read (shell.resolve one) = .ok content →
      (operandsOf arguments = [one] → ∀ command ∈ [Command.cat, .less],
        (command.execute wallClock shell arguments).2 = (command.execute wallClock shell respelt).2) ∧
      (excerptOperands front = ([], false) → (excerptOperands back).1 = [] →
        ∀ command ∈ [Command.head, .tail],
        (command.execute wallClock shell arguments).2 = (command.execute wallClock shell respelt).2)) ∧
    (shell.vault.isDirectory (shell.resolve one) = true →
      (Command.ls.execute wallClock shell arguments).2 =
        (Command.ls.execute wallClock shell respelt).2) := by
  intro arguments respelt
  have operand : isFlag one = false := isFlag_eq_false_of_head? plain
  have operand' : isFlag two = false := isFlag_eq_false_of_head? plain'
  have notBack : one ≠ "-" := by
    rintro rfl
    exact plain rfl
  have notBack' : two ≠ "-" := by
    rintro rfl
    exact plain' rfl
  have flags : flagsOf arguments = flagsOf respelt := by
    rw [flagsOf_append_operand operand, flagsOf_append_operand operand']
  have paths : (operandsOf arguments).map shell.resolve = (operandsOf respelt).map shell.resolve := by
    rw [operandsOf_append_operand operand, operandsOf_append_operand operand', List.map_append,
      List.map_append, List.map_cons, List.map_cons, same]
  have given : operandsOf arguments ≠ [] := by simp [arguments, operandsOf_append_operand operand]
  refine ⟨?_, ?_, ?_, ?_⟩
  · intro command changes
    by_cases moves : command = .cd
    · subst moves
      exact Shell.changeDirectory_fst_congr same notBack notBack' front back
    · refine execute_fst_of_paths (Or.inl ?_) flags paths given
      simpa [moves] using changes
  · intro single
    exact execute_fst_of_paths (Or.inr ⟨rfl, single⟩) flags paths given
  · intro content readable
    refine ⟨?_, ?_⟩
    · intro single command prints
      simp only [List.mem_cons, List.not_mem_nil, or_false] at prints
      rcases prints with rfl | rfl <;>
        exact Shell.print_congr readable same operand operand' single _
    · intro complete single command prints
      simp only [List.mem_cons, List.not_mem_nil, or_false] at prints
      rcases prints with rfl | rfl <;>
        exact Shell.excerpt_congr _ readable same operand operand' complete single
  · intro directory
    exact Shell.list_congr same directory operand operand' front back

/-- The readme from the root, and by way of a directory and back. -/
theorem execute_spelling_dotted :
    ((Shell.fresh "vault-user" .origin).resolve "/readme.txt" =
        (Shell.fresh "vault-user" .origin).resolve "vault/..//./readme.txt/") ∧
      (Command.cp.execute "" (Shell.fresh "vault-user" .origin) ["-v", "/readme.txt", "vault"]).1 =
        (Command.cp.execute "" (Shell.fresh "vault-user" .origin)
          ["-v", "vault/..//./readme.txt/", "vault"]).1 ∧
      (Command.tail.execute "" (Shell.fresh "vault-user" .origin) ["-n", "1", "/readme.txt"]).2 =
        (Command.tail.execute "" (Shell.fresh "vault-user" .origin)
          ["-n", "1", "vault/..//./readme.txt/"]).2 := by
  have same : (Shell.fresh "vault-user" .origin).resolve "/readme.txt" =
      (Shell.fresh "vault-user" .origin).resolve "vault/..//./readme.txt/" := by decide +kernel
  have readable : (Shell.fresh "vault-user" .origin).vault.read
      ((Shell.fresh "vault-user" .origin).resolve "/readme.txt") = .ok readmeContent := by decide +kernel
  obtain ⟨changes, -, -, -⟩ := execute_spelling "" same (by decide) (by decide) ["-v"] ["vault"]
  obtain ⟨-, -, prints, -⟩ := execute_spelling "" same (by decide) (by decide) ["-n", "1"] []
  exact ⟨same, changes .cp (by decide), (prints readmeContent readable).2 (by decide) (by decide) .tail
    (by decide)⟩

end Command

end VaultShell
