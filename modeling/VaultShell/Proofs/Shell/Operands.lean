import VaultShell.Shell.Command

/-!
# Commands by their flags and operands

Six commands do one thing for each of their operands.  What that is depends on the flags alone, and the
place of a flag among the operands does not count.  So everything that such a command does is known from
two lists, the flags and the operands, each in its order: unless it takes all flags and is given
operands, it leaves the state alone, and otherwise it goes through the operands with one step.

## Main definitions

* `flagsOf`: the arguments that are flags
* `Command.accepts`: the flags with which a command starts on its operands
* `Command.step?`, `Command.transfer?`: what it does for one operand, by the flags

## Main statements

* `Command.execute_of_step?`: `mkdir`, `touch`, `rm` and `rmdir` with flags that they take
* `Command.execute_of_transfer?`: `cp` and `mv` with flags that they take
* `Command.execute_fst_of_not_accepted`: none of them does anything otherwise
-/

namespace VaultShell

/-! ## Flags and operands -/

/-- The arguments that are flags, in their order. -/
def flagsOf (arguments : List String) : List String :=
  arguments.filter isFlag

theorem mem_flagsOf {arguments : List String} {flag : String} :
    flag ∈ flagsOf arguments ↔ flag ∈ arguments ∧ isFlag flag = true :=
  List.mem_filter

@[simp] theorem flagsOf_append (front back : List String) :
    flagsOf (front ++ back) = flagsOf front ++ flagsOf back :=
  List.filter_append ..

@[simp] theorem operandsOf_append (front back : List String) :
    operandsOf (front ++ back) = operandsOf front ++ operandsOf back :=
  List.filter_append ..

@[simp] theorem flagsOf_flagsOf (arguments : List String) :
    flagsOf (flagsOf arguments) = flagsOf arguments := by
  simp [flagsOf]

@[simp] theorem operandsOf_flagsOf (arguments : List String) : operandsOf (flagsOf arguments) = [] := by
  simp [operandsOf, flagsOf]

theorem isFlag_eq_false_of_mem_operandsOf {arguments : List String} {operand : String}
    (given : operand ∈ operandsOf arguments) : isFlag operand = false := by
  simpa using (List.mem_filter.1 given).2

/-- An argument that does not begin with a hyphen is an operand. -/
theorem isFlag_eq_false_of_head? {argument : String} (plain : argument.toList.head? ≠ some '-') :
    isFlag argument = false := by
  unfold isFlag
  split
  case h_1 flag =>
    rw [flag] at plain
    exact absurd rfl plain
  case h_2 => rfl

theorem flagsOf_cons_operand {operand : String} (given : isFlag operand = false) (rest : List String) :
    flagsOf (operand :: rest) = flagsOf rest := by
  simp [flagsOf, given]

theorem operandsOf_cons_operand {operand : String} (given : isFlag operand = false)
    (rest : List String) : operandsOf (operand :: rest) = operand :: operandsOf rest := by
  simp [operandsOf, given]

/-- Which operand stands among the arguments does not show in the flags. -/
theorem flagsOf_append_operand {operand : String} (given : isFlag operand = false)
    (front back : List String) :
    flagsOf (front ++ operand :: back) = flagsOf front ++ flagsOf back := by
  rw [flagsOf_append, flagsOf_cons_operand given]

theorem operandsOf_append_operand {operand : String} (given : isFlag operand = false)
    (front back : List String) :
    operandsOf (front ++ operand :: back) = operandsOf front ++ operand :: operandsOf back := by
  rw [operandsOf_append, operandsOf_cons_operand given]

/-- Flags with operands behind them are taken apart again. -/
theorem flagsOf_flagsOf_append (arguments : List String) {operands : List String}
    (given : ∀ operand ∈ operands, isFlag operand = false) :
    flagsOf (flagsOf arguments ++ operands) = flagsOf arguments := by
  have none : flagsOf operands = [] := by simpa [flagsOf] using given
  rw [flagsOf_append, flagsOf_flagsOf, none, List.append_nil]

theorem operandsOf_flagsOf_append (arguments : List String) {operands : List String}
    (given : ∀ operand ∈ operands, isFlag operand = false) :
    operandsOf (flagsOf arguments ++ operands) = operands := by
  have all : operandsOf operands = operands := by simpa [operandsOf] using given
  rw [operandsOf_append, operandsOf_flagsOf, all, List.nil_append]

/-- A test that operands fail is made on the flags alone. -/
theorem any_flagsOf {test : String → Bool}
    (fail : ∀ argument, isFlag argument = false → test argument = false) (arguments : List String) :
    (flagsOf arguments).any test = arguments.any test := by
  rw [flagsOf, List.any_filter]
  refine congrArg arguments.any (funext fun argument => ?_)
  cases flag : isFlag argument with
  | true => rfl
  | false => exact (fail argument flag).symm

/-- Whether a flag is given is seen among the flags. -/
theorem hasFlag_flagsOf {spellings : List String} (flags : ∀ flag ∈ spellings, isFlag flag = true)
    (arguments : List String) : hasFlag spellings (flagsOf arguments) = hasFlag spellings arguments := by
  refine any_flagsOf (fun argument operand => ?_) arguments
  rw [decide_eq_false_iff_not]
  intro spelt
  rw [flags argument spelt] at operand
  cases operand

theorem hasLetter_flagsOf (letters : List Char) (arguments : List String) :
    hasLetter letters (flagsOf arguments) = hasLetter letters arguments := by
  refine any_flagsOf (fun argument operand => ?_) arguments
  simp [flagLetters, operand]

theorem helpFlag_mem_flagsOf {arguments : List String} :
    helpFlag ∈ flagsOf arguments ↔ helpFlag ∈ arguments := by
  simp [mem_flagsOf, show isFlag helpFlag = true by decide]

theorem firstUnknown?_eq_none_iff {known arguments : List String} :
    firstUnknown? known arguments = none ↔ ∀ flag ∈ flagsOf arguments, flag ∈ known := by
  simp [firstUnknown?, mem_flagsOf]

namespace Shell

/-! ## Settings -/

variable (arguments : List String)

theorem makeSettings_flagsOf : makeSettings (flagsOf arguments) = makeSettings arguments := by
  unfold makeSettings
  rw [hasFlag_flagsOf (by decide), hasFlag_flagsOf (by decide)]

theorem removeSettings_flagsOf : removeSettings (flagsOf arguments) = removeSettings arguments := by
  unfold removeSettings
  rw [hasFlag_flagsOf (by decide), hasFlag_flagsOf (by decide), hasFlag_flagsOf (by decide)]
  simp only [hasLetter_flagsOf]

theorem removeDirectorySettings_flagsOf :
    removeDirectorySettings (flagsOf arguments) = removeDirectorySettings arguments := by
  unfold removeDirectorySettings
  rw [hasFlag_flagsOf (by decide), hasFlag_flagsOf (by decide), hasFlag_flagsOf (by decide)]

theorem copySettings_flagsOf : copySettings (flagsOf arguments) = copySettings arguments := by
  unfold copySettings
  rw [hasFlag_flagsOf (by decide), hasFlag_flagsOf (by decide)]

theorem listSettings_flagsOf : listSettings (flagsOf arguments) = listSettings arguments := by
  have letters : (flagsOf arguments).flatMap flagLetters = arguments.flatMap flagLetters := by
    induction arguments with
    | nil => rfl
    | cons argument rest ih =>
        cases flag : isFlag argument with
        | true => simpa [flagsOf, flag] using ih
        | false => simpa [flagsOf, flag, flagLetters] using ih
  unfold listSettings
  rw [letters]

end Shell

/-! ## Commands -/

namespace Command

/-- Whether a command starts on its operands with a flag given.  `touch` and `rm` pass over the flags
that they do not know. -/
def accepts (flag : String) : Command → Bool
  | .mkdir => flag ∈ Shell.makeFlags
  | .rmdir => flag ∈ Shell.removeDirectoryFlags
  | .cp => flag ∈ Shell.copyFlags
  | .mv => flag ∈ Shell.moveFlags
  | _ => flag ≠ helpFlag

/-- What a command does for one operand, if it does the same for each. -/
def step? (flags : List String) : Command → Option (Shell → String → Shell × List String)
  | .mkdir => some (Shell.makeOperand (Shell.makeSettings flags))
  | .touch => some (Shell.touchOperand (hasFlag ["-c", "--no-create"] flags))
  | .rm => some (Shell.removeOperand (Shell.removeSettings flags))
  | .rmdir => some (Shell.removeDirectoryOperand (Shell.removeDirectorySettings flags))
  | _ => none

/-- What a command does for one source and the destination, if it takes several sources. -/
def transfer? (flags : List String) :
    Command → Option (Shell → String → String → Shell × List String)
  | .cp => some (Shell.copyOperand (Shell.copySettings flags))
  | .mv => some (Shell.moveOperand (hasFlag ["-v", "--verbose"] flags))
  | _ => none

variable {command : Command} {arguments : List String} {shell : Shell}
  {step : Shell → String → Shell × List String}
  {transfer : Shell → String → String → Shell × List String}

/-- No command starts on its operands if it is asked for help. -/
theorem accepts_helpFlag (command : Command) : command.accepts helpFlag = false := by
  cases command <;> decide

theorem helpFlag_not_mem (accepted : ∀ flag ∈ flagsOf arguments, command.accepts flag = true) :
    helpFlag ∉ arguments := by
  intro help
  have accepts := accepted helpFlag (helpFlag_mem_flagsOf.2 help)
  rw [accepts_helpFlag] at accepts
  cases accepts

/-- A command that looks for flags it does not know finds none among those that it takes. -/
theorem firstUnknown?_eq_none_iff_accepts {known : List String}
    (same : ∀ flag, command.accepts flag = decide (flag ∈ known)) :
    firstUnknown? known arguments = none ↔ ∀ flag ∈ flagsOf arguments, command.accepts flag = true := by
  rw [firstUnknown?_eq_none_iff]
  simp [same]

/-- **A command with operands** whose flags it takes makes its step for each. -/
theorem execute_of_step? (steps : command.step? (flagsOf arguments) = some step)
    (accepted : ∀ flag ∈ flagsOf arguments, command.accepts flag = true)
    (given : operandsOf arguments ≠ []) (wallClock : String) (shell : Shell) :
    command.execute wallClock shell arguments =
      ((shell.eachOperand step (operandsOf arguments)).1,
        .ok (Text.joinLines (shell.eachOperand step (operandsOf arguments)).2)) := by
  have noHelp : helpFlag ∉ arguments := helpFlag_not_mem accepted
  obtain ⟨operand, rest, operands⟩ := List.exists_cons_of_ne_nil given
  cases command with
  | mkdir =>
      obtain rfl := Option.some.inj steps
      have known : firstUnknown? Shell.makeFlags arguments = none :=
        (firstUnknown?_eq_none_iff_accepts fun _ => rfl).2 accepted
      simp only [execute, Shell.makeDirectories, known, operands, Shell.makeSettings_flagsOf]
  | touch =>
      obtain rfl := Option.some.inj steps
      simp only [execute, Shell.touch, noHelp, if_false, operands, hasFlag_flagsOf
        (show ∀ flag ∈ ["-c", "--no-create"], isFlag flag = true by decide)]
  | rm =>
      obtain rfl := Option.some.inj steps
      simp only [execute, Shell.remove, noHelp, if_false, operands, Shell.removeSettings_flagsOf]
  | rmdir =>
      obtain rfl := Option.some.inj steps
      have known : firstUnknown? Shell.removeDirectoryFlags arguments = none :=
        (firstUnknown?_eq_none_iff_accepts fun _ => rfl).2 accepted
      simp only [execute, Shell.removeDirectories, noHelp, if_false, known, operands,
        Shell.removeDirectorySettings_flagsOf]
  | _ => cases steps

/-- The same for `cp` and `mv`. -/
theorem execute_of_transfer? (transfers : command.transfer? (flagsOf arguments) = some transfer)
    (accepted : ∀ flag ∈ flagsOf arguments, command.accepts flag = true) (wallClock : String)
    (shell : Shell) :
    command.execute wallClock shell arguments =
      Shell.transferAll command.name transfer shell (operandsOf arguments) := by
  have noHelp : helpFlag ∉ arguments := helpFlag_not_mem accepted
  cases command with
  | cp =>
      obtain rfl := Option.some.inj transfers
      have known : firstUnknown? Shell.copyFlags arguments = none :=
        (firstUnknown?_eq_none_iff_accepts fun _ => rfl).2 accepted
      simp only [execute, Shell.copy, noHelp, if_false, known, Shell.copySettings_flagsOf]
      rfl
  | mv =>
      obtain rfl := Option.some.inj transfers
      have known : firstUnknown? Shell.moveFlags arguments = none :=
        (firstUnknown?_eq_none_iff_accepts fun _ => rfl).2 accepted
      simp only [execute, Shell.move, noHelp, if_false, known, hasFlag_flagsOf
        (show ∀ flag ∈ ["-v", "--verbose"], isFlag flag = true by decide)]
      rfl
  | _ => cases transfers

/-- A command that is given one operand and no flags makes one step. -/
theorem execute_operand (steps : command.step? [] = some step) {operand : String}
    (given : isFlag operand = false) (wallClock : String) (shell : Shell) :
    (command.execute wallClock shell [operand]).1 = (step shell operand).1 := by
  have unflagged : flagsOf [operand] = [] := flagsOf_cons_operand given []
  have single : operandsOf [operand] = [operand] := operandsOf_cons_operand given []
  have accepted : ∀ flag ∈ flagsOf [operand], command.accepts flag = true := by
    rw [unflagged]
    exact List.forall_mem_nil _
  have something : operandsOf [operand] ≠ [] := by
    rw [single]
    exact List.cons_ne_nil operand []
  rw [← unflagged] at steps
  rw [execute_of_step? steps accepted something, single]
  rfl

/-- **A command that does not take its flags** does nothing. -/
theorem execute_fst_of_not_accepted (walks : command ∈ [.mkdir, .touch, .rm, .rmdir, .cp, .mv])
    (refused : ¬ ∀ flag ∈ flagsOf arguments, command.accepts flag = true) (wallClock : String)
    (shell : Shell) : (command.execute wallClock shell arguments).1 = shell := by
  have unknown : ∀ {known : List String}, (∀ flag, command.accepts flag = decide (flag ∈ known)) →
      ∃ flag, firstUnknown? known arguments = some flag := by
    intro known same
    rw [← Option.ne_none_iff_exists', ne_eq, firstUnknown?_eq_none_iff_accepts same]
    exact refused
  have help : (∀ flag, command.accepts flag = decide (flag ≠ helpFlag)) → helpFlag ∈ arguments := by
    intro same
    have given : helpFlag ∈ flagsOf arguments := by simpa [same] using refused
    exact helpFlag_mem_flagsOf.1 given
  simp only [List.mem_cons, List.not_mem_nil, or_false] at walks
  rcases walks with rfl | rfl | rfl | rfl | rfl | rfl
  · obtain ⟨flag, first⟩ := unknown fun _ => rfl
    simp only [execute, Shell.makeDirectories, first]
    split <;> rfl
  · simp only [execute, Shell.touch, help fun _ => rfl, if_true]
  · simp only [execute, Shell.remove, help fun _ => rfl, if_true]
  · obtain ⟨flag, first⟩ := unknown fun _ => rfl
    simp only [execute, Shell.removeDirectories, first]
    split <;> rfl
  · obtain ⟨flag, first⟩ := unknown fun _ => rfl
    simp only [execute, Shell.copy, first]
    split <;> rfl
  · obtain ⟨flag, first⟩ := unknown fun _ => rfl
    simp only [execute, Shell.move, first]
    split <;> rfl

end Command

end VaultShell
