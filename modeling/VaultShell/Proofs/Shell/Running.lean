import VaultShell.Proofs.Text.Spacing
import VaultShell.Shell.Run

/-!
# One line of the standard table

Running a line takes three decisions: whether there are words, whether the first one is a name that
is known, and whether the name is a sentinel's.  With the standard table the first two say which
command is meant, so what is left of a line is one equation for each outcome.

## Main statements

* `CommandLine.parse?_trim`, `Shell.run_trim`: the blanks around a line do not matter
* `Shell.run_command`, `Shell.run_of_words`: a line that names a command of the vault is that command
  at the next minute
* `Shell.run_cases`: every other line leaves the state alone
* `Shell.run_snd_of_ne_date`: no other command than `date` prints the wall clock
-/

namespace VaultShell

/-! ## Reading a line -/

@[simp] theorem CommandLine.parse?_trim (input : String) : parse? (Text.trim input) = parse? input := by
  unfold parse?
  rw [Text.trim_trim]

/-- A line that is read is its trimmed text, and its words are the name and the arguments. -/
theorem CommandLine.parse?_eq_some {input : String} {line : CommandLine}
    (h : parse? input = some line) :
    line.raw = Text.trim input ∧ Text.words (Text.trim input) = line.name :: line.arguments := by
  unfold parse? at h
  cases hwords : Text.words (Text.trim input) with
  | nil => simp [hwords] at h
  | cons name arguments =>
      simp only [hwords, Option.some.injEq] at h
      subst h
      exact ⟨rfl, rfl⟩

/-- The words of a line are those of its trimmed text. -/
theorem CommandLine.parse?_of_words {input name : String} {arguments : List String}
    (h : Text.words input = name :: arguments) :
    parse? input = some ⟨Text.trim input, name, arguments⟩ := by
  simp only [parse?, Text.words_trim, h]

/-- No argument of a line holds a blank. -/
theorem CommandLine.blankless_of_mem_arguments {input : String} {line : CommandLine}
    (h : parse? input = some line) {argument : String} (hargument : argument ∈ line.arguments) :
    Text.Blankless argument := by
  obtain ⟨-, hwords⟩ := parse?_eq_some h
  refine Text.blankless_of_mem_words (s := Text.trim input) ?_
  rw [hwords]
  exact List.mem_cons_of_mem _ hargument

/-! ## Names of commands -/

namespace Command

theorem ofName?_name (command : Command) : ofName? command.name = some command := by
  cases command <;> decide

theorem name_of_ofName? {name : String} {command : Command} (h : ofName? name = some command) :
    command.name = name := by
  have hname := List.find?_some h
  simpa using hname

theorem name_injective {command other : Command} (h : command.name = other.name) :
    command = other := by
  have hcommand := ofName?_name command
  rw [h, ofName?_name] at hcommand
  exact (Option.some.inj hcommand).symm

/-- What a command prints depends on the wall clock for `date` alone. -/
theorem execute_snd_of_ne_date {command : Command} (h : command ≠ .date)
    (wallClock other : String) (shell : Shell) (arguments : List String) :
    (command.execute wallClock shell arguments).2 = (command.execute other shell arguments).2 := by
  cases command with
  | date => exact absurd rfl h
  | _ => rfl

end Command

/-! ## One operand after the other -/

namespace Shell

theorem eachOperand_cons (step : Shell → String → Shell × List String) (shell : Shell)
    (operand : String) (rest : List String) :
    (shell.eachOperand step (operand :: rest)).1 =
      ((step shell operand).1.eachOperand step rest).1 := rfl

/-- The state after a step for each operand: the step for the last one is made on the state that the
others lead to. -/
theorem eachOperand_append_singleton (step : Shell → String → Shell × List String) (shell : Shell)
    (operands : List String) (last : String) :
    (shell.eachOperand step (operands ++ [last])).1 =
      (step (shell.eachOperand step operands).1 last).1 := by
  induction operands generalizing shell with
  | nil => rfl
  | cons operand rest ih => exact ih (step shell operand).1

/-! ## Running a line -/

/-- The blanks around a line do not matter. -/
@[simp] theorem run_trim (table : CommandTable) (wallClock : String) (shell : Shell)
    (input : String) : shell.run table wallClock (Text.trim input) = shell.run table wallClock input := by
  unfold run
  rw [CommandLine.parse?_trim]

@[simp] theorem after_trim (table : CommandTable) (shell : Shell) (input : String) :
    shell.after table (Text.trim input) = shell.after table input := by
  unfold after
  rw [run_trim]

theorem afterAll_nil (table : CommandTable) (shell : Shell) : shell.afterAll table [] = shell := rfl

theorem afterAll_cons (table : CommandTable) (shell : Shell) (input : String)
    (inputs : List String) :
    shell.afterAll table (input :: inputs) = (shell.after table input).afterAll table inputs :=
  List.foldl_cons ..

variable {shell : Shell} {input raw : String} {arguments : List String} {command : Command}

/-- **A line that names a command of the vault is that command, a minute later.** -/
theorem run_command (hparse : CommandLine.parse? input = some ⟨raw, command.name, arguments⟩)
    (hsentinel : command.sentinel? = none) (shell : Shell) (wallClock : String) :
    shell.run .standard wallClock input =
      ((command.execute wallClock shell.tick arguments).1,
        .output (resultText (command.execute wallClock shell.tick arguments).2)) := by
  have hfind : CommandTable.standard.find? command.name = some command.action := by
    rw [CommandTable.standard_find?, Command.ofName?_name]
    rfl
  unfold run
  rw [hparse]
  simp only [hfind, Command.action, hsentinel]

/-- The same for a line that is given by its words. -/
theorem run_of_words (hwords : Text.words input = command.name :: arguments)
    (hsentinel : command.sentinel? = none) (shell : Shell) (wallClock : String) :
    shell.run .standard wallClock input =
      ((command.execute wallClock shell.tick arguments).1,
        .output (resultText (command.execute wallClock shell.tick arguments).2)) :=
  run_command (CommandLine.parse?_of_words hwords) hsentinel shell wallClock

/-- A line of the standard table names a command of the vault, or it leaves every state as it was and
is answered in the same way in all of them. -/
theorem run_cases (input : String) :
    (∃ reply, ∀ (shell : Shell) (wallClock : String),
        shell.run .standard wallClock input = (shell, reply)) ∨
      ∃ (raw : String) (command : Command) (arguments : List String),
        CommandLine.parse? input = some ⟨raw, command.name, arguments⟩ ∧
        command.sentinel? = none := by
  cases hparse : CommandLine.parse? input with
  | none => exact Or.inl ⟨.output "", fun shell wallClock => by simp [run, hparse]⟩
  | some line =>
      obtain ⟨raw, name, arguments⟩ := line
      cases hname : Command.ofName? name with
      | none =>
          refine Or.inl ⟨.output (Failure.message (.unrecognized raw)), fun shell wallClock => ?_⟩
          simp [run, hparse, CommandTable.standard_find?, hname]
      | some command =>
          obtain rfl := Command.name_of_ofName? hname
          cases hsentinel : command.sentinel? with
          | some sentinel =>
              refine Or.inl ⟨.sentinel sentinel, fun shell wallClock => ?_⟩
              simp [run, hparse, CommandTable.standard_find?, hname, Command.action, hsentinel]
          | none => exact Or.inr ⟨raw, command, arguments, rfl, hsentinel⟩

/-- What becomes of the state when a line of the standard table is run: nothing, unless the line
names a command of the vault. -/
theorem after_cases (shell : Shell) (input : String) :
    shell.after .standard input = shell ∨
      ∃ (raw : String) (command : Command) (arguments : List String),
        CommandLine.parse? input = some ⟨raw, command.name, arguments⟩ ∧
        command.sentinel? = none ∧
        shell.after .standard input = (command.execute "" shell.tick arguments).1 := by
  unfold after
  rcases run_cases input with ⟨reply, unmoved⟩ | ⟨raw, command, arguments, hparse, hsentinel⟩
  · exact Or.inl (by rw [unmoved])
  · exact Or.inr ⟨raw, command, arguments, hparse, hsentinel, by rw [run_command hparse hsentinel]⟩

/-- **No other command than `date` prints the wall clock.** -/
theorem run_snd_of_ne_date (hparse : CommandLine.parse? input = some ⟨raw, command.name, arguments⟩)
    (hsentinel : command.sentinel? = none) (hdate : command.name ≠ "date")
    (wallClock other : String) :
    (shell.run .standard wallClock input).2 = (shell.run .standard other input).2 := by
  have hne : command ≠ .date := by
    rintro rfl
    exact hdate rfl
  rw [run_command hparse hsentinel, run_command hparse hsentinel]
  exact congrArg (fun result => Reply.output (resultText result))
    (Command.execute_snd_of_ne_date hne wallClock other shell.tick arguments)

end Shell

end VaultShell
