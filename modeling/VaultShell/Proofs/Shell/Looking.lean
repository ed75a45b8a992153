import VaultShell.Proofs.Shell.Running
import VaultShell.Proofs.Shell.Undated
import VaultShell.Router.Settings

/-!
# Looking leaves no trace

Eight commands only look.  A line that looks is a line all the same, so the clock goes on by a minute,
and what is created after it gets a later time.  That is all: two runs whose lines are the same but
for those that look end in the same state but for the times, and on the way they say the same wherever
they do the same.

The two runs need not be of the same length, nor at the same place at any time.  Each is therefore
compared with the run of the lines that are left when those that look are taken out, and the same
lines are left of both.

## Main definitions

* `CommandLine.asks`: a property of the command that a line names
* `Shell.isLook`, `Shell.showsTime`: the lines that look, and those that show times
* `TimedLine`, `Shell.answers`: a run with the readings of the wall clock, and all that it says

## Main statements

* `Shell.run_congr`: one line on two states that are the same but for the times
* `Shell.undated_after_of_isLook`: a line that looks
* `Shell.looking_leaves_no_trace`: two runs
-/

namespace VaultShell

/-! ## Lines that look and lines that show times -/

/-- Whether a line names a command that, with the arguments of the line, has a property. -/
def CommandLine.asks (p : List String → Command → Bool) (input : String) : Bool :=
  (parse? input).any fun line => (Command.ofName? line.name).any (p line.arguments)

theorem CommandLine.asks_of_parse? {p : List String → Command → Bool} {input raw : String}
    {command : Command} {arguments : List String}
    (parsed : parse? input = some ⟨raw, command.name, arguments⟩) :
    asks p input = p arguments command := by
  simp [asks, parsed, Command.ofName?_name]

theorem CommandLine.asks_mono {p q : List String → Command → Bool}
    (implies : ∀ arguments command, p arguments command = true → q arguments command = true)
    {input : String} (asked : asks p input = true) : asks q input = true := by
  simp only [asks, Option.any_eq_true] at asked ⊢
  obtain ⟨line, parsed, command, named, holds⟩ := asked
  exact ⟨line, parsed, command, named, implies line.arguments command holds⟩

/-- The commands that only look. -/
def Command.looks : Command → Bool
  | .cat | .date | .head | .less | .ls | .pwd | .tail | .whoami => true
  | _ => false

/-- A command that looks leaves the state as it was. -/
theorem Command.execute_of_looks {command : Command} (looks : command.looks = true)
    (wallClock : String) (shell : Shell) (arguments : List String) :
    (command.execute wallClock shell arguments).1 = shell := by
  cases command with
  | cat | date | head | less | ls | pwd | tail | whoami => rfl
  | _ => cases looks

namespace Shell

/-- **A line that only looks**, whatever its arguments are. -/
def isLook (input : String) : Bool :=
  CommandLine.asks (fun _ command => command.looks) input

/-- **A line that shows times**: `date`, or a long listing. -/
def showsTime (input : String) : Bool :=
  CommandLine.asks Command.showsTime input

/-- A line that shows times does nothing but look. -/
theorem showsTime_of_not_isLook {input : String} (acts : isLook input = false) :
    showsTime input = false := by
  rw [Bool.eq_false_iff] at acts ⊢
  refine fun shows => acts (CommandLine.asks_mono (fun arguments command shows => ?_) shows)
  cases command with
  | date | ls => rfl
  | _ => cases shows

/-! ## One line -/

variable {shell other : Shell} {input : String}

/-- **One line on two states that are the same but for the times** leads to two such states, and says
the same, unless it shows times. -/
theorem run_congr (same : shell.undated = other.undated) (input wallClock otherClock : String) :
    (shell.run .standard wallClock input).1.undated =
        (other.run .standard otherClock input).1.undated ∧
      (showsTime input = false →
        (shell.run .standard wallClock input).2 = (other.run .standard otherClock input).2) := by
  rcases run_cases input with ⟨reply, unmoved⟩ | ⟨raw, command, arguments, parsed, unreserved⟩
  · rw [unmoved, unmoved]
    exact ⟨same, fun _ => rfl⟩
  · -- The two clocks go on from different times, but neither of them is in the comparison.
    have later : shell.tick.undated = other.tick.undated := same
    rw [run_command parsed unreserved, run_command parsed unreserved]
    constructor
    · rw [← command.execute_undated "", later, command.execute_undated]
    · intro timeless
      rw [showsTime, CommandLine.asks_of_parse? parsed] at timeless
      rw [← command.execute_undated_snd "" wallClock _ _ timeless, later,
        command.execute_undated_snd _ otherClock _ _ timeless]

/-- **A line that looks** changes nothing but the clock. -/
theorem undated_after_of_isLook (looks : isLook input = true) (shell : Shell) :
    (shell.after .standard input).undated = shell.undated := by
  rcases after_cases shell input with same | ⟨raw, command, arguments, parsed, -, after⟩
  · rw [same]
  · rw [isLook, CommandLine.asks_of_parse? parsed] at looks
    rw [after, Command.execute_of_looks looks, undated_tick]

end Shell

/-! ## Runs -/

/-- A line, and the reading of the wall clock when it is run. -/
structure TimedLine where
  wallClock : String
  input : String

namespace Shell

/-- **All that a run says**: its lines, each with the answer to it. -/
def answers (shell : Shell) : List TimedLine → List (String × Reply)
  | [] => []
  | line :: rest =>
    (line.input, (shell.run .standard line.wallClock line.input).2) ::
      answers (shell.after .standard line.input) rest

/-- **What is left of a list of lines** when those that look are taken out. -/
def withoutLooks (inputs : List String) : List String :=
  inputs.filter (!isLook ·)

theorem withoutLooks_cons_of_isLook {input : String} (looks : isLook input = true)
    (rest : List String) : withoutLooks (input :: rest) = withoutLooks rest :=
  List.filter_cons_of_neg (by simp [looks])

theorem withoutLooks_cons_of_not_isLook {input : String} (acts : isLook input = false)
    (rest : List String) : withoutLooks (input :: rest) = input :: withoutLooks rest :=
  List.filter_cons_of_pos (by simp [acts])

variable {shell other : Shell}

/-- **The state after a run** is, but for the times, the state after the lines that are left. -/
theorem undated_afterAll (same : shell.undated = other.undated) (inputs : List String) :
    (shell.afterAll .standard inputs).undated =
      (other.afterAll .standard (withoutLooks inputs)).undated := by
  induction inputs generalizing shell other with
  | nil => exact same
  | cons input rest ih =>
      rw [afterAll_cons]
      cases looks : isLook input with
      | true =>
          -- Here the run is a line ahead of what is left of it.
          rw [withoutLooks_cons_of_isLook looks]
          exact ih ((undated_after_of_isLook looks shell).trans same)
      | false =>
          rw [withoutLooks_cons_of_not_isLook looks, afterAll_cons]
          exact ih (run_congr same input "" "").1

/-- **What a run says** at the lines that are left is what these lines say alone. -/
theorem answers_filter (same : shell.undated = other.undated) (lines : List TimedLine) :
    (shell.answers lines).filter (fun answer => !isLook answer.1) =
      other.answers ((withoutLooks (lines.map TimedLine.input)).map (TimedLine.mk "")) := by
  induction lines generalizing shell other with
  | nil => rfl
  | cons line rest ih =>
      rw [answers, List.map_cons]
      cases looks : isLook line.input with
      | true =>
          rw [withoutLooks_cons_of_isLook looks, List.filter_cons_of_neg (by simp [looks])]
          exact ih ((undated_after_of_isLook looks shell).trans same)
      | false =>
          obtain ⟨next, said⟩ := run_congr same line.input line.wallClock ""
          rw [run_fst, run_fst] at next
          rw [withoutLooks_cons_of_not_isLook looks, List.filter_cons_of_pos (by simp [looks]),
            List.map_cons, answers,
            said (showsTime_of_not_isLook looks), ih next]

/-- **Looking leaves no trace.**  Two runs whose lines are the same but for those that only look (`cat`,
`date`, `head`, `less`, `ls`, `pwd`, `tail` and `whoami`, with any arguments) end with the same
directories and the same identity, and with vaults that are the same but for the times.  Every line
that does more than look is answered alike in both, and after the runs so is any line that shows no
time, whatever the wall clock reads. -/
theorem looking_leaves_no_trace (settings : Settings) {first second : List TimedLine}
    (same : withoutLooks (first.map TimedLine.input) = withoutLooks (second.map TimedLine.input)) :
    let one := settings.start.afterAll .standard (first.map TimedLine.input)
    let two := settings.start.afterAll .standard (second.map TimedLine.input)
    (one.cwd = two.cwd ∧ one.previous = two.previous ∧ one.identity = two.identity ∧
      one.vault.undated = two.vault.undated) ∧
    (settings.start.answers first).filter (fun answer => !isLook answer.1) =
      (settings.start.answers second).filter (fun answer => !isLook answer.1) ∧
    ∀ input, showsTime input = false → ∀ wallClock otherClock,
      (one.run .standard wallClock input).2 = (two.run .standard otherClock input).2 := by
  intro one two
  have alike : one.undated = two.undated := by
    rw [undated_afterAll rfl (first.map TimedLine.input), same]
    exact (undated_afterAll rfl (second.map TimedLine.input)).symm
  refine ⟨⟨?_, ?_, ?_, ?_⟩, ?_, ?_⟩
  · exact (congrArg Shell.cwd alike :)
  · exact (congrArg Shell.previous alike :)
  · exact (congrArg Shell.identity alike :)
  · exact (congrArg Shell.vault alike :)
  · rw [answers_filter rfl first, answers_filter rfl second, same]
  · intro input timeless wallClock otherClock
    exact (run_congr alike input wallClock otherClock).2 timeless

/-- One run looks before it creates a file, the other one does not: the file gets another time, and
nothing else is different. -/
theorem looking_leaves_no_trace_touch :
    let one := Settings.standard.start.afterAll .standard ["ls -a", "touch notes"]
    let two := Settings.standard.start.afterAll .standard ["touch notes"]
    (one.vault.find? "/notes").map Node.modified ≠ (two.vault.find? "/notes").map Node.modified ∧
      one.vault.undated = two.vault.undated ∧
      (one.run .standard "" "ls").2 = (two.run .standard "" "ls").2 := by
  intro one two
  have alike := @looking_leaves_no_trace Settings.standard
    [⟨"12:00", "ls -a"⟩, ⟨"12:01", "touch notes"⟩] [⟨"12:00", "touch notes"⟩] (by decide +kernel)
  refine ⟨?_, alike.1.2.2.2, alike.2.2 "ls" (by decide +kernel) "" ""⟩
  decide +kernel

end Shell

end VaultShell
