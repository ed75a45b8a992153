import VaultShell.Router.Basic
import VaultShell.Text.Lines

/-!
# The prompt loop

A conversation on a terminal, without a language model behind it. After the greeting each line of
input is read at a prompt and answered; the loop ends with the session or with the input. It fails
where there is something to read that is no text, after the prompt for it was shown.

The loop is a state with two moves: showing the prompt, which names the working directory, and
answering a line. Each line comes with the reading of the wall clock at its time. What is printed is
taken to arrive: an output that cannot be written to is no part of this.

## Main definitions

* `PromptLoop`: the state between two lines
* `PromptLoop.prompt`, `PromptLoop.answer`: the two moves
* `PromptLoop.run`: what comes of the lines that are read
* `PromptLoop.program`: the same as a program, from bytes to a text and an exit code
-/

namespace VaultShell

/-- The state between two lines. -/
structure PromptLoop where
  router : Router
  conversation : Conversation

/-- A line of input and the reading of the wall clock when it came. -/
structure Entered where
  line : String
  wallClock : String

namespace PromptLoop

/-- The state before the first line. -/
def start (settings : Settings) : PromptLoop :=
  ⟨.fresh settings, .fresh settings.greeting⟩

/-- The settings that the loop runs under. -/
def settings (state : PromptLoop) : Settings :=
  state.router.settings

/-- The line that shows the greeting. -/
def greetingLine (settings : Settings) : String :=
  settings.greeting ++ "\n"

/-- The prompt: who works where, and the working directory. -/
def prompt (state : PromptLoop) : PromptLoop × String :=
  let (router, cwd) := state.router.workingDirectory state.conversation.turns
  let settings := state.settings
  ({ state with router }, settings.identity ++ "@" ++ settings.hostname ++ ":" ++ cwd ++ "$ ")

/-- The codes that clear a screen and go to its top. -/
def clearCodes : String := "\x1b[2J\x1b[H"

/-- What is printed for a response. -/
def rendering (settings : Settings) (response : Response) : String :=
  match response.sentinel? with
  | some .clearScreen => clearCodes ++ greetingLine settings
  | some .exitSession => ""
  | none => if response.text.isEmpty then "" else response.text ++ "\n"

/-- Answers a line: what is printed, and whether the loop ends with it. -/
def answer (state : PromptLoop) (entered : Entered) : PromptLoop × String × Bool :=
  let line := Text.trim entered.line
  let outcome :=
    state.router.respond .offline entered.wallClock (state.conversation.request line)
  (⟨outcome.router, state.conversation.receive line outcome.response⟩,
    rendering state.settings outcome.response,
    outcome.response.sentinel? = some .exitSession)

/-! ## The loop as a program -/

/-- The exit code when the session ends or the input does. -/
def doneCode : UInt32 := 0

/-- The exit code when a line cannot be read. -/
def failedCode : UInt32 := 1

/-- What is left of the program when it has run. -/
structure Ending where
  printed : String
  exitCode : UInt32
  deriving DecidableEq, Repr

/-- The same with more printed before. -/
def Ending.behind (front : String) (ending : Ending) : Ending :=
  { ending with printed := front ++ ending.printed }

/-- What comes of the remaining lines. After the last one a prompt still waits for input, and so one
does for a line that cannot be read. -/
def run (state : PromptLoop) : List (Option Entered) → Ending
  | [] => ⟨state.prompt.2, doneCode⟩
  | none :: _ => ⟨state.prompt.2, failedCode⟩
  | some entered :: rest =>
    let (prompted, shown) := state.prompt
    let (after, printed, ended) := prompted.answer entered
    if ended then ⟨shown ++ printed, doneCode⟩ else (run after rest).behind (shown ++ printed)

/-- The lines of an input, none for what cannot be read. The clock says what it is when each of them
comes. -/
def received (wallClock : Nat → String) (input : List UInt8) : List (Option Entered) :=
  (Text.inputLines input).mapIdx fun i line? => line?.map fun line => ⟨line, wallClock i⟩

/-- The program, from the file of its settings, if it has one, and what it reads. -/
def program (file : Option (List UInt8)) (wallClock : Nat → String) (input : List UInt8) : Ending :=
  let settings := Settings.ofFile file
  (run (start settings) (received wallClock input)).behind (greetingLine settings)

end PromptLoop

end VaultShell
