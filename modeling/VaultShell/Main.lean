import Std.Time.DateTime.Timestamp
import VaultShell.PromptLoop

/-!
# The program

Runs the prompt loop on standard input and output. The first argument may name a file of settings;
settings that cannot be had from it are the standard ones.
-/

namespace VaultShell

/-- The settings of a file; without a usable one the standard settings. -/
def loadSettings : List String → IO Settings
  | [] => return .ofFile none
  | path :: _ => do
    let warn (reason : String) : IO Unit :=
      IO.eprintln s!"could not load config from {path}: {reason}, using defaults"
    try
      let file := (← IO.FS.readBinFile path).data.toList
      match (Text.decode? file).map Settings.ofText with
      | none => warn "cannot read configuration file: stream did not contain valid UTF-8"
      | some (.error error) => warn error.message
      | some (.ok _) => pure ()
      return .ofFile (some file)
    catch error =>
      warn s!"cannot read configuration file: {error}"
      return .ofFile none

/-- The reading of the wall clock, as `date` shows it. -/
def readWallClock : IO String := do
  let now ← Std.Time.Timestamp.now
  return ClockTime.full (.ofSeconds now.toSecondsSinceUnixEpoch.val)

/-- The bytes of the input up to the next line feed; `reversed` holds those that were read before, last
byte first. -/
partial def readPiece (input : IO.FS.Stream) (reversed : List UInt8) : IO (List UInt8) := do
  match (← input.read 1).data.toList with
  | [] => return reversed.reverse
  | byte :: _ =>
    if byte = Text.feedByte then return (byte :: reversed).reverse
    else readPiece input (byte :: reversed)

/-- Shows prompts and answers lines until the session or the input ends, or a line cannot be read. -/
partial def promptAndAnswer (input output : IO.FS.Stream) (state : PromptLoop) : IO UInt32 := do
  let (state, shown) := state.prompt
  output.putStr shown
  output.flush
  let piece ← readPiece input []
  if piece.isEmpty then return PromptLoop.doneCode
  match Text.decode? piece with
  | none =>
    IO.eprintln "stream did not contain valid UTF-8"
    return PromptLoop.failedCode
  | some line =>
    let (state, printed, ended) := state.answer ⟨line, ← readWallClock⟩
    output.putStr printed
    if ended then return PromptLoop.doneCode else promptAndAnswer input output state

end VaultShell

open VaultShell in
def main (arguments : List String) : IO UInt32 := do
  let settings ← loadSettings arguments
  let output ← IO.getStdout
  output.putStr (PromptLoop.greetingLine settings)
  promptAndAnswer (← IO.getStdin) output (.start settings)
