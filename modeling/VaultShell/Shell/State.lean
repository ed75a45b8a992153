import VaultShell.Vault.Node
import VaultShell.Vault.Initial

/-!
# The state of a shell

What survives from one command line to the next: the vault, the working directory and the one before
it, a logical clock and the name of the user. The clock is no measure of time. It advances by one
minute for each line that a command carries out, so modification times depend on nothing but the
order of the lines.

A command line that does not do its work reports a failure instead. A failure ends no session: its
message is printed like any other output.

## Main definitions

* `Failure`: why a command line was not carried out
* `Shell`: the state
* `Shell.fresh`: the state that every session starts from
* `Shell.resolve`: the canonical path of an operand
* `Shell.eachOperand`: a step for each operand, one after the other
-/

namespace VaultShell

/-! ## Failures -/

/-- Why a command line was not carried out. -/
inductive Failure where
  /-- Arguments are missing or malformed; the text says how to use the command. -/
  | usage (text : String)
  /-- The vault refused an operation; the context says what the command was about to do. -/
  | fault (context : String) (cause : Fault)
  /-- No command has the name that the line begins with. -/
  | unrecognized (line : String)
  deriving DecidableEq, Repr

namespace Failure

/-- The wording of a failure. -/
def message : Failure → String
  | .usage text => text
  | .fault context cause => context ++ ": " ++ cause.message
  | .unrecognized line => "Simulated execution of '" ++ line ++ "'. Unrecognized command."

/-- Whether the target of an operation was absent. -/
def isNotFound : Failure → Bool
  | .fault _ .notFound => true
  | _ => false

end Failure

/-! ## States -/

/-- The state of a shell. -/
structure Shell where
  vault : Vault
  /-- The path of the working directory. -/
  cwd : String
  /-- The working directory before the last change of it. -/
  previous : Option String
  clock : Instant
  identity : String
  deriving BEq, Repr

namespace Shell

/-- The state that every session starts from: the initial vault, at its root. -/
def fresh (identity : String) (epoch : Instant) : Shell where
  vault := .initial epoch
  cwd := Path.root
  previous := none
  clock := epoch
  identity := identity

/-- The canonical path of an operand. -/
def resolve (shell : Shell) (operand : String) : String :=
  Path.resolve shell.cwd operand

/-- The state one minute later. -/
def tick (shell : Shell) : Shell :=
  { shell with clock := shell.clock.tick }

/-- The state with another vault. -/
def withVault (shell : Shell) (vault : Vault) : Shell :=
  { shell with vault }

/-- Runs a step for each operand, each on the state that the one before it left, and gathers what
the steps report. -/
def eachOperand (step : Shell → String → Shell × List String) (shell : Shell) :
    List String → Shell × List String
  | [] => (shell, [])
  | operand :: rest =>
    let (after, report) := step shell operand
    let (final, reports) := eachOperand step after rest
    (final, report ++ reports)

/-- What is reported of a result: what `shown` makes of a success, or a failure's message. -/
def reportOf {α : Type} (shown : α → List String) : Except Failure α → List String
  | .ok a => shown a
  | .error failure => [failure.message]

end Shell

end VaultShell
