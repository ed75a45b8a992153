import VaultShell.Json.Record
import VaultShell.Shell.State
import VaultShell.Time.Timestamp

/-!
# Settings

What a router can be set to. Every setting has a default, so a JSON text may give any part of them.
The epoch is kept as the text it was given as; settings that are read from a text are refused if
their epoch is no timestamp, and settings made by hand may do without that.

What is logged is set apart from these: a filter lets the records through that matter at least as much
as the filter's own severity.

## Main definitions

* `Settings`, `Settings.standard`: the settings and their defaults
* `Settings.ofTree?`, `Settings.ofText`: settings from JSON
* `Settings.ofFile`: settings from a file that may be missing or bad
* `Settings.epochInstant`, `Settings.epochOrOrigin`: the instant that the logical clock starts at
* `Severity`, `SeverityFilter.admits`: how much a log record matters, and which are let through
-/

namespace VaultShell

/-! ## The settings of a router -/

/-- What a router can be set to. -/
structure Settings where
  /-- What `whoami` prints, and the owner in long listings. -/
  identity : String
  hostname : String
  /-- The first message of every session. -/
  greeting : String
  /-- The answer when the language model fails or does not answer in time. -/
  apologyMessage : String
  /-- The answer when the language model says nothing of use. -/
  emptyReplyMessage : String
  modelTimeoutMs : UInt64
  systemPrompt : String
  /-- The start of the logical clock, as a timestamp. -/
  epoch : String
  deriving DecidableEq, Repr

/-- Why settings are refused. -/
inductive SettingsError where
  /-- The text is no JSON, or no JSON of settings. -/
  | malformed
  /-- The epoch is no timestamp. -/
  | epoch (value : String) (cause : Timestamp.Refusal)
  deriving DecidableEq, Repr

/-- The wording of a refusal. -/
def SettingsError.message : SettingsError → String
  | .malformed => "invalid router configuration"
  | .epoch value cause => "invalid epoch '" ++ value ++ "': " ++ cause.message

namespace Settings

/-- The settings where nothing else is given. -/
def standard : Settings where
  identity := "vault-user"
  hostname := "vault"
  greeting := "Hello! How can I help you with your secured data today?"
  apologyMessage := "Sorry, I encountered an error. Please try again."
  emptyReplyMessage := "No relevant data found."
  modelTimeoutMs := 15000
  systemPrompt :=
    "You are a helpful assistant for a private data vault app. " ++
      "Answer general questions conversationally. You cannot see, list, open or change any " ++
      "vault files; if the user asks about their files, tell them to use terminal commands " ++
      "such as ls, cat or cd."
  epoch := "2024-01-01T09:00:00Z"

/-- The fields of the settings in JSON, in their order. -/
def fields : List String :=
  ["identity", "hostname", "greeting", "apologyMessage", "emptyReplyMessage", "modelTimeoutMs",
   "systemPrompt", "epoch"]

/-- A number of milliseconds: a word of 64 bits. -/
def milliseconds? (tree : Json.Tree) : Option UInt64 :=
  (tree.natural? UInt64.size).map UInt64.ofNat

/-- The settings that a JSON tree gives, whatever their epoch. -/
def ofTree? (tree : Json.Tree) : Option Settings := do
  match ← tree.slots? fields with
  | [identity, hostname, greeting, apology, emptyReply, timeout, prompt, epoch] =>
    return {
      identity := ← identity.withDefault? Json.Tree.text? standard.identity
      hostname := ← hostname.withDefault? Json.Tree.text? standard.hostname
      greeting := ← greeting.withDefault? Json.Tree.text? standard.greeting
      apologyMessage := ← apology.withDefault? Json.Tree.text? standard.apologyMessage
      emptyReplyMessage := ← emptyReply.withDefault? Json.Tree.text? standard.emptyReplyMessage
      modelTimeoutMs := ← timeout.withDefault? milliseconds? standard.modelTimeoutMs
      systemPrompt := ← prompt.withDefault? Json.Tree.text? standard.systemPrompt
      epoch := ← epoch.withDefault? Json.Tree.text? standard.epoch }
  | _ => none

/-- The instant that the epoch names. -/
def epochInstant (settings : Settings) : Except SettingsError Instant :=
  match Timestamp.read settings.epoch with
  | .ok instant => .ok instant
  | .error cause => .error (.epoch settings.epoch cause)

/-- The instant that the epoch names, or the start of 1970 if it names none. -/
def epochOrOrigin (settings : Settings) : Instant :=
  match settings.epochInstant with
  | .ok instant => instant
  | .error _ => .origin

/-- The settings that a JSON text gives; their epoch has to be a timestamp. -/
def ofText (text : String) : Except SettingsError Settings :=
  match (Json.Tree.ofText? text).bind ofTree? with
  | none => .error .malformed
  | some settings =>
    match settings.epochInstant with
    | .error error => .error error
    | .ok _ => .ok settings

/-- The settings for a file, as its bytes: those that its text gives, or the standard ones if there is
no file, it is no text or the text gives none. -/
def ofFile (file : Option (List UInt8)) : Settings :=
  match (file.bind Text.decode?).map ofText with
  | some (.ok settings) => settings
  | _ => .standard

/-- The state that every session starts from under these settings. -/
def start (settings : Settings) : Shell :=
  .fresh settings.identity settings.epochOrOrigin

end Settings

/-! ## What is logged -/

/-- How much a log record matters, the most severe first. -/
inductive Severity where
  | error
  | warn
  | info
  | debug
  | trace
  deriving DecidableEq, Repr

namespace Severity

/-- The place in the order, from the most severe down. -/
def rank : Severity → Nat
  | .error => 1
  | .warn => 2
  | .info => 3
  | .debug => 4
  | .trace => 5

end Severity

/-- Which log records are let through: none, or those down to a severity. -/
inductive SeverityFilter where
  | off
  | upTo (severity : Severity)
  deriving DecidableEq, Repr

namespace SeverityFilter

/-- Whether a record of a severity is let through. -/
def admits : SeverityFilter → Severity → Bool
  | .off, _ => false
  | .upTo limit, severity => severity.rank ≤ limit.rank

end SeverityFilter

end VaultShell
