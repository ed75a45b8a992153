import VaultShell.Conversation.Basic
import VaultShell.Router.Basic
import VaultShell.Router.Settings

/-!
# Messages in JSON

The records that a router exchanges with the outside, each with the JSON value it is written as and
the reading of it. What is written is always an object with all fields; what is read may also use
the other forms of a record.

Fields that hold any JSON value are read to a bounded depth; the record around them counts as one
level of it.

## Main definitions

For each message type an `encode` to a JSON value and an `ofTree?` from a JSON tree.
-/

namespace VaultShell

/-- How deep the containers of a text that is kept as a value may nest. -/
def maximalDepth : Nat := 127

/-! ## Turns -/

/-- The names of the two sides. -/
def Speaker.choices : List (String × Speaker) :=
  [("user", .user), ("bot", .bot)]

/-- The name of a side. -/
def Speaker.name : Speaker → String
  | .user => "user"
  | .bot => "bot"

/-- A turn as a JSON value. -/
def Turn.encode (turn : Turn) : Json.Value :=
  .object [("sender", .string turn.speaker.name), ("text", .string turn.text)]

/-- The turn that a JSON tree gives. -/
def Turn.ofTree? (tree : Json.Tree) : Option Turn := do
  match ← tree.slots? ["sender", "text"] with
  | [sender, text] =>
    return ⟨← sender.required? (Json.Tree.choice? Speaker.choices),
      ← text.required? Json.Tree.text?⟩
  | _ => none

/-- A history as a JSON value. -/
def encodeHistory (history : List Turn) : Json.Value :=
  .array (history.map Turn.encode)

/-! ## Requests and responses -/

/-- A request as a JSON value. -/
def Request.encode (request : Request) : Json.Value :=
  .object [("query", .string request.query), ("history", encodeHistory request.history)]

/-- The request that a JSON tree gives; the history may be missing. -/
def Request.ofTree? (tree : Json.Tree) : Option Request := do
  match ← tree.slots? ["query", "history"] with
  | [query, history] =>
    return ⟨← query.required? Json.Tree.text?,
      ← history.withDefault? (Json.Tree.list? Turn.ofTree?) []⟩
  | _ => none

/-- A response as a JSON value. -/
def Response.encode (response : Response) : Json.Value :=
  .object [("relevantData", .string response.text)]

/-- The response that a JSON tree gives. -/
def Response.ofTree? (tree : Json.Tree) : Option Response := do
  match ← tree.slots? ["relevantData"] with
  | [text] => return ⟨← text.required? Json.Tree.text?⟩
  | _ => none

/-! ## The language model -/

/-- The value of a field that may hold any JSON. -/
def anyValue? (tree : Json.Tree) : Option Json.Value :=
  Json.Value.ofTree? (maximalDepth - 1) tree

/-- A prompt as a JSON value; a tool schema is written only where there is one. -/
def Prompt.encode (prompt : Prompt) : Json.Value :=
  .object <|
    [("system", .string prompt.system), ("transcript", encodeHistory prompt.transcript),
     ("query", .string prompt.query)] ++ (prompt.toolSchema.map fun v => ("toolSchema", v)).toList

/-- The prompt that a JSON tree gives; an object may leave the tool schema out. -/
def Prompt.ofTree? (tree : Json.Tree) : Option Prompt := do
  match ← tree.slots? ["system", "transcript", "query", "toolSchema"] with
  | [system, transcript, query, toolSchema] =>
    return ⟨← system.required? Json.Tree.text?,
      ← transcript.required? (Json.Tree.list? Turn.ofTree?),
      ← query.required? Json.Tree.text?, ← toolSchema.optional? anyValue?⟩
  | _ => none

/-- A tool call as a JSON value. -/
def ToolCall.encode (call : ToolCall) : Json.Value :=
  .object [("name", .string call.name), ("arguments", call.arguments)]

/-- The tool call that a JSON tree gives; the arguments may be missing. -/
def ToolCall.ofTree? (tree : Json.Tree) : Option ToolCall := do
  match ← tree.slots? ["name", "arguments"] with
  | [name, arguments] =>
    return ⟨← name.required? Json.Tree.text?, ← arguments.withDefault? anyValue? .null⟩
  | _ => none

/-! ## Parts of the vault -/

/-- Permissions as a JSON value. -/
def Permissions.encode (p : Permissions) : Json.Value :=
  .object [("user", .integer p.user.toNat), ("group", .integer p.group.toNat),
    ("other", .integer p.other.toNat)]

/-- A byte. -/
def byte? (tree : Json.Tree) : Option UInt8 :=
  (tree.natural? UInt8.size).map UInt8.ofNat

/-- The permissions that a JSON tree gives. -/
def Permissions.ofTree? (tree : Json.Tree) : Option Permissions := do
  match ← tree.slots? ["user", "group", "other"] with
  | [user, group, other] =>
    return ⟨← user.required? byte?, ← group.required? byte?, ← other.required? byte?⟩
  | _ => none

/-- The names of the two kinds of nodes. -/
def Kind.choices : List (String × Kind) :=
  [("file", .file), ("directory", .directory)]

/-- The name of a kind of node. -/
def Kind.name : Kind → String
  | .file => "file"
  | .directory => "directory"

/-- A kind of node as a JSON value. -/
def Kind.encode (kind : Kind) : Json.Value :=
  .string kind.name

/-- The kind of node that a JSON tree gives. -/
def Kind.ofTree? (tree : Json.Tree) : Option Kind :=
  tree.choice? Kind.choices

/-! ## Settings -/

/-- Settings as a JSON value. -/
def Settings.encode (settings : Settings) : Json.Value :=
  .object
    [("identity", .string settings.identity), ("hostname", .string settings.hostname),
     ("greeting", .string settings.greeting),
     ("apologyMessage", .string settings.apologyMessage),
     ("emptyReplyMessage", .string settings.emptyReplyMessage),
     ("modelTimeoutMs", .integer settings.modelTimeoutMs.toNat),
     ("systemPrompt", .string settings.systemPrompt), ("epoch", .string settings.epoch)]

/-! ## Texts -/

/-- Reads a message from a JSON text. -/
def decodeText? {α : Type} (ofTree? : Json.Tree → Option α) (text : String) : Option α :=
  (Json.Tree.ofText? text).bind ofTree?

end VaultShell
