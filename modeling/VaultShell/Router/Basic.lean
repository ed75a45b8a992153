import VaultShell.Conversation.Basic
import VaultShell.Json.Value
import VaultShell.Router.Settings

/-!
# The router

One request in, one response out. Sentinels are answered first, so that they work whatever state the
vault and the model are in; lines for the terminal run on the state that the history leads to; the
rest goes to the language model. The router itself keeps no conversation. It remembers the last
replay, which can be found again at any time, and whether the session has ended.

A question to the model carries the public part of the conversation and never a description of tools,
so there is nothing a model could ask the vault for; an answer that calls a tool all the same is an
answer without use.

A request after the end of a session starts a new one: its history belongs to the old session and is
passed over.

## Main definitions

* `Prompt`, `Answer`, `LanguageModel`: what the model is asked, and what may come back in time
* `Router`: what is kept between two requests
* `Router.respond`: the response to a request
* `Router.workingDirectory`: the working directory that a history leads to
-/

namespace VaultShell

/-! ## The language model -/

/-- What the language model is asked. -/
structure Prompt where
  system : String
  /-- The turns before the question, without those of the terminal. -/
  transcript : List Turn
  query : String
  toolSchema : Option Json.Value
  deriving BEq, Repr

/-- A call of a tool, by name. -/
structure ToolCall where
  name : String
  arguments : Json.Value
  deriving BEq, Repr

/-- Why the language model gave no answer. -/
inductive ModelFailure where
  | unavailable (reason : String)
  /-- No answer within a number of milliseconds. -/
  | timeout (milliseconds : UInt64)
  | malformed (reason : String)
  deriving DecidableEq, Repr

/-- The wording of a model's failure. -/
def ModelFailure.message : ModelFailure → String
  | .unavailable reason => "language model unavailable: " ++ reason
  | .timeout milliseconds =>
    "language model did not answer within " ++ toString milliseconds.toNat ++ "ms"
  | .malformed reason => "malformed language model reply: " ++ reason

/-- What comes back from the language model. -/
inductive Answer where
  | text (text : String)
  | toolCall (call : ToolCall)
  | failure (error : ModelFailure)
  /-- Nothing, however long one waits. -/
  | silence

/-- A language model: an answer for every prompt. -/
abbrev LanguageModel := Prompt → Answer

namespace LanguageModel

/-- The model that always says the same. -/
def fixed (text : String) : LanguageModel :=
  fun _ => .text text

/-- What the model says where there is none. -/
def offlineText : String :=
  "I'm offline right now, but your vault terminal still works. Try `ls`."

/-- The model where there is none. -/
def offline : LanguageModel :=
  fixed offlineText

end LanguageModel

/-! ## Requests and responses -/

/-- What a router keeps between two requests. -/
structure Router where
  settings : Settings
  lastReplay : Option LastReplay
  /-- The number of the session; no two sessions have the same one. -/
  sessionNumber : Nat
  ended : Bool

/-- A question put to the language model, and how long it was given. -/
structure ModelCall where
  prompt : Prompt
  timeoutMs : UInt64
  deriving BEq, Repr

/-- What comes of a request. -/
structure Exchange where
  router : Router
  response : Response
  /-- The question put to the language model, if there was one. -/
  call : Option ModelCall

namespace Router

/-- A router that has seen no request. -/
def fresh (settings : Settings) : Router :=
  ⟨settings, none, 0, false⟩

/-- The commands that every router knows. -/
def table : CommandTable := .standard

/-- The state that a history leads to, and the router that remembers it. -/
def replay (router : Router) (history : List Turn) : Router × Shell :=
  let last := LastReplay.catchUp table router.settings.start router.lastReplay history
  ({ router with lastReplay := some last }, last.shell)

/-- The working directory that a history leads to. -/
def workingDirectory (router : Router) (history : List Turn) : Router × String :=
  let (after, shell) := router.replay history
  (after, shell.cwd)

/-- The router of a new session, after the last one has ended. -/
def restart (router : Router) : Router :=
  { router with lastReplay := none, sessionNumber := router.sessionNumber + 1, ended := false }

/-- Answers with a sentinel. Either one makes the last replay worthless. -/
def applySentinel (router : Router) (sentinel : Sentinel) : Router × Response :=
  ({ router with
      lastReplay := none
      ended := router.ended || sentinel = .exitSession },
    ⟨sentinel.token⟩)

/-- Runs a line for the terminal on the state that a history leads to. The state after the line is
not kept: the next request brings the line along in its history. -/
def runLine (wallClock : String) (router : Router) (line : String) (history : List Turn) :
    Router × Response :=
  match Sentinel.ofLine? line with
  | some sentinel => router.applySentinel sentinel
  | none =>
    let (after, shell) := router.replay history
    match (shell.run table wallClock line).2 with
    | .output text => (after, ⟨text⟩)
    | .sentinel sentinel => after.applySentinel sentinel

/-- What is asked of the language model about a query. -/
def prompt (settings : Settings) (query : String) (history : List Turn) : Prompt where
  system := settings.systemPrompt
  transcript := chatTurns history
  query := query
  toolSchema := none

/-- What an answer of the language model is shown as. No answer of a model may pass for a
sentinel. -/
def shownAnswer (settings : Settings) : Answer → String
  | .text text =>
    let trimmed := Text.trim text
    if (Sentinel.ofToken? trimmed).isSome || trimmed.isEmpty then settings.emptyReplyMessage
    else text
  | .toolCall _ => settings.emptyReplyMessage
  | .failure _ => settings.apologyMessage
  | .silence => settings.apologyMessage

/-- Puts a query to the language model. -/
def ask (model : LanguageModel) (router : Router) (query : String)
    (history : List Turn) : Exchange :=
  let settings := router.settings
  let prompt := prompt settings query history
  ⟨router, ⟨shownAnswer settings (model prompt)⟩, some ⟨prompt, settings.modelTimeoutMs⟩⟩

/-- Answers a query of a session that goes on. -/
def answer (model : LanguageModel) (wallClock : String) (router : Router) (query : String)
    (history : List Turn) : Exchange :=
  let query := Text.trim query
  if query.isEmpty then ⟨router, ⟨""⟩, none⟩
  else
    match Mode.ofUtterance query with
    | .chat => router.ask model query history
    | .terminal line =>
      let (after, response) := router.runLine wallClock line history
      ⟨after, response, none⟩

/-- The response to a request. -/
def respond (model : LanguageModel) (wallClock : String) (router : Router)
    (request : Request) : Exchange :=
  if router.ended then router.restart.answer model wallClock request.query []
  else router.answer model wallClock request.query request.history

end Router

end VaultShell
