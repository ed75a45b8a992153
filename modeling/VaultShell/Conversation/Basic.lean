import VaultShell.Conversation.Mode
import VaultShell.Shell.Run

/-!
# Conversations

A history is a list of turns, oldest first. Nothing in its form says which turn answers which: turns
of either side may stand in any order. What the language model may see of it is the chat in it: the
turns without the exchanges of the terminal. A line for the terminal is no chat, and neither is the
first turn of the bot after it, if no other turn of the user comes between.

The state of the shell is kept nowhere. It is whatever the user's lines make of the starting state,
so it is found by running them again. Turns of the bot are what came of the lines and are never run;
sentinels do not touch the vault and are left out. A growing conversation would run the same lines
over and over. It is enough to keep the last replay: where a new list of lines goes on from the old
one, only what is new is run, on the state that the old one led to.

A conversation, as the one who shows it holds it, is a greeting, which is shown but is no part of the
history, and the turns that go along with every request. A response that is the token of a sentinel
is acted on and leaves no turns behind.

## Main definitions

* `Turn`, `Speaker`: one message and who sent it
* `chatTurns`: the turns that the language model may see
* `vaultLines`, `Shell.afterHistory`: the lines of a history that make up the state, and the state
* `LastReplay.catchUp`: the same state, found by way of the last replay if there is one
* `Request`, `Response`: what goes to the router and what comes back
* `Conversation.request`, `Conversation.receive`: one exchange, seen from where it is shown
-/

namespace VaultShell

/-! ## Turns -/

/-- The two sides of a conversation. -/
inductive Speaker where
  | user
  | bot
  deriving DecidableEq, Repr

/-- One message of a conversation. -/
structure Turn where
  speaker : Speaker
  text : String
  deriving DecidableEq, Repr

namespace Turn

/-- A message of the user. -/
def ofUser (text : String) : Turn := ⟨.user, text⟩

/-- A message of the bot. -/
def ofBot (text : String) : Turn := ⟨.bot, text⟩

end Turn

/-- The chat from some turn on; `answering` says whether a turn of the bot would answer a line for
the terminal. -/
def chatTurnsFrom (answering : Bool) : List Turn → List Turn
  | [] => []
  | ⟨.user, text⟩ :: rest =>
    if (Mode.ofUtterance text).isTerminal then chatTurnsFrom true rest
    else ⟨.user, text⟩ :: chatTurnsFrom false rest
  | ⟨.bot, text⟩ :: rest =>
    if answering then chatTurnsFrom false rest else ⟨.bot, text⟩ :: chatTurnsFrom false rest

/-- The chat in a history: all but the lines for the terminal and the turns that answered them. -/
def chatTurns (history : List Turn) : List Turn :=
  chatTurnsFrom false history

/-! ## Replay -/

/-- The line of a turn that counts for the state. -/
def Turn.vaultLine? (turn : Turn) : Option String :=
  match turn.speaker with
  | .user => (Mode.ofUtterance turn.text).vaultLine?
  | .bot => none

/-- The lines of a history that make up the state, oldest first. -/
def vaultLines (history : List Turn) : List String :=
  history.filterMap Turn.vaultLine?

/-- The state that a history leads to. -/
def Shell.afterHistory (table : CommandTable) (start : Shell) (history : List Turn) : Shell :=
  start.afterAll table (vaultLines history)

/-- A replay: the lines that were run and the state that they led to. -/
structure LastReplay where
  lines : List String
  shell : Shell

namespace LastReplay

/-- The state after a list of lines; if it goes on from the last replay, only the rest is run. -/
def replay (table : CommandTable) (start : Shell) (last : Option LastReplay)
    (lines : List String) : Shell :=
  match last with
  | none => start.afterAll table lines
  | some last =>
    if last.lines.isPrefixOf lines then last.shell.afterAll table (lines.drop last.lines.length)
    else start.afterAll table lines

/-- The replay of a history, found by way of the last one. -/
def catchUp (table : CommandTable) (start : Shell) (last : Option LastReplay)
    (history : List Turn) : LastReplay :=
  let lines := vaultLines history
  ⟨lines, replay table start last lines⟩

end LastReplay

/-! ## Conversations -/

/-- A message and the turns before it. -/
structure Request where
  query : String
  history : List Turn
  deriving DecidableEq, Repr

/-- The answer to a message: text to show, or the token of a sentinel. -/
structure Response where
  text : String
  deriving DecidableEq, Repr

/-- The sentinel that a response stands for. -/
def Response.sentinel? (response : Response) : Option Sentinel :=
  Sentinel.ofToken? response.text

/-- A conversation as it is shown. -/
structure Conversation where
  greeting : String
  turns : List Turn
  ended : Bool
  deriving DecidableEq, Repr

namespace Conversation

/-- A conversation in which nothing has been said. -/
def fresh (greeting : String) : Conversation :=
  ⟨greeting, [], false⟩

/-- What is shown: the greeting first, then every turn. -/
def shown (conversation : Conversation) : List Turn :=
  .ofBot conversation.greeting :: conversation.turns

/-- A message with the turns before it. -/
def request (conversation : Conversation) (query : String) : Request :=
  ⟨query, conversation.turns⟩

/-- Takes in the response to a message. A conversation that has ended starts over. -/
def receive (conversation : Conversation) (query : String) (response : Response) : Conversation :=
  match response.sentinel? with
  | some .clearScreen => { conversation with turns := [], ended := false }
  | some .exitSession => { conversation with turns := [], ended := true }
  | none =>
    let before := if conversation.ended then [] else conversation.turns
    { conversation with
      turns := before ++ [.ofUser query, .ofBot response.text]
      ended := false }

end Conversation

end VaultShell
