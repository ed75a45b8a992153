import VaultShell.Proofs.Router.Respond

/-!
# A conversation is a plain shell

Between two messages there is no shell: the router finds its state again from the turns of the
conversation.  A plain shell is the other way to have one.  It is a single state that every line for
the vault is run on, and that starts over when the session says so.  This module runs the two side by
side, for any messages, models and readings of the clock, with looks at the working directory at any
time, and shows that nobody can tell them apart.

What carries the run is `Companion.InStep`.  The history and the plain shell agree (`shell_eq`), and
the router finds what the history says (`coherent`).  The two marks of an ended session, the router's
and the conversation's, are set by different hands and need not agree, but neither is ever set while
there are turns left, so passing over the old history changes nothing.

## Main definitions

* `Companion`: a router and a conversation, with the plain shell beside them
* `Companion.run`: what becomes of them when things are said and looked at

## Main statements

* `Companion.InStep.after`: one event keeps the three of them in step
* `Companion.run_refines`: a conversation is a plain shell
-/

namespace VaultShell

/-- A conversation with a router, and the plain shell beside it. -/
structure Companion where
  router : Router
  conversation : Conversation
  /-- The state of the plain shell. -/
  shell : Shell

namespace Companion

/-- What may happen: a message is sent, which the router answers by way of some model and at some
time, or the working directory is asked for. -/
inductive Event where
  | say (query : String) (model : LanguageModel) (wallClock : String)
  | look

/-- The plain shell after a message.  A line for the vault is run on it; a response that stands for
a sentinel replaces it by a new one. -/
def plainAfter (settings : Settings) (shell : Shell) (query : String) (response : Response) : Shell :=
  if response.sentinel?.isSome then settings.start
  else if (Mode.ofUtterance query).vaultLine?.isSome then shell.after .standard query
  else shell

/-- The response that a message would get now. -/
def response (companion : Companion) (query : String) (model : LanguageModel) (wallClock : String) :
    Response :=
  (companion.router.respond model wallClock (companion.conversation.request query)).response

/-- One event. -/
def after (settings : Settings) (companion : Companion) : Event → Companion
  | .say query model wallClock =>
    let exchange := companion.router.respond model wallClock (companion.conversation.request query)
    { router := exchange.router
      conversation := companion.conversation.receive query exchange.response
      shell := plainAfter settings companion.shell query exchange.response }
  | .look =>
    { companion with router := (companion.router.workingDirectory companion.conversation.turns).1 }

/-- A new router, a new conversation and a new plain shell. -/
def start (settings : Settings) (greeting : String) : Companion :=
  ⟨.fresh settings, .fresh greeting, settings.start⟩

/-- What becomes of them in a list of events. -/
def run (settings : Settings) (greeting : String) (events : List Event) : Companion :=
  events.foldl (after settings) (start settings greeting)

/-! ## Staying in step -/

/-- **The router, the conversation and the plain shell are in step.** -/
structure InStep (settings : Settings) (companion : Companion) : Prop where
  settings_eq : companion.router.settings = settings
  coherent : companion.router.Coherent
  /-- The history leads to the state of the plain shell. -/
  shell_eq : settings.start.afterHistory .standard companion.conversation.turns = companion.shell
  /-- A session that has ended for the router has no turns. -/
  turns_of_router_ended : companion.router.ended = true → companion.conversation.turns = []
  /-- A session that has ended for the conversation has no turns. -/
  turns_of_ended : companion.conversation.ended = true → companion.conversation.turns = []

theorem inStep_start (settings : Settings) (greeting : String) :
    InStep settings (start settings greeting) where
  settings_eq := rfl
  coherent := Router.coherent_fresh settings
  shell_eq := rfl
  turns_of_router_ended _ := rfl
  turns_of_ended _ := rfl

namespace InStep

variable {settings : Settings} {companion : Companion} {query line : String}

/-- Whether or not the router passes over the history, it hears all of it. -/
theorem heard_eq (inStep : InStep settings companion) :
    companion.router.heard companion.conversation.turns = companion.conversation.turns := by
  unfold Router.heard
  split
  case isTrue ended => exact (inStep.turns_of_router_ended ended).symm
  case isFalse => rfl

/-- **A line is answered with what the plain shell prints for it.** -/
theorem response_eq (inStep : InStep settings companion) (model : LanguageModel)
    (wallClock : String) (found : (Mode.ofUtterance query).vaultLine? = some line) :
    (companion.shell.run .standard wallClock query).2 =
      .output (companion.response query model wallClock).text := by
  obtain ⟨text, ran, answered⟩ :=
    Router.answer_of_vaultLine? model wallClock companion.router.opened
      companion.conversation.turns found
  rw [Router.replay_snd (Router.coherent_opened inStep.coherent), Router.opened_settings,
    inStep.settings_eq, inStep.shell_eq] at ran
  rw [ran, response, Router.respond_eq, Conversation.request, inStep.heard_eq, answered]

end InStep

/-- A line of the history moves the state as it moves a plain shell, and everything else in the
history leaves it alone. -/
theorem afterHistory_exchange (start : Shell) (query text : String) :
    start.afterHistory .standard [.ofUser query, .ofBot text] =
      if (Mode.ofUtterance query).vaultLine?.isSome then start.after .standard query else start := by
  unfold Shell.afterHistory
  rw [vaultLines_exchange]
  cases found : (Mode.ofUtterance query).vaultLine? with
  | none => rfl
  | some line =>
      obtain ⟨-, -, rfl, -⟩ := Mode.vaultLine?_eq_some found
      exact Shell.after_trim .standard start query

/-- **What a response leaves of the turns**: none if it stands for a sentinel, and two more else.  That
a conversation which has ended starts over makes no difference, since it has no turns. -/
theorem InStep.turns_receive {settings : Settings} {companion : Companion}
    (inStep : InStep settings companion) (query : String) (response : Response) :
    (companion.conversation.receive query response).turns =
      if response.sentinel?.isSome then []
      else companion.conversation.turns ++ [.ofUser query, .ofBot response.text] := by
  unfold Conversation.receive
  cases meant : response.sentinel? with
  | some sentinel => cases sentinel <;> rfl
  | none =>
      have kept : (if companion.conversation.ended then [] else companion.conversation.turns) =
          companion.conversation.turns := by
        split
        case isTrue ended => exact (inStep.turns_of_ended ended).symm
        case isFalse => rfl
      simp only [kept, Option.isSome_none, Bool.false_eq_true, if_false]

/-- Taking a response in leads the history where the plain shell is led. -/
theorem afterHistory_receive {settings : Settings} {companion : Companion}
    (inStep : InStep settings companion) (query : String) (response : Response) :
    settings.start.afterHistory .standard (companion.conversation.receive query response).turns =
      plainAfter settings companion.shell query response := by
  rw [inStep.turns_receive]
  unfold plainAfter
  split
  · rfl
  · rw [Shell.afterHistory_append, inStep.shell_eq, afterHistory_exchange]

/-- A router that ends its session says so. -/
theorem sentinel?_of_respond_ended {router : Router} {model : LanguageModel} {wallClock : String}
    {request : Request} (ended : (router.respond model wallClock request).router.ended = true) :
    (router.respond model wallClock request).response.sentinel? = some .exitSession := by
  rw [Router.respond_ended, decide_eq_true_eq] at ended
  rw [Router.respond_eq, Router.answer_of_ofLine? ended]
  exact Sentinel.ofToken?_token .exitSession

/-- **One event keeps the three of them in step.** -/
theorem InStep.after {settings : Settings} {companion : Companion}
    (inStep : InStep settings companion) (event : Event) :
    InStep settings (companion.after settings event) := by
  cases event with
  | look =>
      exact
        { settings_eq := inStep.settings_eq
          coherent := Router.coherent_replay inStep.coherent _
          shell_eq := inStep.shell_eq
          turns_of_router_ended := inStep.turns_of_router_ended
          turns_of_ended := inStep.turns_of_ended }
  | say query model wallClock =>
      have kept := Router.answer_router (Router.coherent_opened inStep.coherent) model wallClock query
        (companion.router.heard companion.conversation.turns)
      have answered : companion.router.respond model wallClock (companion.conversation.request query) =
          companion.router.opened.answer model wallClock query
            (companion.router.heard companion.conversation.turns) :=
        Router.respond_eq model wallClock companion.router _
      rw [← answered, Router.opened_settings, inStep.settings_eq] at kept
      refine
        { settings_eq := kept.1
          coherent := kept.2
          shell_eq := afterHistory_receive inStep query _
          turns_of_router_ended := ?_
          turns_of_ended := ?_ }
      · show (companion.router.respond _ _ _).router.ended = true →
          (companion.conversation.receive query (companion.router.respond _ _ _).response).turns = []
        intro ended
        simp only [Conversation.receive, sentinel?_of_respond_ended ended]
      · show (companion.conversation.receive query _).ended = true →
          (companion.conversation.receive query _).turns = []
        unfold Conversation.receive
        split
        · intro ended
          rfl
        · intro ended
          rfl
        · intro ended
          cases ended

/-- Whatever happens, the three of them stay in step.  The induction is over the events, from the
first one on. -/
theorem InStep.foldl {settings : Settings} {companion : Companion}
    (inStep : InStep settings companion) (events : List Event) :
    InStep settings (events.foldl (Companion.after settings) companion) := by
  induction events generalizing companion with
  | nil => exact inStep
  | cons event rest ih => exact ih (inStep.after event)

theorem inStep_run (settings : Settings) (greeting : String) (events : List Event) :
    InStep settings (run settings greeting events) :=
  (inStep_start settings greeting).foldl events

/-- **A conversation is a plain shell.**  After any events, under any settings: a line for the vault
is answered with what the plain shell prints for it, whatever the model, and if the line does not ask
for the time of day whatever the two clocks say; the history leads to the state of the plain shell;
and the working directory that is shown is the plain shell's. -/
theorem run_refines (settings : Settings) (greeting : String) (events : List Event) :
    let companion := run settings greeting events
    (∀ query model wallClock shellClock,
      (Mode.ofUtterance query).vaultLine?.isSome = true →
      ((CommandLine.parse? query).map CommandLine.name = some "date" → shellClock = wallClock) →
      (companion.shell.run .standard shellClock query).2 =
        .output (companion.response query model wallClock).text) ∧
    settings.start.afterHistory .standard companion.conversation.turns = companion.shell ∧
    (companion.router.workingDirectory companion.conversation.turns).2 = companion.shell.cwd := by
  intro companion
  have inStep : InStep settings companion := inStep_run settings greeting events
  refine ⟨?_, inStep.shell_eq, ?_⟩
  · intro query model wallClock shellClock isLine sameTime
    obtain ⟨line, found⟩ := Option.isSome_iff_exists.1 isLine
    obtain ⟨-, -, -, command, arguments, parsed, unreserved⟩ := Mode.vaultLine?_eq_some found
    rw [← inStep.response_eq model wallClock found]
    by_cases date : command.name = "date"
    · rw [sameTime (by rw [parsed]; exact congrArg some date)]
    · exact Shell.run_snd_of_ne_date parsed unreserved date shellClock wallClock
  · show (companion.router.replay companion.conversation.turns).2.cwd = companion.shell.cwd
    rw [Router.replay_snd inStep.coherent, inStep.settings_eq, inStep.shell_eq]

/-- A line after an `exit` in capitals, which leaves no trace in the conversation, and a message that
is no line. -/
theorem run_refines_after_exit :
    let companion := run .standard "Hello" [.say " mkdir  a" .offline "", .look,
      .say "EXIT" .offline "", .say "touch b" .offline "", .say "what is there" .offline ""]
    (companion.shell.run .standard "" "ls").2 =
      .output (companion.response "ls" .offline "12:00").text := by
  have isLine : (Mode.ofUtterance "ls").vaultLine?.isSome = true := by decide +kernel
  have name : (CommandLine.parse? "ls").map CommandLine.name = some "ls" := by decide +kernel
  refine (run_refines .standard "Hello" _).1 "ls" .offline "12:00" "" isLine ?_
  rw [name]
  intro date
  simp at date

end Companion

end VaultShell
