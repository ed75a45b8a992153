import Mathlib.Data.List.DropRight
import VaultShell.Proofs.Conversation.Chat
import VaultShell.Proofs.Router.PlainShell

/-!
# What the language model sees of a conversation

The language model is asked about some messages and not about others, and along with a message it
gets a part of what was said before.  Both are decided anew for each request, by reading the texts of
the turns that have been recorded, so what the model sees of a whole conversation is nowhere written
down.

Here it is.  Beside a conversation runs a log of everything that is said and answered, whatever it is
for.  The conversation keeps the part of the log since the last response that stands for a sentinel
(`Recorded`), and of that part the model sees the exchanges of chat, in their order and in full.  An
exchange is chat or not by its message alone: the message as it was typed is read like the trimmed
one that was answered, and an answer comes right after its message, so it can be no other's.

## Main definitions

* `Companion.log`: what is said in a list of events, with the responses
* `Companion.sinceSentinel`: the part of a log since the last sentinel

## Main statements

* `Companion.Recorded.after`: the turns of the conversation are those of the log
* `Companion.run_call_eq`: what the language model is asked
-/

namespace VaultShell

/-- A message and the response to it. -/
structure Said where
  query : String
  response : Response
  deriving DecidableEq, Repr

namespace Said

/-- The turns that an exchange is recorded as. -/
def turns (said : Said) : List Turn :=
  [.ofUser said.query, .ofBot said.response.text]

/-- Whether the message is chat. -/
def isChat (said : Said) : Bool :=
  Mode.ofUtterance said.query = .chat

end Said

/-- The chat in recorded exchanges is what was recorded of the exchanges of chat. -/
theorem chatTurns_flatMap_turns (log : List Said) :
    chatTurns (log.flatMap Said.turns) = (log.filter Said.isChat).flatMap Said.turns := by
  induction log using List.reverseRecOn with
  | nil => rfl
  | append_singleton before said ih =>
      rw [List.flatMap_append, List.flatMap_singleton, Said.turns, chatTurns_exchange, ih,
        List.filter_append, List.flatMap_append]
      congr 1
      by_cases chat : Mode.ofUtterance said.query = .chat
      · rw [if_pos chat, List.filter_singleton, Said.isChat, decide_eq_true chat]
        rfl
      · rw [if_neg chat, List.filter_singleton, Said.isChat, decide_eq_false chat]
        rfl

namespace Companion

/-- What is said in an event. -/
def said? (companion : Companion) : Event → Option Said
  | .say query model wallClock => some ⟨query, companion.response query model wallClock⟩
  | .look => none

/-- What is said in a list of events, with the responses, oldest first. -/
def log (settings : Settings) (companion : Companion) : List Event → List Said
  | [] => []
  | event :: rest =>
    (companion.said? event).toList ++ log settings (companion.after settings event) rest

/-- The part of a log since the last response that stands for a sentinel. -/
def sinceSentinel (log : List Said) : List Said :=
  log.rtakeWhile (·.response.sentinel?.isNone)

theorem sinceSentinel_concat (log : List Said) (said : Said) :
    sinceSentinel (log ++ [said]) =
      if said.response.sentinel?.isSome then [] else sinceSentinel log ++ [said] := by
  unfold sinceSentinel
  rw [List.rtakeWhile_concat]
  cases said.response.sentinel? <;> rfl

/-! ## The log and the conversation -/

/-- **The turns of the conversation are those of the log** since the last sentinel. -/
def Recorded (log : List Said) (companion : Companion) : Prop :=
  companion.conversation.turns = (sinceSentinel log).flatMap Said.turns

variable {settings : Settings} {companion : Companion}

/-- One event adds to the turns what it adds to the log. -/
theorem Recorded.after {before : List Said} (recorded : Recorded before companion)
    (inStep : InStep settings companion) (event : Event) :
    Recorded (before ++ (companion.said? event).toList) (companion.after settings event) := by
  cases event with
  | look =>
      show companion.conversation.turns = _
      rw [recorded, said?, Option.toList_none, List.append_nil]
  | say query model wallClock =>
      show (companion.conversation.receive query (companion.response query model wallClock)).turns = _
      rw [inStep.turns_receive, said?, Option.toList_some, sinceSentinel_concat]
      split
      · rfl
      · rw [List.flatMap_append, List.flatMap_singleton, recorded]
        rfl

/-- So do all events of a run.  The induction is over the events, and what was said before the first
of them changes along. -/
theorem Recorded.foldl {before : List Said} (recorded : Recorded before companion)
    (inStep : InStep settings companion) (events : List Event) :
    Recorded (before ++ log settings companion events)
      (events.foldl (Companion.after settings) companion) := by
  induction events generalizing before companion with
  | nil => rwa [log, List.append_nil]
  | cons event rest ih =>
      rw [log, ← List.append_assoc]
      exact ih (recorded.after inStep event) (inStep.after event)

theorem recorded_run (settings : Settings) (greeting : String) (events : List Event) :
    Recorded (log settings (start settings greeting) events) (run settings greeting events) := by
  have nothing : Recorded [] (start settings greeting) := rfl
  exact nothing.foldl (inStep_start settings greeting) events

/-! ## What the language model is asked -/

/-- **What the language model is asked.**  After any events, under any settings and whatever was
answered before: about chat that says something the model is asked once, and about nothing else.  It
gets the trimmed message, no description of tools, and of what was said since the last sentinel the
exchanges of chat, in full and in their order.  So nothing that it gets was recorded for a line. -/
theorem run_call_eq (settings : Settings) (greeting : String) (events : List Event) (query : String)
    (model : LanguageModel) (wallClock : String) :
    let companion := run settings greeting events
    let said := sinceSentinel (log settings (start settings greeting) events)
    let transcript := (said.filter Said.isChat).flatMap Said.turns
    (companion.router.respond model wallClock (companion.conversation.request query)).call =
      (if Text.trim query ≠ "" ∧ Mode.ofUtterance query = .chat then
        some {
          prompt := {
            system := settings.systemPrompt
            transcript := transcript
            query := Text.trim query
            toolSchema := none }
          timeoutMs := settings.modelTimeoutMs }
      else none) ∧
    ∀ turn ∈ transcript, ∃ exchange ∈ said,
      Mode.ofUtterance exchange.query = .chat ∧ turn ∈ exchange.turns := by
  intro companion said transcript
  have inStep : InStep settings companion := inStep_run settings greeting events
  have recorded : companion.conversation.turns = said.flatMap Said.turns :=
    recorded_run settings greeting events
  refine ⟨?_, ?_⟩
  · have asked : companion.router.question (companion.conversation.request query) =
        ⟨⟨settings.systemPrompt, transcript, Text.trim query, none⟩, settings.modelTimeoutMs⟩ := by
      unfold Router.question Router.prompt Conversation.request
      rw [inStep.heard_eq, inStep.settings_eq, recorded, chatTurns_flatMap_turns]
    rw [Router.respond_call, asked, ← ite_not]
    exact if_congr Router.not_forVault_iff rfl rfl
  · intro turn seen
    obtain ⟨exchange, kept, part⟩ := List.mem_flatMap.1 seen
    obtain ⟨mem, chat⟩ := List.mem_filter.1 kept
    exact ⟨exchange, mem, of_decide_eq_true chat, part⟩

end Companion

end VaultShell
