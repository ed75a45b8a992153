import VaultShell.Proofs.Conversation.Chat
import VaultShell.Proofs.Router.Respond

/-!
# What the terminal printed and the language model

The turns that came of a line for the terminal hold what is in the vault, and the language model is
to see nothing of them.  A history comes from outside and may have its turns in any order, so the
question is one of two runs: the same request twice, with other words in the turns that came of
lines.  If the model is asked the same both times, it learns nothing from these words.

It is asked the same if each of the words stands right after its line, and only then.  What the bot
says after that reaches the model as it is, although nobody has spoken to the bot since the line.

## Main statements

* `Router.call_respond_retold_iff`: when the language model is asked the same
* `Router.call_respond_second_answer`: it need not be
-/

namespace VaultShell.Router

/-- **When the language model is asked the same.**  A request of chat is made twice, and the second
time other words may stand wherever the last thing that the user said is a line for the terminal.  The
model is asked the same if and only if each of these words comes right after its line, or the history
belongs to a session that has ended. -/
theorem call_respond_retold_iff {router : Router} {query : String} {history other : List Turn}
    (said : Text.trim query ≠ "") (mode : Mode.ofUtterance query = .chat)
    (retold : Retold followsLine history other) (model : LanguageModel) (wallClock : String) :
    (router.respond model wallClock ⟨query, other⟩).call =
        (router.respond model wallClock ⟨query, history⟩).call ↔
      router.ended = true ∨ Retold answersLine history other := by
  have forModel : ¬ ForVault query := not_forVault_iff.2 ⟨said, mode⟩
  rw [respond_call, respond_call, if_neg forModel, if_neg forModel, Option.some.injEq]
  unfold question heard prompt
  cases ended : router.ended with
  | true => simp
  | false =>
      simp only [Bool.false_eq_true, if_false, false_or]
      rw [← retold.chatTurns_eq_iff]
      constructor
      · intro same
        simpa using same
      · intro seen
        rw [seen]

/-- A line with a single answer, between two exchanges of chat. -/
theorem call_respond_only_answer :
    let history (words : String) : List Turn := [.ofUser "hi", .ofBot "hello!",
      .ofUser "cat vault/contacts.json", .ofBot words, .ofUser "thanks", .ofBot "any time"]
    (∀ words instead, Retold followsLine (history words) (history instead)) ∧
      ∀ words instead,
        ((fresh .standard).respond .offline "" ⟨"what did I open?", history instead⟩).call =
          ((fresh .standard).respond .offline "" ⟨"what did I open?", history words⟩).call := by
  intro history
  have line : (Mode.ofUtterance "cat vault/contacts.json").isTerminal = true := by decide +kernel
  have said : Text.trim "what did I open?" ≠ "" := by decide +kernel
  have mode : Mode.ofUtterance "what did I open?" = .chat := by decide +kernel
  have told : ∀ allowed : List Turn → Bool,
      allowed [.ofUser "hi", .ofBot "hello!", .ofUser "cat vault/contacts.json"] = true →
      ∀ words instead, Retold allowed (history words) (history instead) := by
    intro allowed may words instead
    have start : Retold allowed [] [] := .nil
    have upToLine := ((start.same (.ofUser "hi")).same (.ofBot "hello!")).same
      (.ofUser "cat vault/contacts.json")
    have replaced := upToLine.replaced words instead may
    exact (replaced.same (.ofUser "thanks")).same (.ofBot "any time")
  have follows := told followsLine (by simp [followsLine, Turn.ofUser, Turn.ofBot, Turn.isLine, line])
  have answers := told answersLine (by simp [answersLine, line])
  refine ⟨follows, fun words instead => ?_⟩
  exact (call_respond_retold_iff said mode (follows words instead) .offline "").2
    (Or.inr (answers words instead))

/-- **It need not be.**  A line is answered by two turns, and the second one is part of what the model
is asked, so that other words in it change the question. -/
theorem call_respond_second_answer :
    let history (words : String) : List Turn :=
      [.ofUser "cat vault/contacts.json", .ofBot "one moment", .ofBot words]
    Retold followsLine (history "nothing") (history "a secret") ∧
      ((fresh .standard).respond .offline "" ⟨"what did I open?", history "a secret"⟩).call ≠
        ((fresh .standard).respond .offline "" ⟨"what did I open?", history "nothing"⟩).call := by
  intro history
  refine ⟨?_, ?_⟩
  · have line : Retold followsLine [.ofUser "cat vault/contacts.json", .ofBot "one moment"]
        [.ofUser "cat vault/contacts.json", .ofBot "one moment"] :=
      (Retold.nil.same (.ofUser "cat vault/contacts.json")).same (.ofBot "one moment")
    exact line.replaced "nothing" "a secret" (by decide +kernel)
  · intro same
    have seen := congrArg (Option.map fun call => call.prompt.transcript) same
    revert seen
    decide +kernel

end VaultShell.Router
