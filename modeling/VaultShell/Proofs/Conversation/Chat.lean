import VaultShell.Conversation.Basic

/-!
# Which turns are chat

`chatTurns` reads a history from front to back with one bit of memory.  Seen from the turn that is
read the bit is no memory at all: it says whether the turn right before is a line for the terminal.
So a turn is kept or dropped by what it is and by the one turn before it.

That is less than what the bit is for.  A line may be answered by several turns, and all of them hold
what the terminal printed; only the first of them comes right after the line.  The two notions are
`followsLine`, the last thing that the user said is a line, and `answersLine`, the last thing that
anybody said is one.  How far the second falls short of the first is the exact answer to the question
which turns of the terminal can be seen in the chat: a history is `Retold` with other words for the
terminal, and the chat in it stays the same if and only if each of these words comes right after its
line.

## Main definitions

* `followsLine`, `answersLine`: what may stand before a turn of the bot
* `isChat`: whether a turn is chat, going by what stands before it
* `Retold`: the same history with other texts for some turns of the bot

## Main statements

* `chatTurns_concat`: the last turn of a history, kept or dropped
* `chatTurns_exchange`: so is a message with its answer
* `Retold.chatTurns_eq_iff`: when other words of the terminal cannot be seen
-/

namespace VaultShell

/-- Whether a turn is a line of the user for the terminal. -/
def Turn.isLine (turn : Turn) : Bool :=
  turn.speaker = .user && (Mode.ofUtterance turn.text).isTerminal

/-- Whether the last turn of the user is a line for the terminal. What the bot says then came of that
line, however often it has spoken since. -/
def followsLine (before : List Turn) : Bool :=
  (before.filter (·.speaker = .user)).getLast?.any Turn.isLine

/-- Whether the last turn of all is a line for the terminal. -/
def answersLine (before : List Turn) : Bool :=
  before.getLast?.any Turn.isLine

@[simp] theorem Turn.isLine_ofUser (text : String) :
    (Turn.ofUser text).isLine = (Mode.ofUtterance text).isTerminal :=
  Bool.true_and _

@[simp] theorem Turn.isLine_ofBot (text : String) : (Turn.ofBot text).isLine = false := rfl

/-- Every turn is one of the user or one of the bot. -/
theorem Turn.eq_ofUser_or_eq_ofBot (turn : Turn) :
    turn = .ofUser turn.text ∨ turn = .ofBot turn.text := by
  obtain ⟨speaker, text⟩ := turn
  cases speaker with
  | user => exact Or.inl rfl
  | bot => exact Or.inr rfl

/-- Whether a turn is chat, going by what stands before it. -/
def isChat (before : List Turn) (turn : Turn) : Bool :=
  match turn.speaker with
  | .user => !(Mode.ofUtterance turn.text).isTerminal
  | .bot => !answersLine before

@[simp] theorem isChat_ofUser (before : List Turn) (text : String) :
    isChat before (.ofUser text) = !(Mode.ofUtterance text).isTerminal := rfl

@[simp] theorem isChat_ofBot (before : List Turn) (text : String) :
    isChat before (.ofBot text) = !answersLine before := rfl

@[simp] theorem answersLine_concat (before : List Turn) (turn : Turn) :
    answersLine (before ++ [turn]) = turn.isLine := by
  simp [answersLine]

/-! ## Reading on from some turn -/

theorem chatTurnsFrom_cons_ofUser (answering : Bool) (text : String) (rest : List Turn) :
    chatTurnsFrom answering (.ofUser text :: rest) =
      if (Mode.ofUtterance text).isTerminal then chatTurnsFrom true rest
      else .ofUser text :: chatTurnsFrom false rest :=
  rfl

theorem chatTurnsFrom_cons_ofBot (answering : Bool) (text : String) (rest : List Turn) :
    chatTurnsFrom answering (.ofBot text :: rest) =
      if answering then chatTurnsFrom false rest else .ofBot text :: chatTurnsFrom false rest :=
  rfl

/-- **The bit after a history** is whether the last turn of it is a line; without a turn it is what it
was before. -/
theorem chatTurnsFrom_append (answering : Bool) (history more : List Turn) :
    chatTurnsFrom answering (history ++ more) =
      chatTurnsFrom answering history ++
        chatTurnsFrom ((history.getLast?.map Turn.isLine).getD answering) more := by
  induction history generalizing answering with
  | nil => rfl
  | cons turn rest ih =>
      have bit : ((turn :: rest).getLast?.map Turn.isLine).getD answering =
          (rest.getLast?.map Turn.isLine).getD turn.isLine := by
        rw [List.getLast?_cons]
        cases rest.getLast? <;> rfl
      rw [bit, List.cons_append]
      rcases turn.eq_ofUser_or_eq_ofBot with user | bot
      · rw [user, chatTurnsFrom_cons_ofUser, chatTurnsFrom_cons_ofUser, Turn.isLine_ofUser]
        split
        case isTrue line => rw [ih, line]
        case isFalse chat => rw [ih, Bool.eq_false_iff.2 chat, List.cons_append]
      · rw [bot, chatTurnsFrom_cons_ofBot, chatTurnsFrom_cons_ofBot, Turn.isLine_ofBot]
        split
        · rw [ih]
        · rw [ih, List.cons_append]

/-- A history is read in two parts; what the second one begins with may answer the first one. -/
theorem chatTurns_append (history more : List Turn) :
    chatTurns (history ++ more) = chatTurns history ++ chatTurnsFrom (answersLine history) more := by
  unfold chatTurns answersLine
  rw [chatTurnsFrom_append]
  cases history.getLast? <;> rfl

/-- **The last turn of a history, kept or dropped.** A turn of the user is kept unless it is a line,
and one of the bot unless it comes right after a line. -/
theorem chatTurns_concat (history : List Turn) (turn : Turn) :
    chatTurns (history ++ [turn]) =
      chatTurns history ++ if isChat history turn then [turn] else [] := by
  rw [chatTurns_append]
  congr 1
  rcases turn.eq_ofUser_or_eq_ofBot with user | bot
  · rw [user, chatTurnsFrom_cons_ofUser, isChat_ofUser]
    cases (Mode.ofUtterance turn.text).isTerminal <;> rfl
  · rw [bot, chatTurnsFrom_cons_ofBot, isChat_ofBot]
    cases answersLine history <;> rfl

/-- Of a message and its answer both are chat or neither is, whatever came before them. -/
theorem chatTurns_exchange (history : List Turn) (query text : String) :
    chatTurns (history ++ [.ofUser query, .ofBot text]) =
      chatTurns history ++
        if Mode.ofUtterance query = .chat then [.ofUser query, .ofBot text] else [] := by
  have parted : history ++ [.ofUser query, .ofBot text] =
      history ++ [.ofUser query] ++ [.ofBot text] := by
    simp
  rw [parted, chatTurns_concat, chatTurns_concat, isChat_ofUser, isChat_ofBot, answersLine_concat,
    Turn.isLine_ofUser]
  cases Mode.ofUtterance query with
  | chat => simp [Mode.isTerminal]
  | terminal line => simp [Mode.isTerminal]

/-! ## Histories told again -/

/-- **The same history with other texts** for some turns of the bot, if what stands before them allows
it. -/
inductive Retold (allowed : List Turn → Bool) : List Turn → List Turn → Prop
  | nil : Retold allowed [] []
  | same {history other : List Turn} (turn : Turn) (before : Retold allowed history other) :
      Retold allowed (history ++ [turn]) (other ++ [turn])
  | replaced {history other : List Turn} (text instead : String)
      (before : Retold allowed history other) (may : allowed history = true) :
      Retold allowed (history ++ [.ofBot text]) (other ++ [.ofBot instead])

namespace Retold

variable {allowed : List Turn → Bool} {history other : List Turn}

/-- Lines stand where they stood. -/
theorem answersLine_eq (retold : Retold allowed history other) :
    answersLine other = answersLine history := by
  cases retold with
  | nil => rfl
  | same turn before => rw [answersLine_concat, answersLine_concat]
  | replaced text instead before may =>
      rw [answersLine_concat, answersLine_concat, Turn.isLine_ofBot, Turn.isLine_ofBot]

/-- A turn that is told again as it was is chat in both histories or in neither. -/
theorem isChat_eq (retold : Retold allowed history other) (turn : Turn) :
    isChat other turn = isChat history turn := by
  unfold isChat
  rw [retold.answersLine_eq]

/-- Other words right after a line cannot be seen. -/
theorem chatTurns_eq (retold : Retold answersLine history other) :
    chatTurns other = chatTurns history := by
  induction retold with
  | nil => rfl
  | same turn before ih => rw [chatTurns_concat, chatTurns_concat, before.isChat_eq, ih]
  | replaced text instead before may ih =>
      rw [chatTurns_concat, chatTurns_concat, isChat_ofBot, isChat_ofBot, before.answersLine_eq,
        may, ih]
      rfl

/-- **When other words of the terminal cannot be seen**: if and only if each of them comes right after
its line. A turn that comes later is kept as it is, so its text can be read off the chat. -/
theorem chatTurns_eq_iff (retold : Retold followsLine history other) :
    chatTurns other = chatTurns history ↔ Retold answersLine history other := by
  refine ⟨?_, chatTurns_eq⟩
  induction retold with
  | nil => exact fun _ => .nil
  | same turn before ih =>
      intro seen
      rw [chatTurns_concat, chatTurns_concat, before.isChat_eq] at seen
      exact .same turn (ih (List.append_cancel_right seen))
  | @replaced history other text instead before may ih =>
      intro seen
      rw [chatTurns_concat, chatTurns_concat, isChat_ofBot, isChat_ofBot, before.answersLine_eq]
        at seen
      cases right : answersLine history with
      | true =>
          simp only [right, Bool.not_true, Bool.false_eq_true, if_false, List.append_nil] at seen
          exact .replaced text instead (ih seen) right
      | false =>
          simp only [right, Bool.not_false, if_true] at seen
          obtain ⟨before, words⟩ := List.append_inj' seen rfl
          rw [List.head_eq_of_cons_eq words]
          exact .same _ (ih before)

end Retold

end VaultShell
