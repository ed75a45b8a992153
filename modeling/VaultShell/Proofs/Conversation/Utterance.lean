import VaultShell.Conversation.Mode
import VaultShell.Proofs.Shell.Running

/-!
# What makes an utterance a line

The decision between chat and the terminal is made on the trimmed utterance, so that an utterance as
it was typed and as it stands in a history later are told apart from chat alike.  A line for the
terminal is one of the two words that stand on their own, or it names a command of the vault.

## Main statements

* `Mode.ofUtterance_trim`: the blanks around an utterance do not matter
* `Mode.mem_openingWords_iff`: the words that a line may begin with, and the commands
* `Mode.ofUtterance_eq_terminal`: the two kinds of lines
* `Mode.vaultLine?_eq_some`: what is known of a line that is run on the vault
-/

namespace VaultShell

/-! ## Sentinels as lines -/

namespace Sentinel

@[simp] theorem ofLine?_trim (line : String) : ofLine? (Text.trim line) = ofLine? line := by
  unfold ofLine?
  rw [Text.trim_trim]

@[simp] theorem ofLine?_word (sentinel : Sentinel) : ofLine? sentinel.word = some sentinel := by
  cases sentinel <;> decide +kernel

/-- A line asks for a sentinel if it is the sentinel's word, in letters of any case. -/
theorem ofLine?_eq_some_iff {line : String} {sentinel : Sentinel} :
    ofLine? line = some sentinel ↔ (Text.trim line).toLower = sentinel.word := by
  have hwords : word .clearScreen ≠ word .exitSession := by decide
  simp only [ofLine?]
  constructor
  · intro h
    split at h
    · cases h
      assumption
    · split at h
      · cases h
        assumption
      · cases h
  · intro h
    cases sentinel with
    | clearScreen => simp [h]
    | exitSession => simp [h, Ne.symm hwords]

end Sentinel

/-! ## The decision -/

namespace Mode

/-- **The blanks around an utterance do not matter.** -/
@[simp] theorem ofUtterance_trim (utterance : String) :
    ofUtterance (Text.trim utterance) = ofUtterance utterance := by
  unfold ofUtterance
  rw [Text.trim_trim]

theorem ofUtterance_empty : ofUtterance "" = .chat := by
  decide +kernel

/-- A blank utterance is chat. -/
theorem ofUtterance_of_trim_eq_empty {utterance : String} (h : Text.trim utterance = "") :
    ofUtterance utterance = .chat := by
  rw [← ofUtterance_trim, h, ofUtterance_empty]

/-- **The words that a line may begin with are the names of commands**: of all that no sentinel stands
for. -/
theorem mem_openingWords_iff {word : String} :
    word ∈ openingWords ↔ ∃ command : Command, command.name = word ∧ command.sentinel? = none := by
  constructor
  · intro opens
    have named : ∀ word ∈ openingWords,
        (Command.ofName? word).any (·.sentinel?.isNone) = true := by decide +kernel
    obtain ⟨command, found, unreserved⟩ := Option.any_eq_true _ _ |>.1 (named word opens)
    exact ⟨command, Command.name_of_ofName? found, Option.isNone_iff_eq_none.1 unreserved⟩
  · rintro ⟨command, rfl, unreserved⟩
    cases command <;> first | decide | cases unreserved

/-- An utterance that asks for a sentinel is a line for the terminal, in the sentinel's own word. -/
theorem ofUtterance_of_ofLine? {utterance : String} {sentinel : Sentinel}
    (h : Sentinel.ofLine? utterance = some sentinel) :
    ofUtterance utterance = .terminal sentinel.word := by
  unfold ofUtterance
  simp only [Sentinel.ofLine?_trim, h]

/-- Chat asks for no sentinel. -/
theorem ofLine?_eq_none_of_chat {utterance : String} (h : ofUtterance utterance = .chat) :
    Sentinel.ofLine? utterance = none := by
  cases asked : Sentinel.ofLine? utterance with
  | none => rfl
  | some sentinel =>
      rw [ofUtterance_of_ofLine? asked] at h
      cases h

/-- The words that stand on their own are names of commands, without arguments. -/
theorem parse?_word (sentinel : Sentinel) :
    ∃ command : Command, CommandLine.parse? sentinel.word = some ⟨sentinel.word, command.name, []⟩ ∧
      command.sentinel? = some sentinel := by
  cases sentinel with
  | clearScreen => exact ⟨.clear, by decide +kernel, rfl⟩
  | exitSession => exact ⟨.exit, by decide +kernel, rfl⟩

/-- **The two kinds of lines for the terminal**: a word that stands on its own, and a line that
names a command of the vault. -/
theorem ofUtterance_eq_terminal {utterance line : String}
    (h : ofUtterance utterance = .terminal line) :
    (∃ sentinel, Sentinel.ofLine? utterance = some sentinel ∧ line = sentinel.word) ∨
      (Sentinel.ofLine? utterance = none ∧ line = Text.trim utterance ∧
        ∃ (command : Command) (arguments : List String),
          CommandLine.parse? utterance = some ⟨line, command.name, arguments⟩ ∧
          command.sentinel? = none) := by
  cases hsentinel : Sentinel.ofLine? utterance with
  | some sentinel =>
      rw [ofUtterance_of_ofLine? hsentinel, Mode.terminal.injEq] at h
      exact Or.inl ⟨sentinel, rfl, h.symm⟩
  | none =>
      refine Or.inr ⟨rfl, ?_⟩
      unfold ofUtterance at h
      simp only [Sentinel.ofLine?_trim, hsentinel] at h
      cases hwords : Text.words (Text.trim utterance) with
      | nil => simp [hwords] at h
      | cons first rest =>
          simp only [hwords] at h
          by_cases opens : first ∈ openingWords
          · obtain ⟨command, rfl, hvault⟩ := mem_openingWords_iff.1 opens
            rw [if_neg (not_not_intro opens)] at h
            split at h
            · cases h
            · cases h
              refine ⟨rfl, command, rest, ?_, hvault⟩
              unfold CommandLine.parse?
              simp only [hwords]
          · rw [if_pos opens] at h
            cases h

/-- **What is known of a line that is run on the vault**: it is the trimmed utterance and names a
command that no sentinel stands for. -/
theorem vaultLine?_eq_some {utterance line : String}
    (h : (ofUtterance utterance).vaultLine? = some line) :
    ofUtterance utterance = .terminal line ∧ Sentinel.ofLine? utterance = none ∧
      line = Text.trim utterance ∧
      ∃ (command : Command) (arguments : List String),
        CommandLine.parse? utterance = some ⟨line, command.name, arguments⟩ ∧
        command.sentinel? = none := by
  cases hmode : ofUtterance utterance with
  | chat => simp [hmode, vaultLine?] at h
  | terminal typed =>
      rw [hmode] at h
      rcases ofUtterance_eq_terminal hmode with ⟨sentinel, -, rfl⟩ | ⟨hnone, rfl, hcommand⟩
      · simp [vaultLine?] at h
      · simp only [vaultLine?, Sentinel.ofLine?_trim, hnone, Option.isSome_none,
          Bool.false_eq_true, if_false, Option.some.injEq] at h
        subst h
        exact ⟨rfl, hnone, rfl, hcommand⟩

end Mode

end VaultShell
