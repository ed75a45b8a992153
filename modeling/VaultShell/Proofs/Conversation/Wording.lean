import VaultShell.Proofs.Conversation.Utterance
import VaultShell.Proofs.Text.Spacing

/-!
# The wording of a line

Whether a line reads as a sentence is decided on its characters: on the last ones, and on what stands
before a blank.  Both are matters of single words.  The last characters of a trimmed line are those of
its last word, and what stands before a blank is the end of a word that another one follows.  So the
rule can be told on the words alone, and how an utterance is spaced has no part in it.

## Main definitions

* `EndsSentence`, `Pauses`: words that a sentence ends or pauses after
* `ReadsAsLine`: the rule, told on the words of an utterance

## Main statements

* `hasPause_iff`, `endsSentence_iff`: sentence punctuation, word by word
* `readsAsLine_iff`: the decision about a line is the rule
* `lines_by_words`: which utterances are lines, and as what line they are run
-/

namespace VaultShell

open Text (Spaced IsBlankRun IsWord)

/-! ## Options -/

/-- A word that begins with a hyphen and is longer than one byte. -/
def IsOption (word : String) : Prop :=
  word.toList.head? = some '-' ∧ 1 < word.utf8ByteSize

/-- Options are the words that are read as flags. -/
theorem isFlag_iff {word : String} : isFlag word = true ↔ IsOption word := by
  unfold isFlag IsOption
  rw [← String.ofList_toList (s := word), String.toList_ofList]
  cases word.toList with
  | nil => simp
  | cons first rest =>
      rw [← List.singleton_append, String.ofList_append, String.utf8ByteSize_append]
      by_cases hyphen : first = '-'
      · subst hyphen
        have one : (String.ofList ['-']).utf8ByteSize = 1 := by decide
        cases rest with
        | nil => simp [one]
        | cons second rest =>
            have more : (String.ofList (second :: rest)).utf8ByteSize ≠ 0 := by
              rw [Ne, String.utf8ByteSize_eq_zero_iff]
              simp
            simp only [List.singleton_append, List.head?_cons, true_and, true_iff]
            omega
      · simp [hyphen]

namespace Mode

variable {cs line word gap rest before : List Char} {ws : List (List Char)} {c : Char}

/-! ## Pauses -/

/-- A word that a sentence pauses after: it ends in a comma or in a semicolon. -/
def Pauses (word : List Char) : Prop :=
  word.getLast? = some ',' ∨ word.getLast? = some ';'

/-- A pause needs a mark and a blank behind it. -/
theorem hasPause_cons (c : Char) (cs : List Char) :
    hasPause (c :: cs) = true ↔
      ((c = ',' ∨ c = ';') ∧ ∃ d, cs.head? = some d ∧ Text.isBlank d = true) ∨
        hasPause cs = true := by
  cases cs with
  | nil => simp [hasPause]
  | cons d cs => simp [hasPause]

/-- No mark is a blank. -/
theorem not_mark_of_isBlank (blank : Text.isBlank c = true) : ¬ (c = ',' ∨ c = ';') := by
  rintro (rfl | rfl)
  · exact absurd blank (by decide)
  · exact absurd blank (by decide)

theorem hasPause_of_solid (solid : ∀ c ∈ word, Text.isBlank c = false) : hasPause word = false := by
  induction word with
  | nil => rfl
  | cons c word ih =>
      obtain ⟨-, solid⟩ := List.forall_mem_cons.1 solid
      refine Bool.eq_false_iff.2 fun pause => ?_
      rcases (hasPause_cons c word).1 pause with ⟨-, d, found, blank⟩ | pause
      · rw [solid d (List.mem_of_head? found)] at blank
        cases blank
      · rw [ih solid] at pause
        cases pause

/-- Blanks on their own make no pause. -/
theorem hasPause_run (run : IsBlankRun gap) : hasPause (gap ++ rest) = hasPause rest := by
  induction gap with
  | nil => rfl
  | cons c gap ih =>
      obtain ⟨blank, run⟩ := run.of_cons
      rw [← ih run, Bool.eq_iff_iff, List.cons_append, hasPause_cons]
      simp [not_mark_of_isBlank blank]

/-- **At the end of a word** there is a pause if the word ends in a mark. -/
theorem hasPause_append (solid : ∀ c ∈ word, Text.isBlank c = false)
    (blank : Text.isBlank c = true) :
    hasPause (word ++ c :: rest) = true ↔ Pauses word ∨ hasPause (c :: rest) = true := by
  induction word with
  | nil => simp [Pauses]
  | cons d word ih =>
      obtain ⟨-, solid⟩ := List.forall_mem_cons.1 solid
      rw [List.cons_append, hasPause_cons, ih solid]
      cases word with
      | nil => simp [Pauses, blank]
      | cons e word =>
          have inside : Text.isBlank e = false := solid e List.mem_cons_self
          simp [Pauses, inside]

/-- **A line has a pause if a word that another one follows ends in a mark.** -/
theorem hasPause_iff (spaced : Spaced ws line) :
    hasPause line = true ↔ ∃ word ∈ ws.dropLast, Pauses word := by
  induction spaced with
  | empty => simp [hasPause]
  | last isWord => simp [hasPause_of_solid isWord.solid]
  | @more word gap next rest ws isWord apart run spaced ih =>
      obtain ⟨c, gap, rfl⟩ := List.exists_cons_of_ne_nil apart
      obtain ⟨blank, -⟩ := run.of_cons
      rw [List.append_assoc, List.cons_append, hasPause_append isWord.solid blank,
        ← List.cons_append, hasPause_run run, ih, List.dropLast_cons_cons]
      simp

/-! ## The end of a sentence -/

/-- A word that a sentence ends with: it ends in a question mark, in an exclamation mark, or in a full
stop behind a letter. -/
def EndsSentence (word : List Char) : Prop :=
  word.getLast? = some '?' ∨ word.getLast? = some '!' ∨
    ∃ letter, letter.isAlpha = true ∧ [letter, '.'] <:+ word

theorem endsSentence_reverse (cs : List Char) :
    endsSentence cs.reverse = true ↔ EndsSentence cs := by
  obtain ⟨reversed, rfl⟩ : ∃ reversed : List Char, cs = reversed.reverse :=
    ⟨cs.reverse, (List.reverse_reverse cs).symm⟩
  have stop : ∀ letter, [letter, '.'] <:+ reversed.reverse ↔ ['.', letter] <+: reversed :=
    fun letter => @List.reverse_suffix _ ['.', letter] reversed
  unfold EndsSentence
  simp only [stop, List.getLast?_eq_head?_reverse, List.reverse_reverse]
  fun_cases endsSentence reversed with
  | case1 => simp
  | case2 => simp
  | case3 letter rest => simp [List.cons_prefix_cons]
  | case4 reversed notQuestion notExclamation notStop =>
      refine iff_of_false Bool.false_ne_true ?_
      rintro (question | exclamation | ⟨letter, -, rest, rfl⟩)
      · obtain ⟨rest, rfl⟩ := List.head?_eq_some_iff.1 question
        exact notQuestion rest rfl
      · obtain ⟨rest, rfl⟩ := List.head?_eq_some_iff.1 exclamation
        exact notExclamation rest rfl
      · exact notStop letter rest rfl

/-- No letter is a blank. -/
theorem not_isAlpha_of_isBlank (blank : Text.isBlank c = true) : c.isAlpha = false := by
  refine Bool.eq_false_iff.2 fun alpha => ?_
  have letter : (65 ≤ c.val.toNat ∧ c.val.toNat ≤ 90) ∨ (97 ≤ c.val.toNat ∧ c.val.toNat ≤ 122) := by
    rcases Bool.or_eq_true_iff.1 alpha with upper | lower
    · have between : c.val ≥ 'A'.val ∧ c.val ≤ 'Z'.val := of_decide_eq_true upper
      exact Or.inl between
    · obtain ⟨low, high⟩ := Bool.and_eq_true_iff.1 lower
      exact Or.inr ⟨of_decide_eq_true low, of_decide_eq_true high⟩
  simp only [Text.isBlank, Bool.or_eq_true, Bool.and_eq_true, decide_eq_true_eq, beq_iff_eq,
    Char.toNat] at blank
  omega

/-- **Behind a blank, a word ends the sentence by itself**: a full stop that is all of a word has no
letter before it. -/
theorem endsSentence_append (nonempty : word ≠ [])
    (stops : ∀ c, before.getLast? = some c → Text.isBlank c = true) :
    EndsSentence (before ++ word) ↔ EndsSentence word := by
  obtain ⟨front, last, rfl⟩ := (List.eq_nil_or_concat' word).resolve_left nonempty
  -- A letter in front of the last character is in the word, or it would be the blank before it.
  have reach : ∀ letter, letter.isAlpha = true →
      ([letter, '.'] <:+ before ++ (front ++ [last]) ↔ [letter, '.'] <:+ front ++ [last]) := by
    intro letter alpha
    refine ⟨?_, List.suffix_append_of_suffix⟩
    rintro ⟨others, split⟩
    have twice : (others ++ [letter]) ++ ['.'] = (before ++ front) ++ [last] := by
      simpa using split
    obtain ⟨same, rfl⟩ := List.append_inj' twice rfl |>.imp_right List.singleton_inj.1
    rcases List.eq_nil_or_concat' front with rfl | ⟨front, other, rfl⟩
    · have found : before.getLast? = some letter := by
        rw [← List.append_nil before, ← same, List.getLast?_concat]
      rw [not_isAlpha_of_isBlank (stops letter found)] at alpha
      cases alpha
    · rw [← List.append_assoc] at same
      obtain ⟨-, rfl⟩ := List.append_inj' same rfl |>.imp_right List.singleton_inj.1
      exact ⟨front, by simp⟩
  unfold EndsSentence
  rw [List.getLast?_append, List.getLast?_concat, Option.some_or]
  refine or_congr Iff.rfl (or_congr Iff.rfl (exists_congr fun letter => ?_))
  exact and_congr_right (reach letter)

/-- **A line ends a sentence if its last word does.** -/
theorem endsSentence_iff (spaced : Spaced ws line) :
    endsSentence line.reverse = true ↔ ∃ word, ws.getLast? = some word ∧ EndsSentence word := by
  rw [endsSentence_reverse]
  by_cases something : ws = []
  · subst something
    cases spaced
    simp [EndsSentence]
  · obtain ⟨before, word, hlast, rfl, stops⟩ := spaced.exists_last something
    have isWord := spaced.isWord_of_mem (List.mem_of_getLast? hlast)
    rw [endsSentence_append isWord.ne_nil stops, hlast]
    simp

/-! ## The rule -/

/-- **The words of a line** that is run on the vault. -/
structure ReadsAsLine (words : List String) : Prop where
  begins : ∃ first, words.head? = some first ∧ first ∈ openingWords
  bare : ∀ first, words.head? = some first → first ∈ bareWords → ∀ word ∈ words.tail, IsOption word
  unfinished : ∀ word, words.getLast? = some word → ¬ EndsSentence word.toList
  fluent : ∀ word ∈ words.dropLast, ¬ Pauses word.toList
  plain : ∀ word ∈ words.tail, ¬ IsOption word → word.toLower ∉ functionWords

/-- Sentence punctuation of a trimmed line, word by word. -/
theorem hasSentencePunctuation_iff (utterance : String) :
    hasSentencePunctuation (Text.trim utterance) = true ↔
      (∃ word, (Text.words utterance).getLast? = some word ∧ EndsSentence word.toList) ∨
        ∃ word ∈ (Text.words utterance).dropLast, Pauses word.toList := by
  have spaced := Text.spaced_trim utterance
  rw [hasSentencePunctuation, Bool.or_eq_true, endsSentence_iff spaced, hasPause_iff spaced,
    List.getLast?_map, ← List.map_dropLast]
  simp [-List.map_dropLast]

/-- **The decision about a line is the rule.** -/
theorem readsAsLine_iff {utterance first : String} {rest : List String}
    (hwords : Text.words utterance = first :: rest) (opens : first ∈ openingWords) :
    readsAsSentence first (operandsOf rest) (Text.trim utterance) = false ↔
      ReadsAsLine (Text.words utterance) := by
  have operands : ∀ word, word ∈ operandsOf rest ↔ word ∈ rest ∧ ¬ IsOption word := by
    intro word
    simp [operandsOf, List.mem_filter, ← isFlag_iff]
  have punctuation := hasSentencePunctuation_iff utterance
  rw [hwords] at punctuation ⊢
  rw [← Bool.not_eq_true, readsAsSentence, Bool.or_eq_true, Bool.or_eq_true, Bool.and_eq_true,
    decide_eq_true_iff, punctuation, List.any_eq_true]
  constructor
  · intro unread
    simp only [not_or, not_and, not_exists] at unread
    obtain ⟨⟨bare, unfinished, fluent⟩, plain⟩ := unread
    refine ⟨⟨_, rfl, opens⟩, ?_, unfinished, fluent, ?_⟩
    · rintro first found isBare word member
      obtain rfl := Option.some.inj found
      have none : operandsOf rest = [] := by simpa using bare isBare
      by_contra notOption
      have operand := (operands word).2 ⟨member, notOption⟩
      rw [none] at operand
      cases operand
    · intro word member notOption isFunction
      refine plain word ((operands word).2 ⟨member, notOption⟩) ?_
      exact decide_eq_true isFunction
  · intro line
    rintro ((⟨isBare, some⟩ | ⟨word, last, ends⟩ | ⟨word, member, pauses⟩) |
      ⟨word, operand, isFunction⟩)
    · obtain ⟨word, operand⟩ := List.exists_mem_of_ne_nil (operandsOf rest) (by simpa using some)
      obtain ⟨member, notOption⟩ := (operands word).1 operand
      exact notOption (line.bare _ rfl isBare word member)
    · exact line.unfinished word last ends
    · exact line.fluent word member pauses
    · obtain ⟨member, notOption⟩ := (operands word).1 operand
      exact line.plain word member notOption (of_decide_eq_true isFunction)

/-! ## Which utterances are lines -/

theorem toList_toLower (s : String) : s.toLower.toList = s.toList.map Char.toLower :=
  String.toList_map

/-- No word that a line may begin with begins one of the two words that stand on their own. -/
theorem ofLine?_of_readsAsLine {utterance : String} (line : ReadsAsLine (Text.words utterance)) :
    Sentinel.ofLine? utterance = none := by
  obtain ⟨first, found, member⟩ := line.begins
  obtain ⟨rest, hwords⟩ := List.head?_eq_some_iff.1 found
  obtain ⟨more, begins⟩ := Text.exists_toList_trim hwords
  -- Small letters keep the beginning of a line, so the whole line would begin like such a word.
  have apart : ∀ first ∈ openingWords, ∀ sentinel : Sentinel,
      ¬ first.toLower.toList <+: sentinel.word.toList := by
    intro first member sentinel
    revert first member
    cases sentinel <;> decide +kernel
  by_contra asks
  obtain ⟨sentinel, asked⟩ := Option.ne_none_iff_exists'.1 asks
  refine apart first member sentinel ⟨more.map Char.toLower, ?_⟩
  rw [← Sentinel.ofLine?_eq_some_iff.1 asked, toList_toLower, toList_toLower, begins,
    List.map_append]

/-- An utterance is run as a line of the vault if its words follow the rule. -/
theorem ofUtterance_of_readsAsLine {utterance : String} (line : ReadsAsLine (Text.words utterance)) :
    ofUtterance utterance = .terminal (Text.trim utterance) := by
  obtain ⟨first, found, opens⟩ := line.begins
  obtain ⟨rest, hwords⟩ := List.head?_eq_some_iff.1 found
  have reads := (readsAsLine_iff hwords opens).2 line
  unfold ofUtterance
  simp only [Sentinel.ofLine?_trim, ofLine?_of_readsAsLine line, Text.words_trim, hwords, opens,
    reads, not_true_eq_false, Bool.false_eq_true, if_false]

/-- Only such utterances are. -/
theorem readsAsLine_of_ofUtterance {utterance line : String}
    (unasked : Sentinel.ofLine? utterance = none) (mode : ofUtterance utterance = .terminal line) :
    line = Text.trim utterance ∧ ReadsAsLine (Text.words utterance) := by
  unfold ofUtterance at mode
  simp only [Sentinel.ofLine?_trim, unasked, Text.words_trim] at mode
  cases hwords : Text.words utterance with
  | nil => simp [hwords] at mode
  | cons first rest =>
      simp only [hwords] at mode
      by_cases opens : first ∈ openingWords
      · rw [if_neg (not_not_intro opens)] at mode
        split at mode
        · cases mode
        case isFalse reads =>
          cases mode
          rw [← hwords]
          exact ⟨rfl, (readsAsLine_iff hwords opens).1 (by simpa using reads)⟩
      · rw [if_pos opens] at mode
        cases mode

/-- A text is without blanks if it is without blanks in small letters. -/
theorem blankless_of_toLower {s : String} (blankless : Text.Blankless s.toLower) :
    Text.Blankless s := by
  intro c member
  by_contra blank
  have blank : Text.isBlank c = true := by simpa using blank
  have lower : c.toLower = c := by
    obtain ⟨notUpper, -⟩ := Bool.or_eq_false_iff.1 (not_isAlpha_of_isBlank blank)
    exact dif_neg (of_decide_eq_false notUpper)
  have kept : c ∈ s.toLower.toList := by
    rw [toList_toLower, List.mem_map]
    exact ⟨c, member, lower⟩
  rw [blankless c kept] at blank
  cases blank

/-- **A word that stands on its own is told by the words**: it is the only one. -/
theorem ofLine?_congr {utterance other : String}
    (same : Text.words utterance = Text.words other) {sentinel : Sentinel}
    (asked : Sentinel.ofLine? utterance = some sentinel) :
    Sentinel.ofLine? other = some sentinel := by
  rw [Sentinel.ofLine?_eq_some_iff] at asked ⊢
  have blankless : Text.Blankless (Text.trim utterance) := by
    refine blankless_of_toLower ?_
    rw [asked]
    cases sentinel <;> decide
  have nonempty : Text.trim utterance ≠ "" := by
    intro empty
    rw [empty] at asked
    cases sentinel <;> exact absurd asked (by decide +kernel)
  rw [Text.words_of_blankless nonempty blankless] at same
  rw [Text.trim_of_words same.symm, asked]

/-- **Which utterances are lines, and as what they are run.**  A word that stands on its own is run in
small letters, and an utterance whose words follow the rule is run as it is, without the blanks around
it.  So whether an utterance is a line does not depend on how it is spaced. -/
theorem lines_by_words :
    (∀ utterance line, ofUtterance utterance = .terminal line ↔
      ((line = "clear" ∨ line = "exit") ∧ (Text.trim utterance).toLower = line) ∨
        (line = Text.trim utterance ∧ ReadsAsLine (Text.words utterance))) ∧
      ∀ utterance other, Text.words utterance = Text.words other →
        (ofUtterance utterance).isTerminal = (ofUtterance other).isTerminal := by
  constructor
  · intro utterance line
    constructor
    · intro mode
      cases asked : Sentinel.ofLine? utterance with
      | none => exact Or.inr (readsAsLine_of_ofUtterance asked mode)
      | some sentinel =>
          rw [ofUtterance_of_ofLine? asked, Mode.terminal.injEq] at mode
          subst mode
          refine Or.inl ⟨?_, Sentinel.ofLine?_eq_some_iff.1 asked⟩
          cases sentinel with
          | clearScreen => exact Or.inl rfl
          | exitSession => exact Or.inr rfl
    · rintro (⟨rfl | rfl, lower⟩ | ⟨rfl, reads⟩)
      · exact ofUtterance_of_ofLine? (@Sentinel.ofLine?_eq_some_iff _ .clearScreen |>.2 lower)
      · exact ofUtterance_of_ofLine? (@Sentinel.ofLine?_eq_some_iff _ .exitSession |>.2 lower)
      · exact ofUtterance_of_readsAsLine reads
  · have oneWay : ∀ utterance other, Text.words utterance = Text.words other →
        (ofUtterance utterance).isTerminal = true → (ofUtterance other).isTerminal = true := by
      intro utterance other same isLine
      cases mode : ofUtterance utterance with
      | chat =>
          rw [mode] at isLine
          cases isLine
      | terminal line =>
          cases asked : Sentinel.ofLine? utterance with
          | some sentinel =>
              rw [ofUtterance_of_ofLine? (ofLine?_congr same asked)]
              rfl
          | none =>
              obtain ⟨-, reads⟩ := readsAsLine_of_ofUtterance asked mode
              rw [same] at reads
              rw [ofUtterance_of_readsAsLine reads]
              rfl
    intro utterance other same
    rw [Bool.eq_iff_iff]
    exact ⟨oneWay utterance other same, oneWay other utterance same.symm⟩

/-- A line that ends like a sentence, with other blanks. -/
theorem lines_by_words_respaced :
    Text.words " rm  -rf\told.\n" = Text.words "rm -rf old." ∧
      (ofUtterance " rm  -rf\told.\n").isTerminal = (ofUtterance "rm -rf old.").isTerminal := by
  have same : Text.words " rm  -rf\told.\n" = Text.words "rm -rf old." := by decide +kernel
  exact ⟨same, lines_by_words.2 _ _ same⟩

end Mode

end VaultShell
