import VaultShell.Proofs.Text.Words

/-!
# Words and the blanks between them

Trimming a text and taking it apart into words are two passes over the same characters.  They agree
because every text comes apart in one way only: blanks in front, then words with at least one blank
between each two of them, then blanks at the end.  Trimming leaves the middle part, and the words are
those of the middle part.

So whatever is decided on a trimmed line can be decided on its words and on the blanks between them, by
induction on how the line is put together.

## Main definitions

* `Spaced`: a text put together from words, with blanks between them

## Main statements

* `Spaced.wordChars_eq`, `Spaced.trimChars_eq`: both passes read the words and the line back
* `spaced_trimChars`, `spaced_trim`: a trimmed text is put together from its words
* `words_trim`: trimming keeps the words
-/

namespace VaultShell.Text

variable {cs line word gap front back : List Char} {ws : List (List Char)} {c : Char}

/-- Characters that make up a word. -/
structure IsWord (word : List Char) : Prop where
  ne_nil : word ≠ []
  solid : ∀ c ∈ word, isBlank c = false

/-- Blanks only, perhaps none. -/
def IsBlankRun (gap : List Char) : Prop :=
  ∀ c ∈ gap, isBlank c = true

theorem isBlankRun_nil : IsBlankRun [] := by
  intro c member
  cases member

theorem IsBlankRun.cons (blank : isBlank c = true) (run : IsBlankRun gap) : IsBlankRun (c :: gap) :=
  List.forall_mem_cons.2 ⟨blank, run⟩

/-- The first blank of a run, and the others. -/
theorem IsBlankRun.of_cons (run : IsBlankRun (c :: gap)) : isBlank c = true ∧ IsBlankRun gap :=
  List.forall_mem_cons.1 run

theorem IsBlankRun.append (run : IsBlankRun front) (more : IsBlankRun back) :
    IsBlankRun (front ++ back) :=
  List.forall_mem_append.2 ⟨run, more⟩

theorem isWord_singleton (solid : isBlank c = false) : IsWord [c] where
  ne_nil := List.cons_ne_nil c []
  solid := List.forall_mem_singleton.2 solid

theorem IsWord.cons (solid : isBlank c = false) (isWord : IsWord word) : IsWord (c :: word) where
  ne_nil := List.cons_ne_nil c word
  solid := List.forall_mem_cons.2 ⟨solid, isWord.solid⟩

/-- **A text put together from words**, with at least one blank between each two of them and none at
its ends. -/
inductive Spaced : List (List Char) → List Char → Prop
  | empty : Spaced [] []
  | last {word : List Char} (isWord : IsWord word) : Spaced [word] word
  | more {word gap next rest : List Char} {ws : List (List Char)} (isWord : IsWord word)
      (apart : gap ≠ []) (blank : IsBlankRun gap) (spaced : Spaced (next :: ws) rest) :
      Spaced (word :: next :: ws) (word ++ gap ++ rest)

/-! ## Every text comes apart -/

/-- The first word may be longer by a character. -/
theorem Spaced.lengthen (solid : isBlank c = false) (spaced : Spaced (word :: ws) line) :
    Spaced ((c :: word) :: ws) (c :: line) := by
  cases spaced with
  | last isWord => exact .last (isWord.cons solid)
  | more isWord apart blank spaced => exact .more (isWord.cons solid) apart blank spaced

/-- **Every text comes apart** into blanks, words with blanks between them, and blanks. -/
theorem exists_spaced (cs : List Char) :
    ∃ front ws line back, cs = front ++ line ++ back ∧ IsBlankRun front ∧ IsBlankRun back ∧
      Spaced ws line := by
  -- From the end of the text: one more character is a blank, a word of its own, or the beginning of
  -- the first word.
  induction cs with
  | nil => exact ⟨[], [], [], [], rfl, isBlankRun_nil, isBlankRun_nil, .empty⟩
  | cons c rest ih =>
      obtain ⟨front, ws, line, back, rfl, hfront, hback, spaced⟩ := ih
      cases blank : isBlank c with
      | true => exact ⟨c :: front, ws, line, back, rfl, hfront.cons blank, hback, spaced⟩
      | false =>
          have alone := isWord_singleton blank
          cases ws with
          | nil =>
              -- All that follows is blank, so the character is a word of its own and the last one.
              cases spaced
              refine ⟨[], [[c]], [c], front ++ back, ?_, isBlankRun_nil, hfront.append hback,
                .last alone⟩
              simp
          | cons word ws =>
              by_cases touching : front = []
              · subst touching
                exact ⟨[], (c :: word) :: ws, c :: line, back, rfl, isBlankRun_nil, hback,
                  spaced.lengthen blank⟩
              · exact ⟨[], [c] :: word :: ws, [c] ++ front ++ line, back, rfl, isBlankRun_nil, hback,
                  .more alone touching hfront spaced⟩

/-! ## Reading the words back -/

/-- A blank parts the words before it from those behind it. -/
theorem wordChars_append_cons (blank : isBlank c = true) (before behind : List Char) :
    wordChars (before ++ c :: behind) = wordChars before ++ wordChars behind := by
  rw [wordChars, List.splitOnP_append_cons before behind blank, List.filter_append]
  rfl

theorem IsWord.wordChars_eq (isWord : IsWord word) : wordChars word = [word] := by
  rw [wordChars, List.splitOnP_eq_singleton isWord.solid]
  simp [isWord.ne_nil]

theorem IsBlankRun.wordChars_append (run : IsBlankRun gap) (cs : List Char) :
    wordChars (gap ++ cs) = wordChars cs := by
  induction gap with
  | nil => rfl
  | cons c gap ih =>
      obtain ⟨blank, run⟩ := run.of_cons
      have parted := wordChars_append_cons blank [] (gap ++ cs)
      rw [ih run] at parted
      exact parted

theorem wordChars_append_run (run : IsBlankRun gap) (cs : List Char) :
    wordChars (cs ++ gap) = wordChars cs := by
  cases gap with
  | nil => rw [List.append_nil]
  | cons c gap =>
      obtain ⟨blank, run⟩ := run.of_cons
      have nothing := run.wordChars_append []
      rw [List.append_nil] at nothing
      rw [wordChars_append_cons blank, nothing]
      exact List.append_nil _

namespace Spaced

/-- **The words are read back.** -/
theorem wordChars_line (spaced : Spaced ws line) : wordChars line = ws := by
  induction spaced with
  | empty => rfl
  | last isWord => exact isWord.wordChars_eq
  | @more word gap next rest ws isWord apart blank spaced ih =>
      obtain ⟨c, gap, rfl⟩ := List.exists_cons_of_ne_nil apart
      obtain ⟨hc, run⟩ := blank.of_cons
      rw [List.append_assoc, List.cons_append, wordChars_append_cons hc, isWord.wordChars_eq,
        run.wordChars_append, ih]
      rfl

/-- Blanks around a line do not change its words. -/
theorem wordChars_eq (spaced : Spaced ws line) (hfront : IsBlankRun front) (hback : IsBlankRun back) :
    wordChars (front ++ line ++ back) = ws := by
  rw [wordChars_append_run hback, hfront.wordChars_append, spaced.wordChars_line]

theorem isWord_of_mem (spaced : Spaced ws line) (member : word ∈ ws) : IsWord word := by
  induction spaced with
  | empty => cases member
  | last isWord =>
      rw [List.mem_singleton.1 member]
      exact isWord
  | more isWord apart blank spaced ih =>
      rcases List.mem_cons.1 member with rfl | member
      · exact isWord
      · exact ih member

/-- A line that has a word begins with it. -/
theorem exists_front (spaced : Spaced (word :: ws) line) : ∃ rest, line = word ++ rest := by
  cases spaced with
  | last isWord => exact ⟨[], (List.append_nil _).symm⟩
  | more isWord apart blank spaced => exact ⟨_, List.append_assoc _ _ _⟩

/-- A line of one word is the word. -/
theorem eq_word (spaced : Spaced [word] line) : line = word := by
  cases spaced with
  | last isWord => rfl

/-- **A line that has a word ends with the last one**, behind nothing or behind a blank. -/
theorem exists_last (spaced : Spaced ws line) (something : ws ≠ []) :
    ∃ before word, ws.getLast? = some word ∧ line = before ++ word ∧
      ∀ c, before.getLast? = some c → isBlank c = true := by
  induction spaced with
  | empty => exact absurd rfl something
  | @last word isWord =>
      refine ⟨[], word, rfl, rfl, ?_⟩
      intro c found
      cases found
  | @more word gap next rest ws isWord apart blank spaced ih =>
      obtain ⟨before, final, hlast, rfl, stops⟩ := ih (List.cons_ne_nil next ws)
      refine ⟨word ++ gap ++ before, final, ?_, ?_, ?_⟩
      · rw [List.getLast?_cons_cons, hlast]
      · rw [List.append_assoc (word ++ gap)]
      · intro c found
        rw [List.append_assoc, List.getLast?_append, List.getLast?_append] at found
        cases ends : before.getLast? with
        | some d =>
            rw [ends] at found
            obtain rfl := Option.some.inj found
            exact stops d ends
        | none =>
            rw [ends, List.getLast?_eq_some_getLast apart] at found
            obtain rfl := Option.some.inj found
            exact blank _ (List.getLast_mem apart)

/-- A line that has a word does not begin with a blank. -/
theorem dropWhile_append (spaced : Spaced (word :: ws) line) (back : List Char) :
    (line ++ back).dropWhile isBlank = line ++ back := by
  obtain ⟨rest, rfl⟩ := spaced.exists_front
  have isWord := spaced.isWord_of_mem List.mem_cons_self
  obtain ⟨c, more, rfl⟩ := List.exists_cons_of_ne_nil isWord.ne_nil
  have starts : isBlank c = false := isWord.solid c List.mem_cons_self
  exact List.dropWhile_cons_of_neg (by simp [starts])

/-- A line does not end with a blank. -/
theorem dropTrailing_eq (spaced : Spaced ws line) : dropTrailing isBlank line = line := by
  rw [dropTrailing_eq_rdropWhile, List.rdropWhile_eq_self_iff]
  intro nonempty
  have something : ws ≠ [] := by
    rintro rfl
    cases spaced
    exact nonempty rfl
  obtain ⟨before, final, hlast, rfl, -⟩ := spaced.exists_last something
  have isWord := spaced.isWord_of_mem (List.mem_of_getLast? hlast)
  have ends : isBlank (final.getLast isWord.ne_nil) = false :=
    isWord.solid _ (List.getLast_mem isWord.ne_nil)
  rw [List.getLast_append_of_ne_nil _ isWord.ne_nil, ends]
  exact Bool.false_ne_true

/-- **Trimming leaves the line.** -/
theorem trimChars_eq (spaced : Spaced ws line) (hfront : IsBlankRun front)
    (hback : IsBlankRun back) : trimChars (front ++ line ++ back) = line := by
  have behind : dropTrailing isBlank (line ++ back) = line := by
    rw [dropTrailing, List.reverse_append, List.dropWhile_append_of_pos]
    · exact spaced.dropTrailing_eq
    · exact fun c member => hback c (List.mem_reverse.1 member)
  rw [trimChars, List.append_assoc, List.dropWhile_append_of_pos hfront]
  cases ws with
  | nil =>
      cases spaced
      rw [List.nil_append, List.dropWhile_eq_nil_iff.2 hback]
      rfl
  | cons word ws => rw [spaced.dropWhile_append, behind]

end Spaced

/-- **A trimmed text is put together from its words.** -/
theorem spaced_trimChars (cs : List Char) : Spaced (wordChars cs) (trimChars cs) := by
  obtain ⟨front, ws, line, back, rfl, hfront, hback, spaced⟩ := exists_spaced cs
  rw [spaced.wordChars_eq hfront hback, spaced.trimChars_eq hfront hback]
  exact spaced

/-- The same for the words as texts. -/
theorem spaced_trim (s : String) : Spaced ((words s).map String.toList) (trim s).toList := by
  have spaced := spaced_trimChars s.toList
  rw [words, List.map_map, trim, String.toList_ofList]
  simpa [Function.comp_def] using spaced

/-- A trimmed text begins with its first word. -/
theorem exists_toList_trim {s first : String} {rest : List String} (h : words s = first :: rest) :
    ∃ more, (trim s).toList = first.toList ++ more := by
  have spaced := spaced_trim s
  rw [h] at spaced
  exact spaced.exists_front

/-- A trimmed text of one word is the word. -/
theorem trim_of_words {s word : String} (h : words s = [word]) : trim s = word := by
  have spaced := spaced_trim s
  rw [h, List.map_singleton] at spaced
  exact String.toList_injective spaced.eq_word

/-- A text without blanks is its only word. -/
theorem words_of_blankless {s : String} (nonempty : trim s ≠ "") (blankless : Blankless (trim s)) :
    words s = [trim s] := by
  have isWord : IsWord (trim s).toList := ⟨by simpa using nonempty, blankless⟩
  have spaced := spaced_trim s
  have only := (Spaced.last isWord).wordChars_line
  rw [spaced.wordChars_line] at only
  exact List.map_injective_iff.2 (fun _ _ => String.toList_injective) only

/-- **Trimming keeps the words.** -/
@[simp] theorem words_trim (s : String) : words (trim s) = words s := by
  rw [words, words, trim, String.toList_ofList, (spaced_trimChars s.toList).wordChars_line]

end VaultShell.Text
