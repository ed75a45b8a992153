import VaultShell.Catalog.Lemmas
import VaultShell.Proofs.Conversation.Wording

/-!
# Lines and their spellings

A line can be spelled in many ways: with any blanks around it, and with any blanks, at least one, between
each two of its words.  All spellings are read as the same name and the same arguments, and what is kept of
a spelling as a text is the part from the first word to the last one.  And there is nothing else to be
read: every input that is not blank is a spelling of the line it is read as.

So reading is the inverse of spelling, up to the choice of the blanks.  Putting single spaces between the
words is one spelling of a line, which is read as the line again.

Flags stay among the arguments, and are listed once more on their own.  The list is a set: it has each flag
once, in the order of the characters, however often and in which order the flags were given.

## Main definitions

* `CommandLine.spelling`, `CommandLine.IsSpelling`: a name and arguments, with the blanks between them

## Main statements

* `CommandLine.parse?_eq_some_iff`: what is read, and from which inputs
* `CommandLine.parse?_eq_none_iff`: what is not read
* `CommandLine.mem_flags_iff`: the flags of a line
* `CommandLine.parse?_inverts_spelling`: all of it
-/

namespace VaultShell.CommandLine

open Text (IsBlankRun IsWord Spaced)

variable {input name : String} {arguments : List (String × String)} {line : CommandLine}

/-! ## Spellings -/

/-- The text of a line from its first word to the last one; with each argument comes what stands in front
of it. -/
def spelling (name : String) : List (String × String) → String
  | [] => name
  | (gap, argument) :: rest => name ++ gap ++ spelling argument rest

/-- **A spelling of a line** is made of words, with blanks in front of each argument. -/
structure IsSpelling (name : String) (arguments : List (String × String)) : Prop where
  name : IsWord name.toList
  apart : ∀ part ∈ arguments, part.1 ≠ "" ∧ IsBlankRun part.1.toList
  arguments : ∀ part ∈ arguments, IsWord part.2.toList

theorem toList_spelling_cons (name gap argument : String) (rest : List (String × String)) :
    (spelling name ((gap, argument) :: rest)).toList =
      name.toList ++ gap.toList ++ (spelling argument rest).toList := by
  rw [spelling, String.toList_append, String.toList_append]

theorem isSpelling_nil : IsSpelling name [] ↔ IsWord name.toList :=
  ⟨IsSpelling.name, fun isWord => ⟨isWord, nofun, nofun⟩⟩

/-- The first word may be taken off with the blanks behind it. -/
theorem isSpelling_cons {gap argument : String} {rest : List (String × String)} :
    IsSpelling name ((gap, argument) :: rest) ↔
      IsWord name.toList ∧ (gap ≠ "" ∧ IsBlankRun gap.toList) ∧ IsSpelling argument rest := by
  constructor
  · rintro ⟨isWord, apart, arguments⟩
    obtain ⟨gapped, apart⟩ := List.forall_mem_cons.1 apart
    obtain ⟨next, arguments⟩ := List.forall_mem_cons.1 arguments
    exact ⟨isWord, gapped, next, apart, arguments⟩
  · rintro ⟨isWord, gapped, next, apart, arguments⟩
    exact ⟨isWord, List.forall_mem_cons.2 ⟨gapped, apart⟩, List.forall_mem_cons.2 ⟨next, arguments⟩⟩

/-- A spelling is put together from its words. -/
theorem IsSpelling.spaced (h : IsSpelling name arguments) :
    Spaced (name.toList :: arguments.map fun part => part.2.toList)
      (spelling name arguments).toList := by
  induction arguments generalizing name with
  | nil => exact .last h.name
  | cons part rest ih =>
      obtain ⟨gap, argument⟩ := part
      obtain ⟨isWord, ⟨something, blank⟩, shorter⟩ := isSpelling_cons.1 h
      rw [toList_spelling_cons]
      exact .more isWord (mt String.toList_eq_nil_iff.1 something) blank (ih shorter)

/-- Whatever is put together from words is a spelling of the line of these words. -/
theorem exists_spelling {words : List String} {cs : List Char}
    (spaced : Spaced ((name :: words).map String.toList) cs) :
    ∃ arguments, IsSpelling name arguments ∧ arguments.map Prod.snd = words ∧
      (spelling name arguments).toList = cs := by
  induction words generalizing name cs with
  | nil =>
      obtain rfl := spaced.eq_word
      have isWord := spaced.isWord_of_mem List.mem_cons_self
      exact ⟨[], isSpelling_nil.2 isWord, rfl, rfl⟩
  | cons argument words ih =>
      cases spaced with
      | @more word gap next rest ws isWord something blank spaced =>
          obtain ⟨arguments, shorter, rfl, rfl⟩ := ih spaced
          refine ⟨(String.ofList gap, argument) :: arguments,
            isSpelling_cons.2 ⟨isWord, ⟨?_, ?_⟩, shorter⟩, rfl, ?_⟩
          · simpa using something
          · rwa [String.toList_ofList]
          · rw [toList_spelling_cons, String.toList_ofList]

/-! ## Reading -/

/-- The words of a spelling, whatever blanks are around it. -/
theorem words_spelling {front back : String} (h : IsSpelling name arguments)
    (hfront : IsBlankRun front.toList) (hback : IsBlankRun back.toList) :
    Text.words (front ++ spelling name arguments ++ back) = name :: arguments.map Prod.snd ∧
      Text.trim (front ++ spelling name arguments ++ back) = spelling name arguments := by
  have text : (front ++ spelling name arguments ++ back).toList =
      front.toList ++ (spelling name arguments).toList ++ back.toList := by
    rw [String.toList_append, String.toList_append]
  constructor
  · rw [Text.words, text, h.spaced.wordChars_eq hfront hback, List.map_cons, List.map_map]
    simp [Function.comp_def]
  · rw [Text.trim, text, h.spaced.trimChars_eq hfront hback, String.ofList_toList]

/-- **What is read, and from which inputs**: a line from its spellings, with any blanks around them. -/
theorem parse?_eq_some_iff : parse? input = some line ↔
    ∃ front arguments back, IsSpelling line.name arguments ∧ IsBlankRun front.toList ∧
      IsBlankRun back.toList ∧ input = front ++ spelling line.name arguments ++ back ∧
      line.raw = spelling line.name arguments ∧ line.arguments = arguments.map Prod.snd := by
  constructor
  · intro read
    obtain ⟨raw, words⟩ := parse?_eq_some read
    have spaced := Text.spaced_trim input
    rw [← Text.words_trim, words] at spaced
    obtain ⟨arguments, isSpelling, hwords, text⟩ := exists_spelling spaced
    obtain ⟨front, ws, middle, back, whole, hfront, hback, spacedWhole⟩ :=
      Text.exists_spaced input.toList
    have trimmed : (Text.trim input).toList = middle := by
      rw [Text.trim, String.toList_ofList, whole, spacedWhole.trimChars_eq hfront hback]
    refine ⟨String.ofList front, arguments, String.ofList back, isSpelling, ?_, ?_, ?_, ?_,
      hwords.symm⟩
    · rwa [String.toList_ofList]
    · rwa [String.toList_ofList]
    · apply String.toList_injective
      rw [String.toList_append, String.toList_append, text, trimmed, whole, String.toList_ofList,
        String.toList_ofList]
    · rw [raw]
      exact String.toList_injective text.symm
  · rintro ⟨front, arguments, back, isSpelling, hfront, hback, rfl, raw, words⟩
    obtain ⟨hwords, trimmed⟩ := words_spelling isSpelling hfront hback
    rw [parse?_of_words hwords, trimmed, ← raw, ← words]

/-- **A line is read from every input that is not blank.** -/
theorem parse?_eq_none_iff : parse? input = none ↔ ∀ c ∈ input.toList, Text.isBlank c = true := by
  constructor
  · intro unread
    obtain ⟨front, ws, middle, back, whole, hfront, hback, spaced⟩ := Text.exists_spaced input.toList
    cases words : Text.words input with
    | cons name arguments =>
        rw [parse?_of_words words] at unread
        cases unread
    | nil =>
        have none : ws = [] := by
          rw [Text.words, whole, spaced.wordChars_eq hfront hback] at words
          exact List.map_eq_nil_iff.1 words
        subst none
        cases spaced
        rw [whole, List.append_nil]
        exact hfront.append hback
  · intro blank
    have run : IsBlankRun input.toList := blank
    have none : Text.words input = [] := by
      rw [Text.words, ← List.append_nil input.toList, run.wordChars_append]
      rfl
    simp only [parse?, Text.words_trim, none]

/-- Single spaces between the words make a spelling of the line. -/
theorem spelling_single (name : String) (words : List String) :
    spelling name (words.map fun word => (" ", word)) = " ".intercalate (name :: words) := by
  induction words generalizing name with
  | nil => rw [List.map_nil, spelling, String.intercalate_singleton]
  | cons word words ih => rw [List.map_cons, spelling, ih, String.intercalate_cons_cons]

/-- **A line is read again from its words with single spaces between them.** -/
theorem parse?_intercalate (read : parse? input = some line) :
    parse? (" ".intercalate (line.name :: line.arguments)) =
      some ⟨" ".intercalate (line.name :: line.arguments), line.name, line.arguments⟩ := by
  obtain ⟨front, arguments, back, isSpelling, -, -, -, -, words⟩ := parse?_eq_some_iff.1 read
  have blank : Text.isBlank ' ' = true := by decide
  have space : " " ≠ "" ∧ IsBlankRun " ".toList := ⟨by decide, Text.isBlankRun_nil.cons blank⟩
  have empty : IsBlankRun "".toList := Text.isBlankRun_nil
  refine parse?_eq_some_iff.2 ⟨"", line.arguments.map fun word => (" ", word), "", ?_, empty, empty,
    ?_, ?_, ?_⟩
  · refine ⟨isSpelling.name, ?_, ?_⟩
    · intro part member
      obtain ⟨word, -, rfl⟩ := List.mem_map.1 member
      exact space
    · intro part member
      obtain ⟨word, given, rfl⟩ := List.mem_map.1 member
      rw [words] at given
      obtain ⟨spelled, among, rfl⟩ := List.mem_map.1 given
      exact isSpelling.arguments spelled among
  · rw [spelling_single, String.empty_append, String.append_empty]
  · exact (spelling_single line.name line.arguments).symm
  · simp [Function.comp_def]

/-! ## Flags -/

/-- **The flags of a line** are the arguments that are options. -/
theorem mem_flags_iff {flag : String} : flag ∈ line.flags ↔ flag ∈ line.arguments ∧ IsOption flag := by
  rw [flags, Catalog.mem_names_ofList, ← isFlag_iff]
  simp

/-- They are listed in order, each once. -/
theorem pairwise_flags (line : CommandLine) : line.flags.Pairwise (· < ·) :=
  Catalog.pairwise_names (Catalog.sorted_ofList _)

theorem has_iff {argument : String} : line.has argument = true ↔ argument ∈ line.arguments :=
  List.contains_iff_mem

/-! ## Both directions -/

/-- **Reading a line is the inverse of spelling it.**  From a name and arguments that are words, with any
blanks between and around them, these are read, and the trimmed input is kept.  Nothing is read from an
input of blanks, and only from such a one; whatever is read from another one is read again from its words
with single spaces between them.  The flags are the arguments that are options, in order and each once,
so an option is given if it is among the flags. -/
theorem parse?_inverts_spelling :
    (∀ name arguments front back, IsSpelling name arguments → IsBlankRun front.toList →
      IsBlankRun back.toList →
      parse? (front ++ spelling name arguments ++ back) =
        some ⟨Text.trim (front ++ spelling name arguments ++ back), name, arguments.map Prod.snd⟩ ∧
      Text.trim (front ++ spelling name arguments ++ back) = spelling name arguments) ∧
    (∀ input, parse? input = none ↔ ∀ c ∈ input.toList, Text.isBlank c = true) ∧
    (∀ input line, parse? input = some line →
      parse? (" ".intercalate (line.name :: line.arguments)) =
        some ⟨" ".intercalate (line.name :: line.arguments), line.name, line.arguments⟩) ∧
    ∀ line : CommandLine, line.flags.Pairwise (· < ·) ∧
      (∀ flag, flag ∈ line.flags ↔ flag ∈ line.arguments ∧ IsOption flag) ∧
      ∀ flag, IsOption flag → (line.has flag = true ↔ flag ∈ line.flags) := by
  refine ⟨?_, fun _ => parse?_eq_none_iff, fun _ _ => parse?_intercalate, ?_⟩
  · intro name arguments front back isSpelling hfront hback
    obtain ⟨words, trimmed⟩ := words_spelling isSpelling hfront hback
    exact ⟨parse?_of_words words, trimmed⟩
  · intro line
    refine ⟨pairwise_flags line, fun _ => mem_flags_iff, ?_⟩
    intro flag option
    rw [has_iff, mem_flags_iff]
    exact (and_iff_left option).symm

/-- A line with blanks of many kinds between and around its words, and with a flag that is given twice. -/
theorem parse?_inverts_spelling_wide :
    let arguments := [("\t\u00a0", "-l"), ("\u3000", "é"), ("  ", "-l")]
    let line : CommandLine := ⟨spelling "ls" arguments, "ls", ["-l", "é", "-l"]⟩
    IsSpelling "ls" arguments ∧ IsBlankRun "\n".toList ∧ IsBlankRun "\u2003".toList ∧
      parse? ("\n" ++ spelling "ls" arguments ++ "\u2003") = some line ∧
      parse? "ls -l é -l" = some ⟨"ls -l é -l", "ls", ["-l", "é", "-l"]⟩ ∧
      IsOption "-l" ∧ line.has "-l" = true ∧ "-l" ∈ line.flags := by
  intro arguments line
  have isSpelling : IsSpelling "ls" arguments := by
    have wide : IsBlankRun "\t\u00a0".toList ∧ IsBlankRun "\u3000".toList ∧ IsBlankRun "  ".toList :=
      ⟨(Text.isBlankRun_nil.cons (by decide)).cons (by decide), Text.isBlankRun_nil.cons (by decide),
        (Text.isBlankRun_nil.cons (by decide)).cons (by decide)⟩
    have words : IsWord "ls".toList ∧ IsWord "-l".toList ∧ IsWord "é".toList :=
      ⟨(Text.isWord_singleton (by decide)).cons (by decide),
        (Text.isWord_singleton (by decide)).cons (by decide), Text.isWord_singleton (by decide)⟩
    refine isSpelling_cons.2 ⟨words.1, ⟨by decide, wide.1⟩, ?_⟩
    refine isSpelling_cons.2 ⟨words.2.1, ⟨by decide, wide.2.1⟩, ?_⟩
    exact isSpelling_cons.2 ⟨words.2.2, ⟨by decide, wide.2.2⟩, isSpelling_nil.2 words.2.1⟩
  have front : IsBlankRun "\n".toList := Text.isBlankRun_nil.cons (by decide)
  have back : IsBlankRun "\u2003".toList := Text.isBlankRun_nil.cons (by decide)
  have option : IsOption "-l" := ⟨by decide, by decide⟩
  have given : line.has "-l" = true := by decide
  obtain ⟨reads, -, again, flags⟩ := parse?_inverts_spelling
  obtain ⟨read, trimmed⟩ := reads "ls" arguments "\n" "\u2003" isSpelling front back
  rw [trimmed] at read
  exact ⟨isSpelling, front, back, read, again _ line read, option, given,
    ((flags line).2.2 "-l" option).1 given⟩

end VaultShell.CommandLine
