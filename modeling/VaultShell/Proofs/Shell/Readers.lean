import VaultShell.Proofs.Shell.Spelling
import VaultShell.Proofs.Shell.Stock
import VaultShell.Proofs.Vault.WellFormed

/-!
# Four ways to read a whole file

`cat` and `less` drop the line feeds at the end of a file.  `head` and `tail` take a file apart into its
lines and join them again.  For a file with blank lines at its end or with carriage returns these are
different texts, and no command keeps such a file out.

They agree all the same, because no command writes.  A content comes from the initial vault or is the
stand-in for a name, and each of these contents is made of whole lines the last of which is not blank.
So whoever reads all of it prints it without the line feed at its end.

## Main definitions

* `Shell.wholeReadings`: four commands that read the whole of a file

## Main statements

* `IsStock.exists_text`: a content without its last line feed, in both ways
* `Shell.content_after`: every content was there before, or is the stand-in for a name
* `Shell.readers_agree`: the four commands agree after every run of lines
-/

namespace VaultShell

open Text (Blankless)

/-! ## Contents without the last line feed -/

theorem IsStockLine.ne_empty {line : String} (h : IsStockLine line) : line ≠ "" := by
  rintro rfl
  obtain ⟨c, member, -⟩ := h.foreign
  cases member

/-- **A content without its last line feed**: what is left when the line feeds at its end are dropped,
and what its lines are joined to. -/
theorem IsStock.exists_text {content : String} (h : IsStock content) :
    ∃ text, content = text ++ "\n" ∧ Text.dropFinalFeeds content = text ∧
      Text.joinLines (Text.lines content) = text := by
  obtain ⟨first, rest, rfl, stock⟩ := h.exists_lines
  have something : first :: rest ≠ [] := List.cons_ne_nil first rest
  have whole := Text.unlines_eq_joinLines_append something
  have last := stock _ (List.getLast_mem something)
  have noFeed : (Text.joinLines (first :: rest)).toList.getLast? ≠ some '\n' := by
    rw [Text.getLast?_joinLines (List.getLast?_eq_some_getLast something) last.ne_empty]
    intro feed
    exact absurd (last.unbroken _ (List.mem_of_getLast? feed)) (by decide)
  refine ⟨Text.joinLines (first :: rest), whole, ?_, ?_⟩
  · rw [whole, Text.dropFinalFeeds_append_feed noFeed]
  · rw [Text.lines_unlines fun line member => (stock line member).unbroken.isLine]

/-! ## Where contents come from -/

/-- What holds of every node that names lead to holds everywhere.  The children are in order, so none of
them is hidden behind another one of its name. -/
theorem Node.WellFormed.everywhere {P : Node → Prop} {node : Node} (wellFormed : node.WellFormed)
    (reached : ∀ names found, node.find? names = some found → P found.bare) : node.Everywhere P := by
  induction wellFormed with
  | file attributes content => exact .file (reached [] _ rfl)
  | @directory attributes children sorted named beneath ih =>
      refine .directory (reached [] _ rfl) ?_
      intro member hmember
      refine ih member hmember ?_
      intro names found hfound
      refine reached (member.1 :: names) found ?_
      rw [Node.find?_cons, (Catalog.get?_eq_some_iff sorted).2 hmember]
      exact hfound

/-- A content of one of the files of a vault. -/
def Vault.Holds (vault : Vault) (content : String) : Prop :=
  ∃ names attributes, vault.root.find? names = some (.file attributes content)

namespace Shell

variable {shell : Shell} {operand content text numeral : String} {count : Nat}

/-- **No command writes into a file.**  Whatever is in the files of a vault, every content after a line
was there before, or it is the stand-in for a name. -/
theorem content_after (typed : shell.Typed) (wellFormed : shell.vault.WellFormed) {line : String}
    (holds : (shell.after .standard line).vault.Holds content) :
    shell.vault.Holds content ∨ ∃ name, Blankless name ∧ content = placeholder name := by
  let Known := fun content =>
    shell.vault.Holds content ∨ ∃ name, Blankless name ∧ content = placeholder name
  have before : shell.vault.root.Everywhere (Node.HasContent Known) := by
    refine wellFormed.tree.everywhere ?_
    intro names found hfound
    cases found with
    | file attributes content => exact Or.inl ⟨names, attributes, hfound⟩
    | directory attributes children => trivial
  have keeps : ∀ (copies : Prop) (earlier later : Shell), earlier.Typed → Move copies earlier later →
      earlier.vault.root.Everywhere (Node.HasContent Known) →
      later.vault.root.Everywhere (Node.HasContent Known) := by
    intro copies earlier later _ move held
    exact move.hasContent (fun name blankless => Or.inr ⟨name, blankless, rfl⟩) held
  have after : (shell.after .standard line).vault.root.Everywhere (Node.HasContent Known) := by
    rcases after_moves typed line with same | moves
    · rwa [same]
    · exact Moves.invariant (keeps _) moves typed.tick before
  obtain ⟨names, attributes, found⟩ := holds
  exact (after.find? found).bare

/-! ## Reading all of a file -/

/-- The commands that print the whole of a file, two of them with a number of lines to go by. -/
def wholeReadings (operand numeral : String) : List (Command × List String) :=
  [(.cat, [operand]), (.less, [operand]), (.head, ["-n", numeral, operand]),
    (.tail, ["-n", numeral, operand])]

/-- **A whole file is printed alike** if its lines join to what is left of it without the line feeds at
its end, and if the number of lines is large enough. -/
theorem execute_wholeReading (given : isFlag operand = false)
    (readable : shell.vault.read (shell.resolve operand) = .ok content)
    (dropped : Text.dropFinalFeeds content = text)
    (joined : Text.joinLines (Text.lines content) = text) (isNumeral : Text.IsNumeral numeral count)
    (fits : count < Text.countBound) (enough : (Text.lines content).length ≤ count) :
    ∀ reading ∈ wholeReadings operand numeral, ∀ wallClock,
      reading.1.execute wallClock shell reading.2 = (shell, .ok text) := by
  have alone : operandsOf [operand] = [operand] := by simp [operandsOf, given]
  have unflagged : flagsOf [operand] = [] := by simp [flagsOf, given]
  have printed : ∀ command, print command shell [operand] = .ok text := by
    intro command
    rw [print_single readable alone, unflagged, dropped, Text.joinLines, String.intercalate_singleton]
    rfl
  have excerpted : ∀ side, excerpt side shell ["-n", numeral, operand] = .ok text := by
    intro side
    have all : side.pick count (Text.lines content) = Text.lines content := by
      cases side with
      | front => exact List.take_of_length_le enough
      | back =>
          show List.drop ((Text.lines content).length - count) _ = _
          rw [Nat.sub_eq_zero_of_le enough, List.drop_zero]
    have single := excerpt_single given readable side [⟨.apart, numeral, count, isNumeral, fits⟩] []
    refine single.trans ?_
    show Except.ok (Text.joinLines (side.pick count (Text.lines content))) = _
    rw [all, joined]
  simp only [wholeReadings, List.forall_mem_cons]
  refine ⟨?_, ?_, ?_, ?_, List.forall_mem_nil _⟩
  · exact fun wallClock => congrArg (Prod.mk shell) (printed "cat")
  · exact fun wallClock => congrArg (Prod.mk shell) (printed "less")
  · exact fun wallClock => congrArg (Prod.mk shell) (excerpted .front)
  · exact fun wallClock => congrArg (Prod.mk shell) (excerpted .back)

/-- None of these commands is left to the session. -/
theorem sentinel?_wholeReading :
    ∀ reading ∈ wholeReadings operand numeral, reading.1.sentinel? = none := by
  simp [wholeReadings, Command.sentinel?]

/-- **`cat`, `less`, `head` and `tail` agree on every file.**  After every run of lines, under any
settings, each content in the vault is the readme or the stand-in for a name without blanks; and what a
line does to any vault, with whatever contents, brings none in but such stand-ins.  So for an operand
that leads to a file, the four commands print the same text, with every number of lines that is as large
as the file: the content without the line feed at its end. -/
theorem readers_agree (settings : Settings) (lines : List String) :
    let shell := settings.start.afterAll .standard lines
    (∀ content, shell.vault.Holds content →
      content = readmeContent ∨ ∃ name, Blankless name ∧ content = placeholder name) ∧
    (∀ before : Shell, before.Typed → before.vault.WellFormed → ∀ line content,
      (before.after .standard line).vault.Holds content →
      before.vault.Holds content ∨ ∃ name, Blankless name ∧ content = placeholder name) ∧
    ∀ operand content, isFlag operand = false →
      shell.vault.read (shell.resolve operand) = .ok content →
      ∃ text, content = text ++ "\n" ∧
        ∀ numeral count, Text.IsNumeral numeral count → (Text.lines content).length ≤ count →
          count < Text.countBound → ∀ reading ∈ wholeReadings operand numeral, ∀ wallClock,
            reading.1.execute wallClock shell reading.2 = (shell, .ok text) ∧
            ∀ line, Text.words line = reading.1.name :: reading.2 →
              shell.run .standard wallClock line = (shell.tick, .output text) := by
  intro shell
  have stocked : shell.Stocked := stocked_afterAll settings lines
  refine ⟨?_, fun before typed wellFormed line content => content_after typed wellFormed, ?_⟩
  · rintro content ⟨names, attributes, found⟩
    exact (Node.Everywhere.find? stocked found).bare
  · intro operand content given readable
    obtain ⟨text, whole, dropped, joined⟩ := (stocked.read readable).exists_text
    refine ⟨text, whole, ?_⟩
    intro numeral count isNumeral enough fits reading member wallClock
    refine ⟨?_, ?_⟩
    · exact execute_wholeReading given readable dropped joined isNumeral fits enough reading member
        wallClock
    · intro line words
      -- A minute later the file is still where it was.
      have readableLater : shell.tick.vault.read (shell.tick.resolve operand) = .ok content := readable
      rw [run_of_words words (sentinel?_wholeReading reading member),
        execute_wholeReading given readableLater dropped joined isNumeral fits enough reading member]
      rfl

/-- A copy of a stand-in under another name, read with a number that is written with zeros. -/
theorem readers_agree_copy :
    let shell := Settings.standard.start.afterAll .standard
      ["touch vault/b.dat", "cp vault/b.dat c.txt", "cd vault"]
    isFlag "../c.txt" = false ∧
    shell.vault.read (shell.resolve "../c.txt") = .ok (placeholder "b.dat") ∧
    ∃ text, placeholder "b.dat" = text ++ "\n" ∧
      (∀ reading ∈ wholeReadings "../c.txt" "007", ∀ wallClock,
        reading.1.execute wallClock shell reading.2 = (shell, .ok text)) ∧
      shell.run .standard "" " tail -n  007 ../c.txt" = (shell.tick, .output text) := by
  intro shell
  have given : isFlag "../c.txt" = false := by decide
  have readable : shell.vault.read (shell.resolve "../c.txt") = .ok (placeholder "b.dat") := by
    decide +kernel
  have enough : (Text.lines (placeholder "b.dat")).length ≤ 7 := by decide +kernel
  have seven : Text.IsNumeral "007" 7 := by decide
  have words : Text.words " tail -n  007 ../c.txt" = ["tail", "-n", "007", "../c.txt"] := by
    decide +kernel
  obtain ⟨-, -, agree⟩ := readers_agree Settings.standard
    ["touch vault/b.dat", "cp vault/b.dat c.txt", "cd vault"]
  obtain ⟨text, whole, same⟩ := agree "../c.txt" _ given readable
  have read := same "007" 7 seven enough (by decide)
  have last : (Command.tail, ["-n", "007", "../c.txt"]) ∈ wholeReadings "../c.txt" "007" := by
    simp [wholeReadings]
  refine ⟨given, readable, text, whole, fun reading member wallClock => ?_, ?_⟩
  · exact (read reading member wallClock).1
  · exact (read _ last "").2 _ words

end Shell

end VaultShell
