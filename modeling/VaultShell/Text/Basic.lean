/-!
# Texts

Texts are taken apart in a few ways only. A run of unwanted characters is dropped at an end; a text is
cut at the last occurrence of a separator, which gives the extension of a file name or the parent part
of a path as it was typed; and a line is cut into words. Cutting a text at every separator is left to
the lists; what is needed of it is that no piece holds a separator.

A *blank* is a character with the Unicode property `White_Space`. The same class serves three purposes
here: it is what trimming removes, what separates the words of a line, and what may follow a comma
inside a sentence. Using one class for all three is what makes the readers of a line agree with each
other: a line that is trimmed, or whose blanks are respaced, keeps its words.

Fields are read and printed by small functions of their own: a decimal count, a number with a least
number of digits, and a column of a given width. Widths count characters.

## Main definitions

* `dropTrailing`, `cutLast?`: taking a text apart from behind
* `isBlank`: the class of blanks, as a table of 25 code points
* `trim`: a text without its blanks at either end
* `words`: the maximal runs of non-blank characters, from left to right
* `readCount?`, `padLeft`, `padRight`, `zeroPadded`: fields
-/

namespace VaultShell.Text

/-! ## Cutting -/

/-- Drops the longest run at the end whose characters all satisfy `p`. -/
def dropTrailing (p : Char → Bool) (cs : List Char) : List Char :=
  (cs.reverse.dropWhile p).reverse

theorem length_dropTrailing_le (p : Char → Bool) (cs : List Char) :
    (dropTrailing p cs).length ≤ cs.length := by
  have h := (List.dropWhile_sublist p (l := cs.reverse)).length_le
  simpa [dropTrailing] using h

/-- What stands before and after the last occurrence of a character. -/
def cutLast? (separator : Char) : List Char → Option (List Char × List Char)
  | [] => none
  | c :: rest =>
    match cutLast? separator rest with
    | some (before, after) => some (c :: before, after)
    | none => if c = separator then some ([], rest) else none

/-- The two parts and the separator make up the text. -/
theorem eq_of_cutLast? {separator : Char} {cs before after : List Char}
    (h : cutLast? separator cs = some (before, after)) :
    cs = before ++ separator :: after := by
  induction cs generalizing before with
  | nil => simp [cutLast?] at h
  | cons c rest ih =>
    unfold cutLast? at h
    cases hr : cutLast? separator rest with
    | none =>
      rw [hr] at h
      by_cases hc : c = separator
      · simp only [hc, if_true, Option.some.injEq, Prod.mk.injEq] at h
        obtain ⟨rfl, rfl⟩ := h
        simp [hc]
      · simp [hc] at h
    | some parts =>
      obtain ⟨b, a⟩ := parts
      rw [hr] at h
      simp only [Option.some.injEq, Prod.mk.injEq] at h
      obtain ⟨rfl, rfl⟩ := h
      rw [ih hr]
      rfl

/-- A text without the separator is not cut. -/
theorem cutLast?_eq_none {separator : Char} {cs : List Char} (h : separator ∉ cs) :
    cutLast? separator cs = none := by
  induction cs with
  | nil => rfl
  | cons c rest ih =>
    rw [List.mem_cons, not_or] at h
    rw [cutLast?, ih h.2]
    exact if_neg (Ne.symm h.1)

/-- A separator with none behind it is the last one. -/
theorem cutLast?_append_cons {separator : Char} {after : List Char} (h : separator ∉ after)
    (before : List Char) :
    cutLast? separator (before ++ separator :: after) = some (before, after) := by
  induction before with
  | nil =>
    rw [List.nil_append, cutLast?, cutLast?_eq_none h]
    exact if_pos rfl
  | cons c before ih => rw [List.cons_append, cutLast?, ih]

/-- A piece between separators holds none of them. -/
theorem not_of_mem_splitOnP {p : Char → Bool} {cs piece : List Char}
    (h : piece ∈ cs.splitOnP p) : ∀ c ∈ piece, p c = false := by
  induction cs generalizing piece with
  | nil =>
      rw [List.splitOnP_nil, List.mem_singleton] at h
      simp [h]
  | cons c rest ih =>
      rw [List.splitOnP_cons_eq_if_modifyHead] at h
      by_cases hc : p c = true
      · rw [if_pos hc] at h
        rcases List.mem_cons.1 h with rfl | h
        · simp
        · exact ih h
      · rw [if_neg hc] at h
        cases hpieces : rest.splitOnP p with
        | nil => exact absurd hpieces (List.splitOnP_ne_nil p rest)
        | cons first others =>
            rw [hpieces, List.modifyHead_cons] at h
            rcases List.mem_cons.1 h with rfl | h
            · intro d hd
              rcases List.mem_cons.1 hd with rfl | hd
              · simpa using hc
              · exact ih (hpieces ▸ List.mem_cons_self) d hd
            · exact ih (hpieces ▸ List.mem_cons_of_mem first h)

/-! ## Blanks and words -/

/-- The characters with the Unicode property `White_Space`. -/
def isBlank (c : Char) : Bool :=
  let n := c.toNat
  (0x9 ≤ n && n ≤ 0xD) || n == 0x20 || n == 0x85 || n == 0xA0 || n == 0x1680 ||
    (0x2000 ≤ n && n ≤ 0x200A) || n == 0x2028 || n == 0x2029 || n == 0x202F || n == 0x205F ||
    n == 0x3000

/-- Drops the blanks at both ends. -/
def trimChars (cs : List Char) : List Char :=
  dropTrailing isBlank (cs.dropWhile isBlank)

/-- A text without the blanks at its ends. -/
def trim (s : String) : String :=
  String.ofList (trimChars s.toList)

/-- The maximal runs of non-blank characters. -/
def wordChars (cs : List Char) : List (List Char) :=
  (cs.splitOnP isBlank).filter (!·.isEmpty)

/-- The words of a line, from left to right; none of them is empty. -/
def words (s : String) : List String :=
  (wordChars s.toList).map String.ofList

/-! ## Fields -/

/-- The value of a decimal digit. -/
def digitValue (c : Char) : Nat :=
  c.toNat - '0'.toNat

/-- The number that a run of decimal digits denotes. -/
def numberOfDigits (cs : List Char) : Nat :=
  cs.foldl (fun n c => 10 * n + digitValue c) 0

/-- Counts are words of 64 bits: every count is below this bound. -/
def countBound : Nat := Nat.pow 2 64

/-- Reads a count: an optional plus sign and at least one decimal digit, below the bound. -/
def readCount? (s : String) : Option Nat :=
  let digits := match s.toList with
    | '+' :: rest => rest
    | cs => cs
  if digits.isEmpty || !digits.all Char.isDigit then none
  else
    let n := numberOfDigits digits
    if n < countBound then some n else none

/-- Fills up to `width` characters on the left. -/
def padLeft (fill : Char) (width : Nat) (s : String) : String :=
  String.ofList (List.replicate (width - s.length) fill) ++ s

/-- Fills up to `width` characters with spaces on the right. -/
def padRight (width : Nat) (s : String) : String :=
  s ++ String.ofList (List.replicate (width - s.length) ' ')

/-- A number in decimal with at least `width` digits. -/
def zeroPadded (width n : Nat) : String :=
  padLeft '0' width (toString n)

end VaultShell.Text
