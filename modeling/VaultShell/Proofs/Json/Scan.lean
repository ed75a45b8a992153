import Mathlib.Data.List.Forall2
import Mathlib.Data.List.TakeWhile
import VaultShell.Json.Value

/-!
# What is written is scanned back

The text of a value is scanned into the tokens that the value is made of.  A scan does not know what a
writer meant: a number and a word have no end mark, so they are read back only because no written text
has another number or word right behind them; and a character that was named by its number comes back
as a unit of 16 bits, which is a character of its own only because no written unit is half of a pair.

## Main definitions

* `Number.IsWord`: the numbers that are written and read without loss
* `Value.numbers`: all numbers of a value
* `Value.tokens`: the tokens that a value is made of

## Main statements

* `Number.ofSpelling?_writeNumber`: numbers
* `Token.scan_writeString`: strings, with every character they may hold
* `Value.ofText?_write`: values
-/

namespace VaultShell.Json

/-! ## Numbers -/

namespace Number

/-- The number is an integer that a word of 64 bits holds, signed or not, or zero with a minus sign. -/
def IsWord : Number → Prop
  | .integer value => -(Nat.pow 2 63 : Nat) ≤ value ∧ value < (Nat.pow 2 64 : Nat)
  | .decimal spelling => spelling = "-0.0"

instance : DecidablePred IsWord
  | .integer value =>
    inferInstanceAs (Decidable (-(Nat.pow 2 63 : Nat) ≤ value ∧ value < (Nat.pow 2 64 : Nat)))
  | .decimal spelling => inferInstanceAs (Decidable (spelling = "-0.0"))

theorem numberOfDigits_toDigits (n : Nat) : Text.numberOfDigits (Nat.toDigits 10 n) = n := by
  have value := Nat.ofDigitChars_ten_toDigits (n := n)
  rw [Nat.ofDigitChars_eq_foldl] at value
  exact value

/-- Only zero is written with a zero in front. -/
theorem head?_toDigits {n : Nat} (positive : 0 < n) :
    ∃ c, (Nat.toDigits 10 n).head? = some c ∧ c ≠ '0' := by
  induction n using Nat.strong_induction_on with
  | _ n ih =>
      by_cases small : n < 10
      · refine ⟨n.digitChar, by rw [Nat.toDigits_of_lt_base small]; rfl, ?_⟩
        rw [Ne, Nat.digitChar_eq_zero]
        omega
      · obtain ⟨c, hhead, hne⟩ := ih (n / 10) (by omega) (by omega)
        refine ⟨c, ?_, hne⟩
        rw [Nat.toDigits_of_base_le (by omega) (by omega), List.head?_append, hhead]
        rfl

theorem isWhole_toDigits (n : Nat) : isWhole (Nat.toDigits 10 n) = true := by
  rcases Nat.eq_zero_or_pos n with rfl | positive
  · decide
  · obtain ⟨c, hhead, hne⟩ := head?_toDigits positive
    obtain ⟨rest, hrest⟩ : ∃ rest, Nat.toDigits 10 n = c :: rest := by
      cases hdigits : Nat.toDigits 10 n with
      | nil => simp [hdigits] at hhead
      | cons d ds =>
          rw [hdigits] at hhead
          obtain rfl := Option.some.inj hhead
          exact ⟨ds, rfl⟩
    rw [hrest, isWhole.eq_def]
    split
    · contradiction
    · rfl
    case h_3 heq =>
      obtain ⟨rfl, -⟩ := List.cons.inj heq
      simpa using hne

theorem splitDigits_toDigits (n : Nat) :
    splitDigits (Nat.toDigits 10 n) = (Nat.toDigits 10 n, []) := by
  have digits : ∀ c ∈ Nat.toDigits 10 n, c.isDigit = true := fun c hc =>
    Nat.isDigit_of_mem_toDigits (by omega) (by omega) hc
  unfold splitDigits
  rw [List.takeWhile_eq_self_iff.2 digits, List.dropWhile_eq_nil_iff.2 digits]

theorem splitSign_toDigits (n : Nat) :
    splitSign (Nat.toDigits 10 n) = (false, Nat.toDigits 10 n) := by
  unfold splitSign
  split
  case h_1 rest hdigits =>
    have digit := Nat.isDigit_of_mem_toDigits (b := 10) (n := n) (c := '-') (by omega) (by omega)
      (by rw [hdigits]; exact List.mem_cons_self)
    exact absurd digit (by decide)
  case h_2 => rfl

/-- The two forms in which an integer is written: digits, and digits behind a minus sign. -/
theorem writeNumber_cases {value : Int} (low : -(Nat.pow 2 63 : Nat) ≤ value)
    (high : value < (Nat.pow 2 64 : Nat)) :
    ∃ n, (Value.writeNumber (.integer value) = Nat.toDigits 10 n ∧
        ofMagnitude? false n = some (.integer value)) ∨
      (Value.writeNumber (.integer value) = '-' :: Nat.toDigits 10 n ∧
        ofMagnitude? true n = some (.integer value)) := by
  cases value with
  | ofNat n =>
      refine ⟨n, Or.inl ⟨Nat.toList_repr, ?_⟩⟩
      simp only [ofMagnitude?, Bool.false_eq_true, if_false, if_pos (Int.ofNat_lt.1 high)]
      rfl
  | negSucc n =>
      have bound : n + 1 ≤ Nat.pow 2 63 := Int.ofNat_le.1 (Int.neg_le_neg_iff.1 low)
      refine ⟨n + 1, Or.inr ⟨?_, ?_⟩⟩
      · show ("-" ++ (n + 1).repr).toList = _
        rw [String.toList_append, Nat.toList_repr]
        rfl
      · simp only [ofMagnitude?, if_true, if_neg (Nat.succ_ne_zero n), if_pos bound]
        rfl

/-- What is read from the digits of a number behind a sign. -/
theorem ofSpelling?_of_splitSign {cs : List Char} {negative : Bool} {n : Nat} {number : Number}
    (sign : splitSign cs = (negative, Nat.toDigits 10 n))
    (value : ofMagnitude? negative n = some number) : ofSpelling? cs = some number := by
  simp only [ofSpelling?, sign, splitDigits_toDigits, isWhole_toDigits, numberOfDigits_toDigits]
  simp [isTail, afterFraction?, value]

/-- **A number is read back from its spelling.** -/
theorem ofSpelling?_writeNumber {number : Number} (word : number.IsWord) :
    ofSpelling? (Value.writeNumber number) = some number := by
  cases number with
  | decimal spelling =>
      subst word
      decide +kernel
  | integer value =>
      obtain ⟨n, ⟨spelled, read⟩ | ⟨spelled, read⟩⟩ := writeNumber_cases word.1 word.2
      · rw [spelled]
        exact ofSpelling?_of_splitSign (splitSign_toDigits n) read
      · have sign : splitSign ('-' :: Nat.toDigits 10 n) = (true, Nat.toDigits 10 n) := rfl
        rw [spelled]
        exact ofSpelling?_of_splitSign sign read

theorem isNumberChar_of_mem_writeNumber {number : Number} (word : number.IsWord) {c : Char}
    (h : c ∈ Value.writeNumber number) : Token.isNumberChar c = true := by
  have digit : ∀ {n}, c ∈ Nat.toDigits 10 n → Token.isNumberChar c = true := by
    intro n hc
    simp [Token.isNumberChar, Nat.isDigit_of_mem_toDigits (by omega) (by omega) hc]
  cases number with
  | decimal spelling =>
      subst word
      have each : (Value.writeNumber (.decimal "-0.0")).all Token.isNumberChar = true := by
        decide +kernel
      exact List.all_eq_true.1 each c h
  | integer value =>
      obtain ⟨n, ⟨spelled, -⟩ | ⟨spelled, -⟩⟩ := writeNumber_cases word.1 word.2
      · rw [spelled] at h
        exact digit h
      · rw [spelled] at h
        rcases List.mem_cons.1 h with rfl | hc
        · rfl
        · exact digit hc

end Number

/-! ## Strings -/

namespace Token

/-- The three ways in which a character is written. -/
theorem escapeChar_cases (c : Char) :
    (∃ letter, Value.escapeChar c = ['\\', letter] ∧ letter ≠ 'u' ∧ ofEscape? letter = some c) ∨
      (Value.escapeChar c = ['\\', 'u', '0', '0', Value.hexDigit (c.toNat / 16),
        Value.hexDigit (c.toNat % 16)] ∧ c.toNat < 0x20) ∨
      (Value.escapeChar c = [c] ∧ c ≠ '"' ∧ c ≠ '\\' ∧ ¬ c.toNat < 0x20) := by
  rcases eq_or_ne c '"' with rfl | noQuote
  · exact Or.inl ⟨'"', rfl, by decide, rfl⟩
  rcases eq_or_ne c '\\' with rfl | noBackslash
  · exact Or.inl ⟨'\\', rfl, by decide, rfl⟩
  rcases eq_or_ne c '\x08' with rfl | noBackspace
  · exact Or.inl ⟨'b', rfl, by decide, rfl⟩
  rcases eq_or_ne c '\x0c' with rfl | noFormFeed
  · exact Or.inl ⟨'f', rfl, by decide, rfl⟩
  rcases eq_or_ne c '\n' with rfl | noNewline
  · exact Or.inl ⟨'n', rfl, by decide, rfl⟩
  rcases eq_or_ne c '\r' with rfl | noReturn
  · exact Or.inl ⟨'r', rfl, by decide, rfl⟩
  rcases eq_or_ne c '\t' with rfl | noTab
  · exact Or.inl ⟨'t', rfl, by decide, rfl⟩
  unfold Value.escapeChar
  rw [if_neg noQuote, if_neg noBackslash, if_neg noBackspace, if_neg noFormFeed, if_neg noNewline,
    if_neg noReturn, if_neg noTab]
  by_cases control : c.toNat < 0x20
  · rw [if_pos control]
    exact Or.inr (Or.inl ⟨rfl, control⟩)
  · rw [if_neg control]
    exact Or.inr (Or.inr ⟨rfl, noQuote, noBackslash, control⟩)

/-- A piece of a string that stands for a character: the character, or the unit of a control
character. -/
inductive Piece.StandsFor : Piece → Char → Prop where
  | char (c : Char) : StandsFor (.char c) c
  | control (c : Char) (control : c.toNat < 0x20) : StandsFor (.unit c.toNat) c

/-- A unit that is no half of a pair is a character, whatever comes after it. -/
theorem charsOfPieces?_unit {unit : Nat} (high : isHighHalf unit = false)
    (low : isLowHalf unit = false) (pieces : List Piece) :
    charsOfPieces? (.unit unit :: pieces) =
      (charsOfPieces? pieces).map (Char.ofNat unit :: ·) := by
  cases pieces with
  | nil => simp [charsOfPieces?, high, low]
  | cons piece rest => cases piece <;> simp [charsOfPieces?, high, low]

theorem charsOfPieces?_of_standsFor {pieces : List Piece} {cs : List Char}
    (h : List.Forall₂ Piece.StandsFor pieces cs) : charsOfPieces? pieces = some cs := by
  induction h with
  | nil => rfl
  | @cons piece c pieces cs stands others ih =>
      cases stands with
      | char => simp [charsOfPieces?, ih]
      | control control =>
          have high : isHighHalf c.toNat = false := by simp [isHighHalf]; omega
          have low : isLowHalf c.toNat = false := by simp [isLowHalf]; omega
          rw [charsOfPieces?_unit high low, ih, Option.map_some, Char.ofNat_toNat]

/-! ## Scanning -/

theorem scan_cons (mode : Mode) (c : Char) (rest : List Char) :
    scan mode (c :: rest) =
      (step mode c).bind fun next => (scan next.2 rest).map (next.1 ++ ·) := by
  rw [scan]
  cases step mode c with
  | none => rfl
  | some next =>
      obtain ⟨tokens, mode⟩ := next
      cases others : scan mode rest <;> simp [others]

/-- A character in the middle of a token completes none. -/
theorem scan_of_step {mode next : Mode} {c : Char} (h : step mode c = some ([], next))
    (rest : List Char) : scan mode (c :: rest) = scan next rest := by
  rw [scan_cons, h, Option.bind_some]
  simp

/-- A character that is a token. -/
theorem scan_mark {c : Char} {token : Token} (h : start c = some ([token], .between))
    (rest : List Char) :
    scan .between (c :: rest) = (scan .between rest).map (token :: ·) := by
  rw [scan_cons, step, h]
  rfl

theorem hexValue?_hexDigit {n : Nat} (h : n < 16) : hexValue? (Value.hexDigit n) = some n := by
  revert n
  decide

/-- However a character is written, it is scanned to a piece that stands for it. -/
theorem exists_scan_escapeChar (c : Char) :
    ∃ piece, Piece.StandsFor piece c ∧ ∀ reversed rest,
      scan (.string reversed) (Value.escapeChar c ++ rest) =
        scan (.string (piece :: reversed)) rest := by
  rcases escapeChar_cases c with
    ⟨letter, written, other, read⟩ | ⟨written, control⟩ | ⟨written, noQuote, noBackslash, plain⟩
  · refine ⟨.char c, .char c, fun reversed rest => ?_⟩
    have first : step (.string reversed) '\\' = some ([], .escape reversed) := rfl
    have second : step (.escape reversed) letter = some ([], .string (.char c :: reversed)) := by
      simp [step, other, read]
    rw [written, List.cons_append, scan_of_step first, List.cons_append, scan_of_step second,
      List.nil_append]
  · refine ⟨.unit c.toNat, .control c control, fun reversed rest => ?_⟩
    have high := hexValue?_hexDigit (n := c.toNat / 16) (by omega)
    have low := hexValue?_hexDigit (n := c.toNat % 16) (by omega)
    have value : 16 * (c.toNat / 16) + c.toNat % 16 = c.toNat := Nat.div_add_mod _ _
    have first : step (.string reversed) '\\' = some ([], .escape reversed) := rfl
    have second : step (.escape reversed) 'u' = some ([], .hex 4 0 reversed) := rfl
    have third : step (.hex 4 0 reversed) '0' = some ([], .hex 3 0 reversed) := rfl
    have fourth : step (.hex 3 0 reversed) '0' = some ([], .hex 2 0 reversed) := rfl
    have fifth : step (.hex 2 0 reversed) (Value.hexDigit (c.toNat / 16)) =
        some ([], .hex 1 (c.toNat / 16) reversed) := by
      simp [step, high]
    have last : step (.hex 1 (c.toNat / 16) reversed) (Value.hexDigit (c.toNat % 16)) =
        some ([], .string (.unit c.toNat :: reversed)) := by
      simp [step, low, value]
    rw [written]
    simp only [List.cons_append, List.nil_append]
    rw [scan_of_step first, scan_of_step second, scan_of_step third, scan_of_step fourth,
      scan_of_step fifth, scan_of_step last]
  · refine ⟨.char c, .char c, fun reversed rest => ?_⟩
    have only : step (.string reversed) c = some ([], .string (.char c :: reversed)) := by
      simp [step, noQuote, noBackslash, plain]
    rw [written, List.cons_append, scan_of_step only, List.nil_append]

theorem exists_scan_flatMap_escapeChar (cs : List Char) :
    ∃ pieces, List.Forall₂ Piece.StandsFor pieces cs ∧ ∀ reversed rest,
      scan (.string reversed) (cs.flatMap Value.escapeChar ++ rest) =
        scan (.string (pieces.reverse ++ reversed)) rest := by
  induction cs with
  | nil => exact ⟨[], .nil, fun reversed rest => rfl⟩
  | cons c cs ih =>
      obtain ⟨piece, stands, scanned⟩ := exists_scan_escapeChar c
      obtain ⟨pieces, others, scannedOthers⟩ := ih
      refine ⟨piece :: pieces, .cons stands others, fun reversed rest => ?_⟩
      rw [List.flatMap_cons, List.append_assoc, scanned, scannedOthers, List.reverse_cons,
        List.append_assoc]
      rfl

/-- **A string is scanned back**, whatever characters it holds. -/
theorem scan_writeString (s : String) (rest : List Char) :
    scan .between (Value.writeString s ++ rest) =
      (scan .between rest).map (.string (some s) :: ·) := by
  obtain ⟨pieces, stand, scanned⟩ := exists_scan_flatMap_escapeChar s.toList
  have opened : step .between '"' = some ([], .string []) := rfl
  have closed : step (.string (pieces.reverse ++ [])) '"' = some ([.string (some s)], .between) := by
    simp [step, ofReversedPieces, charsOfPieces?_of_standsFor stand]
  unfold Value.writeString
  rw [List.cons_append, List.cons_append, scan_of_step opened, List.append_assoc, scanned,
    List.cons_append, scan_cons, closed]
  rfl

/-- What may stand behind a number or a word: the end of the text, or a character that goes on with
neither. -/
def Follows (rest : List Char) : Prop :=
  ∀ c ∈ rest.head?, isWordChar c = false ∧ isNumberChar c = false

/-- A run of characters of which each goes on with the token that the one before belongs to. -/
theorem scan_run {mode : List Char → Mode} {goesOn : Char → Bool}
    (on : ∀ reversed c, goesOn c = true → step (mode reversed) c = some ([], mode (c :: reversed)))
    {cs : List Char} (h : ∀ c ∈ cs, goesOn c = true) (reversed rest : List Char) :
    scan (mode reversed) (cs ++ rest) = scan (mode (cs.reverse ++ reversed)) rest := by
  induction cs generalizing reversed with
  | nil => rfl
  | cons c cs ih =>
      rw [List.cons_append, scan_of_step (on reversed c (h c List.mem_cons_self)),
        ih fun d hd => h d (List.mem_cons_of_mem c hd), List.reverse_cons, List.append_assoc]
      rfl

/-- A token without an end mark ends where the text does, or where it cannot go on. -/
theorem scan_end {mode : Mode} {token : Token} (finished : finish mode = some [token])
    (ended : ∀ c, isWordChar c = false → isNumberChar c = false →
      step mode c = (start c).map fun next => (token :: next.1, next.2))
    {rest : List Char} (follows : Follows rest) :
    scan mode rest = (scan .between rest).map (token :: ·) := by
  cases rest with
  | nil =>
      rw [scan, finished]
      rfl
  | cons c rest =>
      obtain ⟨noWord, noNumber⟩ := follows c rfl
      rw [scan_cons, scan_cons, ended c noWord noNumber, step]
      cases begun : start c with
      | none => rfl
      | some next => simp [Function.comp_def]

/-- **A word is scanned back.** -/
theorem scan_word {c : Char} {cs rest : List Char} {token : Token} (follows : Follows rest)
    (begun : start c = some ([], .word [c])) (letters : cs.all isWordChar = true)
    (spelled : ofWord? (c :: cs) = some token) :
    scan .between (c :: cs ++ rest) = (scan .between rest).map (token :: ·) := by
  have on : ∀ reversed d, isWordChar d = true →
      step (.word reversed) d = some ([], .word (d :: reversed)) := by
    intro reversed d letter
    simp [step, letter]
  have read : (cs.reverse ++ [c]).reverse = c :: cs := by simp
  have first : step .between c = some ([], .word [c]) := begun
  rw [List.cons_append, scan_of_step first, scan_run on (List.all_eq_true.1 letters)]
  refine scan_end ?_ ?_ follows
  · simp [finish, spelled]
  · intro d noWord _
    simp only [step, noWord, read, spelled]
    cases start d <;> rfl

/-- A digit begins a number. -/
theorem start_of_isDigit {c : Char} (digit : c.isDigit = true) : start c = some ([], .number [c]) := by
  have code : c = Char.ofNat c.toNat := (Char.ofNat_toNat c).symm
  have digits : ∀ n < 58, 48 ≤ n → start (Char.ofNat n) = some ([], .number [Char.ofNat n]) := by
    decide
  have range : 48 ≤ c.toNat ∧ c.toNat ≤ 57 := by
    simpa [Char.isDigit, UInt32.le_iff_toNat_le] using digit
  rw [code]
  exact digits _ (by omega) range.1

theorem exists_start_writeNumber {number : Number} (word : number.IsWord) :
    ∃ c cs, Value.writeNumber number = c :: cs ∧ start c = some ([], .number [c]) := by
  cases number with
  | decimal spelling =>
      subst word
      exact ⟨'-', ['0', '.', '0'], by decide +kernel, rfl⟩
  | integer value =>
      obtain ⟨n, ⟨spelled, -⟩ | ⟨spelled, -⟩⟩ := Number.writeNumber_cases word.1 word.2
      · obtain ⟨c, cs, hdigits⟩ := List.exists_cons_of_ne_nil (Nat.toDigits_ne_nil (b := 10) (n := n))
        refine ⟨c, cs, spelled.trans hdigits, start_of_isDigit ?_⟩
        exact Nat.isDigit_of_mem_toDigits (b := 10) (n := n) (by omega) (by omega)
          (by rw [hdigits]; exact List.mem_cons_self)
      · exact ⟨'-', _, spelled, rfl⟩

/-- **A number is scanned back** if it ends where its spelling does. -/
theorem scan_writeNumber {number : Number} (word : number.IsWord) {rest : List Char}
    (follows : Follows rest) :
    scan .between (Value.writeNumber number ++ rest) =
      (scan .between rest).map (.number number :: ·) := by
  obtain ⟨c, cs, written, begun⟩ := exists_start_writeNumber word
  have numberChars : ∀ d ∈ cs, isNumberChar d = true := fun d hd =>
    Number.isNumberChar_of_mem_writeNumber word (written ▸ List.mem_cons_of_mem c hd)
  have on : ∀ reversed d, isNumberChar d = true →
      step (.number reversed) d = some ([], .number (d :: reversed)) := by
    intro reversed d numberChar
    simp [step, numberChar]
  have spelled : Number.ofSpelling? (cs.reverse ++ [c]).reverse = some number := by
    rw [← Number.ofSpelling?_writeNumber word, written]
    simp
  have first : step .between c = some ([], .number [c]) := begun
  rw [written, List.cons_append, scan_of_step first, scan_run on numberChars]
  refine scan_end ?_ ?_ follows
  · simp only [finish, spelled, Option.map_some]
  · intro d _ noNumber
    simp only [step, noNumber, spelled]
    cases start d <;> rfl

theorem follows_cons {c : Char} (h : isWordChar c = false ∧ isNumberChar c = false)
    (rest : List Char) : Follows (c :: rest) := by
  rintro d ⟨⟩
  exact h

end Token

/-! ## Values -/

namespace Value

mutual

/-- All numbers of a value. -/
def numbers : Value → List Number
  | .null => []
  | .boolean _ => []
  | .number n => [n]
  | .string _ => []
  | .array items => numbersOfItems items
  | .object members => numbersOfMembers members

/-- All numbers of some items. -/
def numbersOfItems : List Value → List Number
  | [] => []
  | value :: rest => numbers value ++ numbersOfItems rest

/-- All numbers of some members. -/
def numbersOfMembers : List (String × Value) → List Number
  | [] => []
  | (_, value) :: rest => numbers value ++ numbersOfMembers rest

end

mutual

/-- The tokens that a value is made of. -/
def tokens : Value → List Token
  | .null => [.null]
  | .boolean b => [.boolean b]
  | .number n => [.number n]
  | .string s => [.string (some s)]
  | .array [] => [.openArray, .closeArray]
  | .array (value :: rest) => .openArray :: tokens value ++ tokensOfItems rest
  | .object [] => [.openObject, .closeObject]
  | .object ((key, value) :: rest) =>
    .openObject :: .string (some key) :: .colon :: tokens value ++ tokensOfMembers rest

/-- The tokens of the items after the first one, and of the end of their array. -/
def tokensOfItems : List Value → List Token
  | [] => [.closeArray]
  | value :: rest => .comma :: tokens value ++ tokensOfItems rest

/-- The tokens of the members after the first one, and of the end of their object. -/
def tokensOfMembers : List (String × Value) → List Token
  | [] => [.closeObject]
  | (key, value) :: rest =>
    .comma :: .string (some key) :: .colon :: tokens value ++ tokensOfMembers rest

end

/-- A character goes on with no number and no word that stands before the items after the first one. -/
theorem follows_writeItems (items : List Value) (rest : List Char) :
    Token.Follows (writeItems items ++ rest) := by
  cases items <;> exact Token.follows_cons (by decide) _

theorem follows_writeMembers (members : List (String × Value)) (rest : List Char) :
    Token.Follows (writeMembers members ++ rest) := by
  cases members <;> exact Token.follows_cons (by decide) _

mutual

/-- **A value is scanned back.** -/
theorem scan_writeChars : ∀ (value : Value), (∀ n ∈ value.numbers, n.IsWord) → ∀ {rest : List Char},
    Token.Follows rest →
    Token.scan .between (writeChars value ++ rest) =
      (Token.scan .between rest).map (value.tokens ++ ·)
  | .null, _, rest, follows => Token.scan_word follows rfl (by decide) (by decide)
  | .boolean true, _, rest, follows => Token.scan_word follows rfl (by decide) (by decide)
  | .boolean false, _, rest, follows => Token.scan_word follows rfl (by decide) (by decide)
  | .number n, words, rest, follows =>
      Token.scan_writeNumber (words n (List.mem_singleton_self n)) follows
  | .string s, _, rest, _ => Token.scan_writeString s rest
  | .array [], _, rest, _ => by
      rw [writeChars, tokens, List.cons_append, List.cons_append, Token.scan_mark rfl,
        List.nil_append, Token.scan_mark rfl, Option.map_map]
      rfl
  | .array (value :: items), words, rest, _ => by
      obtain ⟨first, others⟩ := List.forall_mem_append.1 words
      rw [writeChars, List.cons_append, List.cons_append, Token.scan_mark rfl, List.append_assoc,
        scan_writeChars value first (follows_writeItems items rest), scan_writeItems items others]
      simp [tokens, Function.comp_def]
  | .object [], _, rest, _ => by
      rw [writeChars, tokens, List.cons_append, List.cons_append, Token.scan_mark rfl,
        List.nil_append, Token.scan_mark rfl, Option.map_map]
      rfl
  | .object ((key, value) :: members), words, rest, _ => by
      obtain ⟨first, others⟩ := List.forall_mem_append.1 words
      simp only [writeChars, List.cons_append, List.append_assoc]
      rw [Token.scan_mark rfl, Token.scan_writeString, Token.scan_mark rfl,
        scan_writeChars value first (follows_writeMembers members rest),
        scan_writeMembers members others]
      simp [tokens, Function.comp_def]

theorem scan_writeItems : ∀ (items : List Value), (∀ n ∈ numbersOfItems items, n.IsWord) →
    ∀ (rest : List Char),
    Token.scan .between (writeItems items ++ rest) =
      (Token.scan .between rest).map (tokensOfItems items ++ ·)
  | [], _, rest => Token.scan_mark rfl rest
  | value :: items, words, rest => by
      obtain ⟨first, others⟩ := List.forall_mem_append.1 words
      rw [writeItems, List.cons_append, List.cons_append, Token.scan_mark rfl, List.append_assoc,
        scan_writeChars value first (follows_writeItems items rest), scan_writeItems items others]
      simp [tokensOfItems, Function.comp_def]

theorem scan_writeMembers : ∀ (members : List (String × Value)),
    (∀ n ∈ numbersOfMembers members, n.IsWord) → ∀ (rest : List Char),
    Token.scan .between (writeMembers members ++ rest) =
      (Token.scan .between rest).map (tokensOfMembers members ++ ·)
  | [], _, rest => Token.scan_mark rfl rest
  | (key, value) :: members, words, rest => by
      obtain ⟨first, others⟩ := List.forall_mem_append.1 words
      simp only [writeMembers, List.cons_append, List.append_assoc]
      rw [Token.scan_mark rfl, Token.scan_writeString, Token.scan_mark rfl,
        scan_writeChars value first (follows_writeMembers members rest),
        scan_writeMembers members others]
      simp [tokensOfMembers, Function.comp_def]

end

/-- **The text of a value is made of its tokens.** -/
theorem ofText?_write {value : Value} (words : ∀ n ∈ value.numbers, n.IsWord) :
    Token.ofText? value.write = some value.tokens := by
  have atEnd : Token.Follows [] := by
    rintro c ⟨⟩
  have scanned := scan_writeChars value words atEnd
  rw [List.append_nil] at scanned
  rw [Token.ofText?, write, String.toList_ofList, scanned]
  simp [Token.scan, Token.finish]

end Value

end VaultShell.Json
