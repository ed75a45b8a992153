import VaultShell.Shell.State
import VaultShell.Shell.CommandLine

/-!
# Texts that are no tokens

A sentinel comes back as a text, so whatever is printed must not be that text by accident.  The
tokens are spelt in capital letters and low lines only.  A text with any other character in it is no
token, whatever else it is put together from; most of what a shell prints is told apart by that, and
not a word of it has to be read.

Some texts are put together from parts that a user chose, with a separator between them.  If the
separator has such a character, then the whole is a token only if it has a single part, the token.

## Main definitions

* `Sentinel.IsToken`: a text that stands for a sentinel
* `Sentinel.Foreign`: a text with a character that is in no token

## Main statements

* `Sentinel.Foreign.not_isToken`: a foreign text is no token
* `Sentinel.intercalate_eq_token_iff`: parts with a foreign separator between them
-/

namespace VaultShell

namespace Sentinel

/-! ## Tokens -/

/-- A text that stands for a sentinel. -/
def IsToken (text : String) : Prop :=
  ∃ sentinel : Sentinel, text = sentinel.token

theorem token_injective {sentinel other : Sentinel} (h : sentinel.token = other.token) :
    sentinel = other := by
  have key := ofToken?_token sentinel
  rw [h, ofToken?_token] at key
  exact (Option.some.inj key).symm

theorem ofToken?_eq_some_iff {text : String} {sentinel : Sentinel} :
    ofToken? text = some sentinel ↔ text = sentinel.token := by
  constructor
  · intro h
    unfold ofToken? at h
    split at h
    case isTrue heq =>
      obtain rfl := Option.some.inj h
      exact heq
    case isFalse =>
      split at h
      case isTrue heq =>
        obtain rfl := Option.some.inj h
        exact heq
      case isFalse => cases h
  · rintro rfl
    exact ofToken?_token sentinel

theorem not_isToken_empty : ¬ IsToken "" := by
  rintro ⟨sentinel, h⟩
  cases sentinel <;> exact absurd h (by decide)

/-! ## Foreign texts -/

/-- The characters that tokens are spelt in, and some more: capital letters and the low line. -/
def isTokenChar (c : Char) : Bool :=
  c.isUpper || c == '_'

/-- A text with a character that is in no token. -/
def Foreign (text : String) : Prop :=
  ∃ c ∈ text.toList, isTokenChar c = false

theorem isTokenChar_of_mem_token {sentinel : Sentinel} {c : Char} (h : c ∈ sentinel.token.toList) :
    isTokenChar c = true := by
  have key : sentinel.token.toList.all isTokenChar = true := by
    cases sentinel <;> decide
  exact List.all_eq_true.1 key c h

/-- **A foreign text is no token.** -/
theorem Foreign.not_isToken {text : String} (h : Foreign text) : ¬ IsToken text := by
  rintro ⟨sentinel, rfl⟩
  obtain ⟨c, hmem, hc⟩ := h
  rw [isTokenChar_of_mem_token hmem] at hc
  cases hc

theorem foreign_append {s t : String} : Foreign (s ++ t) ↔ Foreign s ∨ Foreign t := by
  unfold Foreign
  simp [String.toList_append, or_and_right, exists_or]

instance (text : String) : Decidable (Foreign text) :=
  List.decidableBEx (fun c => isTokenChar c = false) text.toList

theorem Foreign.append {s : String} (h : Foreign s) (t : String) : Foreign (s ++ t) :=
  foreign_append.2 (Or.inl h)

theorem Foreign.prepend {t : String} (h : Foreign t) (s : String) : Foreign (s ++ t) :=
  foreign_append.2 (Or.inr h)

/-- A text in quotes is foreign if one of its characters is. -/
theorem foreign_ofList {cs : List Char} (h : cs.any (!isTokenChar ·) = true) :
    Foreign (String.ofList cs) := by
  simpa [Foreign] using h

/-! ## Parts with separators between them -/

/-- **Parts with a foreign separator between them** make a token only if there is one part, and it is
the token. -/
theorem intercalate_eq_token_iff {separator : String} (h : Foreign separator) {parts : List String}
    {sentinel : Sentinel} :
    separator.intercalate parts = sentinel.token ↔ parts = [sentinel.token] := by
  constructor
  · intro heq
    match parts with
    | [] => exact absurd ⟨sentinel, heq⟩ not_isToken_empty
    | [part] =>
        rw [String.intercalate_singleton] at heq
        rw [heq]
    | first :: second :: rest =>
        have foreign : Foreign (separator.intercalate (first :: second :: rest)) := by
          obtain ⟨c, hmem, hc⟩ := h
          refine ⟨c, ?_, hc⟩
          rw [String.toList_intercalate, List.map_cons, List.map_cons, List.intercalate_cons_cons]
          exact List.mem_append_left _ (List.mem_append_right _ hmem)
        exact absurd ⟨sentinel, heq⟩ foreign.not_isToken
  · rintro rfl
    exact String.intercalate_singleton

theorem foreign_feed : Foreign "\n" := foreign_ofList rfl

/-- Lines make a token only if there is one line, and it is the token. -/
theorem joinLines_eq_token_iff {lines : List String} {sentinel : Sentinel} :
    Text.joinLines lines = sentinel.token ↔ lines = [sentinel.token] :=
  intercalate_eq_token_iff foreign_feed

/-- Lines that are no tokens make no token. -/
theorem not_isToken_joinLines {lines : List String} (h : ∀ line ∈ lines, ¬ IsToken line) :
    ¬ IsToken (Text.joinLines lines) := by
  rintro ⟨sentinel, heq⟩
  rw [joinLines_eq_token_iff] at heq
  refine h sentinel.token ?_ ⟨sentinel, rfl⟩
  rw [heq]
  exact List.mem_singleton_self _

end Sentinel

/-- What the vault refuses is reported with a colon. -/
theorem Failure.foreign_fault (context : String) (cause : Fault) :
    Sentinel.Foreign (message (.fault context cause)) :=
  ((Sentinel.foreign_ofList rfl).prepend context).append cause.message

end VaultShell
