import Mathlib.Data.List.DropRight
import VaultShell.Text.Basic

/-!
# Trimmed lines and their words

A line is trimmed more than once on its way: where it is read, where it is told from chat, and where
it is taken apart.  Only the first time matters.  Of the words that are left, what is needed is that
no blank is among their characters; every file name that a line can make comes from them.

## Main statements

* `trim_trim`: a trimmed text is its own trimmed form
* `blankless_of_mem_words`: no blank stands in a word
-/

namespace VaultShell.Text

/-! ## Trimming -/

theorem dropTrailing_eq_rdropWhile (p : Char → Bool) (cs : List Char) :
    dropTrailing p cs = cs.rdropWhile p := rfl

/-- Nothing is left to drop in front once the blanks in front and those at the end are gone. -/
theorem dropWhile_trimChars (cs : List Char) :
    (trimChars cs).dropWhile isBlank = trimChars cs := by
  unfold trimChars
  rw [dropTrailing_eq_rdropWhile]
  obtain ⟨ending, hsplit⟩ := List.rdropWhile_prefix isBlank (cs.dropWhile isBlank)
  cases hleft : (cs.dropWhile isBlank).rdropWhile isBlank with
  | nil => rfl
  | cons c rest =>
      -- The first character left is the first one that was not dropped in front.
      rw [hleft, List.cons_append] at hsplit
      have hnot := List.head?_dropWhile_not isBlank cs
      rw [← hsplit] at hnot
      exact List.dropWhile_cons_of_neg (by simpa using hnot)

theorem trimChars_trimChars (cs : List Char) : trimChars (trimChars cs) = trimChars cs := by
  have houter : trimChars (trimChars cs) =
      dropTrailing isBlank ((trimChars cs).dropWhile isBlank) := rfl
  rw [houter, dropWhile_trimChars]
  exact List.rdropWhile_idempotent isBlank (cs.dropWhile isBlank)

/-- **A trimmed text is its own trimmed form.** -/
@[simp] theorem trim_trim (s : String) : trim (trim s) = trim s := by
  rw [trim, trim, String.toList_ofList, trimChars_trimChars]

/-! ## Words -/

/-- A text in which no blank stands. -/
def Blankless (s : String) : Prop :=
  ∀ c ∈ s.toList, isBlank c = false

instance (s : String) : Decidable (Blankless s) :=
  List.decidableBAll (fun c => isBlank c = false) s.toList

theorem blankless_append {s t : String} : Blankless (s ++ t) ↔ Blankless s ∧ Blankless t := by
  unfold Blankless
  rw [String.toList_append, List.forall_mem_append]

/-- **No blank stands in a word.** -/
theorem blankless_of_mem_words {s word : String} (h : word ∈ words s) : Blankless word := by
  obtain ⟨piece, hpiece, rfl⟩ := List.mem_map.1 h
  unfold Blankless
  rw [String.toList_ofList]
  exact not_of_mem_splitOnP (List.mem_filter.1 hpiece).1

/-- No word is empty. -/
theorem ne_empty_of_mem_words {s word : String} (h : word ∈ words s) : word ≠ "" := by
  obtain ⟨piece, hpiece, rfl⟩ := List.mem_map.1 h
  have something := (List.mem_filter.1 hpiece).2
  intro empty
  have nothing := congrArg String.toList empty
  rw [String.toList_ofList] at nothing
  simp [nothing] at something

/-- The characters of a piece between separators are characters of the whole. -/
theorem mem_of_mem_splitOnP {p : Char → Bool} {cs piece : List Char} {c : Char}
    (hpiece : piece ∈ cs.splitOnP p) (hc : c ∈ piece) : c ∈ cs := by
  induction cs generalizing piece with
  | nil =>
      rw [List.splitOnP_nil, List.mem_singleton] at hpiece
      simp [hpiece] at hc
  | cons d rest ih =>
      rw [List.splitOnP_cons_eq_if_modifyHead] at hpiece
      split at hpiece
      · rcases List.mem_cons.1 hpiece with rfl | hpiece
        · cases hc
        · exact List.mem_cons_of_mem d (ih hpiece hc)
      · cases hpieces : rest.splitOnP p with
        | nil => exact absurd hpieces (List.splitOnP_ne_nil p rest)
        | cons first others =>
            rw [hpieces, List.modifyHead_cons] at hpiece
            rcases List.mem_cons.1 hpiece with rfl | hpiece
            · rcases List.mem_cons.1 hc with rfl | hc
              · exact List.mem_cons_self
              · exact List.mem_cons_of_mem d (ih (hpieces ▸ List.mem_cons_self) hc)
            · exact List.mem_cons_of_mem d (ih (hpieces ▸ List.mem_cons_of_mem first hpiece) hc)

end VaultShell.Text
