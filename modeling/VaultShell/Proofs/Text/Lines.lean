import Mathlib.Data.List.TakeWhile
import VaultShell.Proofs.Text.Words
import VaultShell.Text.Lines

/-!
# Lines and their text

The text of some lines is read back as the lines, if they are lines at all: no line feed stands in
one, and none ends with a carriage return, which would be taken for a part of its end.

## Main statements

* `lines_unlines`: the lines of the text of some lines
* `mem_dropFinalFeeds`: only line feeds are dropped at the end of a text
* `unlines_eq_joinLines_append`: joined lines, and the text of lines
* `joinLines_flatten`: lines joined in groups
-/

namespace VaultShell.Text

/-- What may be a line of a text that is read line by line. -/
structure IsLine (line : String) : Prop where
  no_feed : '\n' ∉ line.toList
  no_return : line.toList.getLast? ≠ some '\r'

/-- The two characters of which the end of a line is made. -/
def endsLine (c : Char) : Bool :=
  c == '\n' || c == '\r'

/-- A text in which nothing ends a line. -/
def Unbroken (s : String) : Prop :=
  ∀ c ∈ s.toList, endsLine c = false

theorem unbroken_append {s t : String} : Unbroken (s ++ t) ↔ Unbroken s ∧ Unbroken t := by
  unfold Unbroken
  rw [String.toList_append, List.forall_mem_append]

/-- A text in quotes is read off its characters. -/
theorem unbroken_ofList {cs : List Char} (h : cs.any endsLine = false) :
    Unbroken (String.ofList cs) := by
  unfold Unbroken
  rw [String.toList_ofList]
  simpa using h

/-- Both characters that end a line are blanks. -/
theorem Blankless.unbroken {s : String} (h : Blankless s) : Unbroken s := by
  intro c hc
  have hblank := h c hc
  rw [← Bool.not_eq_true, endsLine, Bool.or_eq_true, beq_iff_eq, beq_iff_eq]
  rintro (rfl | rfl)
  · exact absurd hblank (by decide)
  · exact absurd hblank (by decide)

theorem Unbroken.isLine {s : String} (h : Unbroken s) : IsLine s where
  no_feed hmem := absurd (h _ hmem) (by decide)
  no_return hlast := absurd (h _ (List.mem_of_getLast? hlast)) (by decide)

/-- The open line goes on to the next line feed. -/
theorem scanLines_append {reversed cs : List Char} (h : '\n' ∉ cs) (rest : List Char) :
    scanLines reversed (cs ++ '\n' :: rest) =
      closeLine (cs.reverse ++ reversed) :: scanLines [] rest := by
  induction cs generalizing reversed with
  | nil => simp [scanLines]
  | cons c cs ih =>
      rw [List.mem_cons, not_or] at h
      rw [List.cons_append, scanLines, if_neg (Ne.symm h.1), ih h.2, List.reverse_cons,
        List.append_assoc]
      rfl

theorem closeLine_reverse {cs : List Char} (h : cs.getLast? ≠ some '\r') :
    closeLine cs.reverse = cs := by
  rw [← List.head?_reverse] at h
  unfold closeLine
  split
  case h_1 reversed heq =>
    rw [heq] at h
    exact absurd rfl h
  case h_2 => exact List.reverse_reverse cs

/-- **The lines of the text of some lines are the lines.** -/
theorem lines_unlines {ls : List String} (h : ∀ line ∈ ls, IsLine line) : lines (unlines ls) = ls := by
  induction ls with
  | nil => rfl
  | cons line rest ih =>
      have hline := h line List.mem_cons_self
      have hrest := ih fun l hl => h l (List.mem_cons_of_mem line hl)
      have htext : (unlines (line :: rest)).toList =
          line.toList ++ '\n' :: (unlines rest).toList := by
        simp [unlines, String.toList_append]
      -- The scan starts over behind the first line feed, so the rest is read as if it stood alone.
      unfold lines at hrest ⊢
      rw [htext, scanLines_append hline.no_feed, List.append_nil, closeLine_reverse hline.no_return,
        List.map_cons, hrest, String.ofList_toList]

/-- **Only line feeds are dropped at the end of a text.** -/
theorem mem_dropFinalFeeds {s : String} {c : Char} (h : c ∈ s.toList) (hne : c ≠ '\n') :
    c ∈ (dropFinalFeeds s).toList := by
  unfold dropFinalFeeds
  rw [String.toList_ofList, dropTrailing, List.mem_reverse]
  rw [← List.mem_reverse, ← List.takeWhile_append_dropWhile (p := (· = '\n')) (l := s.toList.reverse),
    List.mem_append] at h
  rcases h with dropped | kept
  · have feed := List.mem_takeWhile_imp dropped
    exact absurd (by simpa using feed) hne
  · exact kept

/-- A line feed that is the only one at the end is dropped and nothing else. -/
theorem dropFinalFeeds_append_feed {s : String} (h : s.toList.getLast? ≠ some '\n') :
    dropFinalFeeds (s ++ "\n") = s := by
  have kept : dropTrailing (· = '\n') s.toList = s.toList := by
    rw [dropTrailing_eq_rdropWhile, List.rdropWhile_eq_self_iff]
    intro something feed
    rw [List.getLast?_eq_some_getLast something] at h
    exact h (congrArg some (by simpa using feed))
  have feed : (s ++ "\n").toList = s.toList ++ ['\n'] := String.toList_append
  unfold dropFinalFeeds
  rw [feed, dropTrailing_eq_rdropWhile, List.rdropWhile_concat_pos _ _ _ (by simp),
    ← dropTrailing_eq_rdropWhile, kept, String.ofList_toList]

/-! ## Joined lines -/

/-- The text of some lines is the lines joined, and a line feed behind the last one. -/
theorem unlines_eq_joinLines_append {ls : List String} (something : ls ≠ []) :
    unlines ls = joinLines ls ++ "\n" := by
  induction ls with
  | nil => exact absurd rfl something
  | cons first rest ih =>
      cases rest with
      | nil => rw [unlines, unlines, joinLines, String.intercalate_singleton, String.append_empty]
      | cons second rest =>
          rw [unlines, ih (List.cons_ne_nil second rest), joinLines, joinLines,
            String.intercalate_cons_cons, ← String.append_assoc]

/-- Joined lines end as the last one ends, if there is anything in it. -/
theorem getLast?_joinLines {ls : List String} {last : String} (h : ls.getLast? = some last)
    (something : last ≠ "") : (joinLines ls).toList.getLast? = last.toList.getLast? := by
  obtain ⟨before, rfl⟩ := List.getLast?_eq_some_iff.1 h
  have ends : last.toList ≠ [] := fun empty => something (String.toList_injective empty)
  cases before with
  | nil => rw [List.nil_append, joinLines, String.intercalate_singleton]
  | cons first rest =>
      rw [joinLines, String.intercalate_append_of_ne_nil (List.cons_ne_nil first rest)
        (List.cons_ne_nil last []), String.intercalate_singleton, String.toList_append,
        List.getLast?_append_of_ne_nil _ ends]

/-- Texts that are not empty join to an empty text only if there are none. -/
theorem intercalate_eq_empty_iff {separator : String} {texts : List String}
    (h : ∀ text ∈ texts, text ≠ "") : separator.intercalate texts = "" ↔ texts = [] := by
  constructor
  · intro empty
    match texts with
    | [] => rfl
    | [text] =>
        rw [String.intercalate_singleton] at empty
        exact absurd empty (h text List.mem_cons_self)
    | first :: second :: rest =>
        rw [String.intercalate_cons_cons, String.append_eq_empty_iff,
          String.append_eq_empty_iff] at empty
        exact absurd empty.1.1 (h first List.mem_cons_self)
  · rintro rfl
    rfl

/-- **Lines joined in groups**: joining the groups that hold something joins all lines, if no line is
empty. -/
theorem joinLines_flatten {groups : List (List String)}
    (h : ∀ group ∈ groups, ∀ line ∈ group, line ≠ "") :
    joinLines ((groups.map joinLines).filter (· ≠ "")) = joinLines groups.flatten := by
  induction groups with
  | nil => rfl
  | cons group rest ih =>
      have own := h group List.mem_cons_self
      have later := fun others member => h others (List.mem_cons_of_mem group member)
      have ih := ih later
      by_cases silent : group = []
      · simpa [silent, joinLines] using ih
      · have text : joinLines group ≠ "" := mt (intercalate_eq_empty_iff own).1 silent
        rw [List.map_cons, List.filter_cons_of_pos (by simpa using text), List.flatten_cons]
        by_cases last : rest.flatten = []
        · have nothing : (rest.map joinLines).filter (· ≠ "") = [] := by
            refine (intercalate_eq_empty_iff fun line member => ?_).1 (ih.trans (by rw [last]; rfl))
            simpa using (List.mem_filter.1 member).2
          rw [nothing, last, List.append_nil]
          exact String.intercalate_singleton
        · have something : (rest.map joinLines).filter (· ≠ "") ≠ [] := by
            intro nothing
            rw [nothing] at ih
            refine last ((intercalate_eq_empty_iff ?_).1 ih.symm)
            intro line member
            obtain ⟨others, among, held⟩ := List.mem_flatten.1 member
            exact later others among line held
          calc joinLines (joinLines group :: (rest.map joinLines).filter (· ≠ ""))
              = joinLines group ++ "\n" ++ joinLines ((rest.map joinLines).filter (· ≠ "")) :=
                String.intercalate_cons_of_ne_nil something
            _ = joinLines group ++ "\n" ++ joinLines rest.flatten := by rw [ih]
            _ = joinLines (group ++ rest.flatten) :=
                (String.intercalate_append_of_ne_nil silent last).symm

end VaultShell.Text
