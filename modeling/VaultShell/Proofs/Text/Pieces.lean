import VaultShell.Proofs.Text.Lines

/-!
# Pieces of a text

Whoever reads names off a printed text looks for the separator, from left to right, and takes what
stands between.  That gives the names back if the separator cannot begin inside a name: then it is found
where it was put and nowhere else, whatever its other characters are.

An empty text may be no name or one that is empty, so names that are read off are not empty.

## Main definitions

* `pieces`: the pieces of a text between the separators, none for the empty text

## Main statements

* `pieces_intercalate`: the pieces of names with separators between them are the names
-/

namespace VaultShell.Text

/-- What stands before the first separator, between each two of them, and behind the last one.  They are
looked for from left to right, and one begins behind the end of the one before it. -/
def cutChars (separator : List Char) : List Char → List (List Char)
  | [] => [[]]
  | c :: rest =>
    if separator ≠ [] ∧ separator <+: c :: rest then
      [] :: cutChars separator (rest.drop (separator.length - 1))
    else (cutChars separator rest).modifyHead (c :: ·)
  termination_by cs => cs.length

/-- The pieces of a text between the separators; an empty text has none. -/
def pieces (separator text : String) : List String :=
  if text = "" then [] else (cutChars separator.toList text.toList).map String.ofList

variable {first : Char} {more cs : List Char}

/-- A separator that does not begin in a run of characters does not end the piece. -/
theorem cutChars_append (absent : first ∉ cs) (rest : List Char) :
    cutChars (first :: more) (cs ++ (first :: more) ++ rest) =
      cs :: cutChars (first :: more) rest := by
  induction cs with
  | nil =>
      have found : first :: more ≠ [] ∧ first :: more <+: first :: (more ++ rest) :=
        ⟨List.cons_ne_nil first more, rest, rfl⟩
      show cutChars (first :: more) (first :: (more ++ rest)) = _
      rw [cutChars, if_pos found, List.length_cons, Nat.add_sub_cancel, List.drop_left]
  | cons c cs ih =>
      rw [List.mem_cons, not_or] at absent
      have elsewhere : ¬ (first :: more ≠ [] ∧
          first :: more <+: c :: (cs ++ (first :: more) ++ rest)) :=
        fun found => absent.1 (List.cons_prefix_cons.1 found.2).1
      show cutChars (first :: more) (c :: (cs ++ (first :: more) ++ rest)) = _
      rw [cutChars, if_neg elsewhere, ih absent.2, List.modifyHead_cons]

theorem cutChars_of_not_mem (absent : first ∉ cs) : cutChars (first :: more) cs = [cs] := by
  induction cs with
  | nil => rw [cutChars]
  | cons c cs ih =>
      rw [List.mem_cons, not_or] at absent
      have elsewhere : ¬ (first :: more ≠ [] ∧ first :: more <+: c :: cs) :=
        fun found => absent.1 (List.cons_prefix_cons.1 found.2).1
      rw [cutChars, if_neg elsewhere, ih absent.2, List.modifyHead_cons]

/-- What has names in it and separators between them is cut into the names. -/
theorem cutChars_intercalate {separator : String} (text : separator.toList = first :: more)
    {name : String} {rest : List String} (h : ∀ n ∈ name :: rest, first ∉ n.toList) :
    (cutChars separator.toList (separator.intercalate (name :: rest)).toList).map String.ofList =
      name :: rest := by
  have absent := h name List.mem_cons_self
  induction rest generalizing name with
  | nil =>
      rw [String.intercalate_singleton, text, cutChars_of_not_mem absent, List.map_singleton,
        String.ofList_toList]
  | cons second rest ih =>
      have later : ∀ n ∈ second :: rest, first ∉ n.toList :=
        fun n member => h n (List.mem_cons_of_mem name member)
      have others := ih later (later second List.mem_cons_self)
      rw [text] at others ⊢
      rw [String.intercalate_cons_cons, String.toList_append, String.toList_append, text,
        cutChars_append absent, List.map_cons, String.ofList_toList, others]

/-- **Names are read off the text that they were put together to**, if none of them is empty or holds the
character that the separator begins with. -/
theorem pieces_intercalate {separator : String} (text : separator.toList = first :: more)
    {names : List String} (h : ∀ name ∈ names, name ≠ "" ∧ first ∉ name.toList) :
    pieces separator (separator.intercalate names) = names := by
  cases names with
  | nil => rfl
  | cons name rest =>
      have printed : separator.intercalate (name :: rest) ≠ "" := by
        rw [Ne, intercalate_eq_empty_iff fun n member => (h n member).1]
        exact List.cons_ne_nil name rest
      rw [pieces, if_neg printed]
      exact cutChars_intercalate text fun n member => (h n member).2

end VaultShell.Text
