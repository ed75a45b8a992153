import VaultShell.Proofs.Path.Ancestry

/-!
# The last name of a path

Every change of a vault begins by taking the last name off a path: the change is made in the directory
that the rest leads to, under the name.  Whoever walks through a vault goes the other way and puts a name
on the path of each directory.  So what was put on has to come off again, and the other way round.

The last name stands behind the last slash of the canonical form, where there is one character to be
dropped and the rest to be cut.  What is left in front of the slash is the path of the directory, but for
a directory that is the root: there nothing is left, and the root's path has to be put in its place.
Names hold no slash, whatever other characters are in them, and so the slash that is found is the one that
was put there.

## Main definitions

* `splitText`: a path as the directory and the last name, read off the text

## Main statements

* `splitText_eq`: the text and the names of a path are taken apart in the same way
* `split_eq_ok_iff`: what comes off is what can be put on
* `split_join_inverse`: taking the last name off and putting it on
-/

namespace VaultShell.Path

variable {path parent name : String} {names : List String}

/-! ## Taking off and putting on -/

/-- There is nothing to take off a path that leads to the root, and no other path is refused. -/
theorem split_eq_error_iff {fault : Fault} :
    split path = .error fault ↔ fault = .invalidPath ∧ normalize path = root := by
  rw [normalize_eq_root_iff]
  constructor
  · intro refused
    by_cases nothing : canonicalComponents path = []
    · rw [split, nothing] at refused
      exact ⟨(Except.error.inj refused).symm, nothing⟩
    · obtain ⟨parent, name, taken⟩ := exists_split nothing
      rw [taken] at refused
      cases refused
  · rintro ⟨rfl, nothing⟩
    rw [split, nothing]
    rfl

/-- What was taken off can be put on again. -/
theorem join_of_split (taken : split path = .ok (parent, name)) : join parent name = normalize path := by
  obtain ⟨hnames, canonical⟩ := canonicalComponents_of_split taken
  have above : ∀ n ∈ canonicalComponents parent, IsName n := fun _ => isName_of_mem_canonicalComponents
  calc join parent name
      = join (render (canonicalComponents parent)) name := by rw [show render _ = parent from canonical]
    _ = render (canonicalComponents parent ++ [name]) := join_render above
    _ = normalize path := by rw [normalize, hnames]

/-- Taking off looks at the canonical form alone. -/
theorem split_normalize (path : String) : split (normalize path) = split path := by
  have same : canonicalComponents (normalize path) = canonicalComponents path :=
    canonicalComponents_render fun _ => isName_of_mem_canonicalComponents
  rw [split, split, same]

/-- **What comes off is what can be put on**: the path of a directory, and a name. -/
theorem split_eq_ok_iff : split path = .ok (parent, name) ↔
    IsCanonical parent ∧ IsName name ∧ join parent name = normalize path := by
  constructor
  · intro taken
    exact ⟨(canonicalComponents_of_split taken).2, isName_of_split taken, join_of_split taken⟩
  · rintro ⟨canonical, isName, joined⟩
    rw [← split_normalize, ← joined]
    exact (join_eq canonical isName).2.2

/-! ## The last slash of the text -/

/-- A path as the directory that holds the place and the last name, read off the text of the canonical
form: what stands in front of its last slash, the root's path instead of nothing, and what stands
behind it. -/
def splitText (path : String) : Except Fault (String × String) :=
  let text := normalize path
  if text = root then .error .invalidPath
  else
    match Text.cutLast? '/' text.toList with
    | none => .ok (root, text)
    | some (front, name) =>
      .ok (if front = [] then root else String.ofList front, String.ofList name)

/-- The slash that is found is the one in front of the last name. -/
theorem cutLast?_render (h : '/' ∉ name.toList) : Text.cutLast? '/' (render (names ++ [name])).toList =
    some (names.flatMap fun n => '/' :: n.toList, name.toList) := by
  rw [toList_render (List.concat_ne_nil name names), List.flatMap_append, List.flatMap_singleton]
  exact Text.cutLast?_append_cons h _

/-- What stands in front of the last slash is the path of the directory, or nothing if that is the
root. -/
theorem render_eq_ofList (names : List String) :
    (if (names.flatMap fun n => '/' :: n.toList) = [] then root
      else String.ofList (names.flatMap fun n => '/' :: n.toList)) = render names := by
  cases names with
  | nil => rfl
  | cons first rest =>
      rw [if_neg (by simp), ← toList_render (List.cons_ne_nil first rest), String.ofList_toList]

/-- **The text and the names of a path are taken apart in the same way.** -/
theorem splitText_eq (path : String) : splitText path = split path := by
  by_cases leads : normalize path = root
  · rw [split_eq_error_iff.2 ⟨rfl, leads⟩, splitText, if_pos leads]
  · obtain ⟨parent, name, taken⟩ := exists_split (mt normalize_eq_root_iff.2 leads)
    obtain ⟨hnames, canonical⟩ := canonicalComponents_of_split taken
    have front : render (canonicalComponents parent) = parent := canonical
    have cut : Text.cutLast? '/' (normalize path).toList =
        some ((canonicalComponents parent).flatMap fun n => '/' :: n.toList, name.toList) := by
      rw [normalize, hnames]
      exact cutLast?_render (isName_of_split taken).2.1
    rw [splitText, if_neg leads, cut, taken]
    show Except.ok (_, String.ofList name.toList) = Except.ok (parent, name)
    rw [render_eq_ofList, front, String.ofList_toList]

/-! ## Both directions -/

/-- **Taking the last name off and putting it on are inverse.**  A path that leads to the root has none,
and only such a path is refused.  Off any other path comes a name, and what is left is the path of a
directory in its canonical form; put together again they are the canonical form of the path.  And a name
that was put on the path of a directory comes off it again. -/
theorem split_join_inverse :
    (∀ path, splitText path = split path) ∧
    (∀ path, split path = .error .invalidPath ↔ normalize path = root) ∧
    (∀ path, normalize path ≠ root → ∃ parent name, split path = .ok (parent, name) ∧
      IsCanonical parent ∧ IsName name ∧ join parent name = normalize path) ∧
    ∀ parent name, IsCanonical parent → IsName name →
      split (join parent name) = .ok (parent, name) := by
  refine ⟨splitText_eq, ?_, ?_, ?_⟩
  · intro path
    exact split_eq_error_iff.trans (and_iff_right rfl)
  · intro path notRoot
    obtain ⟨parent, name, taken⟩ := exists_split (mt normalize_eq_root_iff.2 notRoot)
    exact ⟨parent, name, taken, split_eq_ok_iff.1 taken⟩
  · intro parent name canonical isName
    exact (join_eq canonical isName).2.2

/-- A path with dots and slashes too many comes apart, and a name that ends in a dot is put on a path
and on the root's and comes off again. -/
theorem split_join_inverse_dotted :
    normalize "x/../é//b./" ≠ root ∧
    (∃ parent name, split "x/../é//b./" = .ok (parent, name) ∧ IsCanonical parent ∧ IsName name ∧
      join parent name = "/é/b.") ∧
    IsCanonical "/é" ∧ IsName "b." ∧ split (join "/é" "b.") = .ok ("/é", "b.") ∧
    split (join root "b.") = .ok (root, "b.") := by
  obtain ⟨-, -, takes, puts⟩ := split_join_inverse
  have notRoot : normalize "x/../é//b./" ≠ root := by decide +kernel
  have canonical : IsCanonical "/é" := by decide +kernel
  have isName : IsName "b." := by decide
  obtain ⟨parent, name, taken, canonicalParent, isNameTaken, joined⟩ := takes "x/../é//b./" notRoot
  refine ⟨notRoot, ⟨parent, name, taken, canonicalParent, isNameTaken, joined.trans ?_⟩, canonical,
    isName, puts "/é" "b." canonical isName, puts root "b." isCanonical_root isName⟩
  decide +kernel

end VaultShell.Path
