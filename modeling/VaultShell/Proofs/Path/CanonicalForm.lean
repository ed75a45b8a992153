import VaultShell.Proofs.Path.Composition

/-!
# What a canonical form looks like

A canonical form was introduced as what is left when the dots of a path are resolved, and canonical paths
as those that resolving leaves alone.  Neither says what such a path looks like.  It is the root's slash,
or it is made of names with a slash in front of each, where a name is not empty, has no slash and is
neither of the two dot segments.  So there is nothing in it that could lead up, wherever it is read.

The look is told from the segments of the text alone, without resolving anything.  The two agree because
resolving pushes names and does nothing else with them, and because a text is put together from its
segments in one way only.

## Main definitions

* `IsPlain`: what a canonical path looks like

## Main statements

* `isPlain_iff`: the canonical paths are those that look like one
* `canonical_forms_compose`: canonical forms, of paths, of paths in two parts and of operands
-/

namespace VaultShell.Path

variable {path : String} {names : List String}

/-- **What a canonical path looks like.**  It begins with a slash, and unless it is the root's, it does
not end with one and everything between its slashes is a name. -/
structure IsPlain (path : String) : Prop where
  absolute : path.toList.head? = some '/'
  open_end : path ≠ root → path.toList.getLast? ≠ some '/'
  isName : path ≠ root → ∀ segment ∈ (segments path).tail, IsName segment

/-! ## A text and its segments -/

/-- A text is put together from its segments. -/
theorem intercalate_segments (path : String) : "/".intercalate (segments path) = path := by
  apply String.toList_injective
  rw [String.toList_intercalate, segments, List.map_map]
  simp [Function.comp_def, List.intercalate_splitOn]

/-- The segments of a path that begins with a slash: nothing, and those of the rest. -/
theorem segments_slash_append (rest : String) : segments ("/" ++ rest) = "" :: segments rest := by
  have nothing : segments "" = [""] := segments_of_not_slash (by decide)
  have parts := segments_append_slash "" rest
  rwa [String.empty_append, nothing] at parts

theorem segments_render (hne : names ≠ []) (h : ∀ name ∈ names, IsName name) :
    segments (render names) = "" :: names := by
  rw [render, segments_slash_append, segments_intercalate hne fun name member => (h name member).2.1]

/-! ## The look of a canonical path -/

theorem isPlain_render (h : ∀ name ∈ names, IsName name) : IsPlain (render names) := by
  by_cases empty : names = []
  · subst empty
    exact ⟨by decide, fun notRoot => absurd render_nil notRoot, fun notRoot => absurd render_nil notRoot⟩
  · refine ⟨?_, fun _ => getLast?_render h empty, ?_⟩
    · obtain ⟨first, rest, rfl⟩ := List.exists_cons_of_ne_nil empty
      rw [toList_render (List.cons_ne_nil first rest)]
      rfl
    · rw [segments_render empty h]
      exact fun _ => h

/-- Nothing is resolved where there are only names. -/
theorem IsPlain.isCanonical (plain : IsPlain path) : IsCanonical path := by
  by_cases isRoot : path = root
  · rw [isRoot]
    exact isCanonical_root
  · obtain ⟨rest, text⟩ := List.head?_eq_some_iff.1 plain.absolute
    obtain rfl : path = "/" ++ String.ofList rest := String.toList_injective (by simp [text])
    have isName := plain.isName isRoot
    rw [segments_slash_append, List.tail_cons] at isName
    have components : canonicalComponents ("/" ++ String.ofList rest) = segments (String.ofList rest) := by
      rw [canonicalComponents, segments_slash_append, List.foldl_cons, enter_empty,
        foldl_enter_of_isName isName, List.append_nil, List.reverse_reverse]
    show render (canonicalComponents _) = _
    rw [components, render, intercalate_segments]

/-- **The canonical paths are those that look like one.** -/
theorem isPlain_iff : IsPlain path ↔ IsCanonical path := by
  refine ⟨IsPlain.isCanonical, fun canonical => ?_⟩
  obtain ⟨names, isName, rfl⟩ := isCanonical_iff.1 canonical
  exact isPlain_render isName

/-- **Canonical forms.**  Every path has one, which is its own canonical form and looks like one; and
whatever looks like one is one.  Of a path in two parts the first one may be put in its canonical form,
whatever the second one is.  An operand leads to a canonical path from wherever the shell works, and so
to no place but the root and those beneath it. -/
theorem canonical_forms_compose :
    (∀ path, IsPlain (normalize path) ∧ normalize (normalize path) = normalize path) ∧
    (∀ path, IsPlain path ↔ normalize path = path) ∧
    (∀ a b, normalize (a ++ "/" ++ b) = normalize (normalize a ++ "/" ++ b)) ∧
    ∀ cwd operand, IsPlain (resolve cwd operand) ∧
      normalize (resolve cwd operand) = resolve cwd operand := by
  refine ⟨?_, fun path => isPlain_iff, fun a b => (normalize_append_slash a b).symm, ?_⟩
  · intro path
    exact ⟨isPlain_iff.2 (isCanonical_normalize path), normalize_normalize path⟩
  · intro cwd operand
    have canonical := isCanonical_resolve cwd operand
    exact ⟨isPlain_iff.2 canonical, canonical⟩

-- More dots than there are names above them lead to the root and no further.
example : resolve "/docs" "./a//../../../b/" = "/b" := by decide +kernel

end VaultShell.Path
