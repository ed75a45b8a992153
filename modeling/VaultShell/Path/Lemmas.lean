import VaultShell.Path.Basic
import VaultShell.Text.Basic

/-!
# Canonical paths

A canonical path is the rendering of a list of names, and the list can be read back from it. So
canonical paths and lists of names are the same thing in two forms, and whatever is to be known of
the one can be found out about the other.

## Main statements

* `canonicalComponents_render`: a list of names is read back from its rendering
* `isName_of_mem_canonicalComponents`: the components of a path are names
* `normalize_normalize`: a canonical form is its own canonical form
* `isCanonical_iff`: the canonical paths are the renderings of lists of names
-/

namespace VaultShell.Path

/-! ## Segments -/

theorem not_slash_of_mem_segments {path segment : String} (h : segment ∈ segments path) :
    '/' ∉ segment.toList := by
  obtain ⟨piece, hpiece, rfl⟩ := List.mem_map.1 h
  rw [String.toList_ofList]
  intro hslash
  have hne := Text.not_of_mem_splitOnP hpiece '/' hslash
  simp at hne

/-- A slash between two paths separates their segments. -/
theorem segments_append_slash (a b : String) :
    segments (a ++ "/" ++ b) = segments a ++ segments b := by
  have h : (a ++ "/" ++ b).toList = a.toList ++ '/' :: b.toList := by
    simp [String.toList_append]
  rw [segments, h, List.splitOn_append_cons_self, List.map_append]
  rfl

theorem segments_of_not_slash {name : String} (h : '/' ∉ name.toList) : segments name = [name] := by
  rw [segments, List.splitOn_eq_singleton h]
  simp

/-- The segments of names with single slashes between them are the names. -/
theorem segments_intercalate {names : List String} (hne : names ≠ [])
    (h : ∀ name ∈ names, '/' ∉ name.toList) : segments ("/".intercalate names) = names := by
  have hlist : ("/".intercalate names).toList = ['/'].intercalate (names.map String.toList) := by
    simp [String.toList_intercalate]
  rw [segments, hlist, List.splitOn_intercalate '/' (by simpa using h) (by simpa using hne)]
  simp [List.map_map, Function.comp_def]

/-! ## Resolving dots -/

@[simp] theorem enter_empty (stack : List String) : enter stack "" = stack := by
  simp [enter]

theorem enter_of_isName {name : String} (h : IsName name) (stack : List String) :
    enter stack name = name :: stack := by
  obtain ⟨h1, _, h2, h3⟩ := h
  simp [enter, h1, h2, h3]

/-- Names are only ever pushed. -/
theorem foldl_enter_of_isName {names : List String} (h : ∀ name ∈ names, IsName name)
    (stack : List String) : names.foldl enter stack = names.reverse ++ stack := by
  induction names generalizing stack with
  | nil => rfl
  | cons name rest ih =>
    rw [List.foldl_cons, enter_of_isName (h name (by simp)),
      ih (fun n hn => h n (List.mem_cons_of_mem _ hn))]
    simp

/-- A stack of names stays one when a segment is entered. -/
theorem isName_of_mem_enter {stack : List String} {segment name : String}
    (hstack : ∀ n ∈ stack, IsName n) (hsegment : '/' ∉ segment.toList)
    (h : name ∈ enter stack segment) : IsName name := by
  unfold enter at h
  split at h
  · exact hstack name h
  · rename_i hskip
    split at h
    · exact hstack name (List.mem_of_mem_tail h)
    · rename_i hup
      rcases List.mem_cons.1 h with rfl | h
      · simp only [not_or] at hskip
        exact ⟨hskip.1, hsegment, hskip.2, hup⟩
      · exact hstack name h

theorem isName_of_mem_foldl_enter {segs stack : List String} {name : String}
    (hstack : ∀ n ∈ stack, IsName n) (hsegs : ∀ s ∈ segs, '/' ∉ s.toList)
    (h : name ∈ segs.foldl enter stack) : IsName name := by
  induction segs generalizing stack with
  | nil => exact hstack name h
  | cons s rest ih =>
    refine ih ?_ (fun x hx => hsegs x (List.mem_cons_of_mem _ hx)) h
    intro n hn
    exact isName_of_mem_enter hstack (hsegs s (by simp)) hn

/-- The components of a path are names. -/
theorem isName_of_mem_canonicalComponents {path name : String}
    (h : name ∈ canonicalComponents path) : IsName name := by
  rw [canonicalComponents, List.mem_reverse] at h
  exact isName_of_mem_foldl_enter (by simp) (fun _ hs => not_slash_of_mem_segments hs) h

/-! ## Rendering -/

theorem render_eq (names : List String) : render names = "" ++ "/" ++ "/".intercalate names := by
  simp [render]

/-- A list of names is read back from its rendering. -/
theorem canonicalComponents_render {names : List String} (h : ∀ name ∈ names, IsName name) :
    canonicalComponents (render names) = names := by
  rw [canonicalComponents, render_eq, segments_append_slash,
    @segments_of_not_slash "" (by simp)]
  by_cases hne : names = []
  · subst hne
    decide
  · rw [segments_intercalate hne fun name hname => (h name hname).2.1, List.foldl_append,
      List.foldl_cons, List.foldl_nil, enter_empty, foldl_enter_of_isName h]
    simp

/-- The components of a path, read literally, are those that dots would leave, if it has no
dots. -/
theorem components_render {names : List String} (h : ∀ name ∈ names, IsName name) :
    components (render names) = names := by
  rw [components, render_eq, segments_append_slash,
    @segments_of_not_slash "" (by simp)]
  by_cases hne : names = []
  · subst hne
    decide
  · rw [segments_intercalate hne fun name hname => (h name hname).2.1]
    have hkeep : names.filter (· ≠ "") = names :=
      List.filter_eq_self.2 fun name hname => by simpa using (h name hname).1
    simpa using hkeep

/-- A canonical form is its own canonical form. -/
theorem normalize_normalize (path : String) : normalize (normalize path) = normalize path := by
  unfold normalize
  rw [canonicalComponents_render fun _ => isName_of_mem_canonicalComponents]

/-- The canonical paths are the renderings of lists of names. -/
theorem isCanonical_iff {path : String} :
    IsCanonical path ↔ ∃ names, (∀ name ∈ names, IsName name) ∧ path = render names := by
  constructor
  · intro h
    exact ⟨canonicalComponents path, fun _ => isName_of_mem_canonicalComponents, h.symm⟩
  · rintro ⟨names, hnames, rfl⟩
    exact congrArg render (canonicalComponents_render hnames)

end VaultShell.Path
