import VaultShell.Proofs.Path.Ancestry
import VaultShell.Proofs.Text.Words

/-!
# Paths that can be typed

An operand is a word, so no blank stands in it, and none comes in when it is resolved: the characters
of a canonical form are slashes and characters of the path.  Every path that a shell works with is of
this kind, since each of them began as an operand.

## Main statements

* `isTyped_resolve`: a blankless operand leads to a typed path
-/

namespace VaultShell.Path

open Text (Blankless)

/-- A canonical path without blanks. -/
structure IsTyped (path : String) : Prop where
  canonical : IsCanonical path
  blankless : Blankless path

theorem isTyped_root : IsTyped root where
  canonical := isCanonical_root
  blankless := by decide

/-! ## The characters of a canonical form -/

theorem blankless_of_mem_segments {path segment : String} (hpath : Blankless path)
    (h : segment ∈ segments path) : Blankless segment := by
  obtain ⟨piece, hpiece, rfl⟩ := List.mem_map.1 h
  intro c hc
  rw [String.toList_ofList] at hc
  exact hpath c (Text.mem_of_mem_splitOnP hpiece hc)

/-- Resolving dots never brings a segment in. -/
theorem mem_of_mem_foldl_enter {segs stack : List String} {name : String}
    (h : name ∈ segs.foldl enter stack) : name ∈ stack ∨ name ∈ segs := by
  induction segs generalizing stack with
  | nil => exact Or.inl h
  | cons segment rest ih =>
      rcases ih h with hstack | hrest
      · -- A segment goes onto the stack as it is, or takes the last one off.
        unfold enter at hstack
        split at hstack
        · exact Or.inl hstack
        · split at hstack
          · exact Or.inl (List.mem_of_mem_tail hstack)
          · rcases List.mem_cons.1 hstack with rfl | hstack
            · exact Or.inr List.mem_cons_self
            · exact Or.inl hstack
      · exact Or.inr (List.mem_cons_of_mem segment hrest)

theorem blankless_of_mem_canonicalComponents {path name : String} (hpath : Blankless path)
    (h : name ∈ canonicalComponents path) : Blankless name := by
  rw [canonicalComponents, List.mem_reverse] at h
  rcases mem_of_mem_foldl_enter h with hnil | hsegment
  · cases hnil
  · exact blankless_of_mem_segments hpath hsegment

theorem blankless_render {names : List String} (h : ∀ name ∈ names, Blankless name) :
    Blankless (render names) := by
  by_cases hne : names = []
  · subst hne
    decide
  · intro c hc
    rw [toList_render hne, List.mem_flatMap] at hc
    obtain ⟨name, hname, hc⟩ := hc
    rcases List.mem_cons.1 hc with rfl | hc
    · decide
    · exact h name hname c hc

theorem isTyped_render {names : List String} (hnames : ∀ name ∈ names, IsName name)
    (hblankless : ∀ name ∈ names, Blankless name) : IsTyped (render names) :=
  ⟨isCanonical_render hnames, blankless_render hblankless⟩

/-- All that a typed path leads through is typed. -/
theorem isTyped_of_mem_wayTo {path place : String} (typed : IsTyped path) (h : place ∈ wayTo path) :
    IsTyped place := by
  obtain ⟨more, -, begins, rfl⟩ := mem_wayDown.1 h
  rw [components_eq_canonicalComponents typed.canonical] at begins
  refine isTyped_render (fun name hname => ?_) fun name hname => ?_
  · exact isName_of_mem_canonicalComponents (begins.subset hname)
  · exact blankless_of_mem_canonicalComponents typed.blankless (begins.subset hname)

theorem isTyped_normalize {path : String} (h : Blankless path) : IsTyped (normalize path) :=
  isTyped_render (fun _ => isName_of_mem_canonicalComponents)
    (fun _ => blankless_of_mem_canonicalComponents h)

theorem blankless_join {base name : String} (hbase : Blankless base) (hname : Blankless name) :
    Blankless (join base name) := by
  unfold join
  split
  · exact Text.blankless_append.2 ⟨hbase, hname⟩
  · exact Text.blankless_append.2 ⟨Text.blankless_append.2 ⟨hbase, by decide⟩, hname⟩

/-- **A blankless operand leads to a typed path** if the shell works at one. -/
theorem isTyped_resolve {cwd operand : String} (hcwd : IsTyped cwd) (hoperand : Blankless operand) :
    IsTyped (resolve cwd operand) := by
  unfold resolve
  split
  case h_1 => exact isTyped_root
  case h_2 rest htext =>
    refine isTyped_normalize ?_
    intro c hc
    rw [String.toList_ofList] at hc
    refine hoperand c ?_
    rw [htext]
    exact List.mem_cons_of_mem _ hc
  case h_3 => exact isTyped_normalize hoperand
  case h_4 => exact isTyped_normalize (blankless_join hcwd.blankless hoperand)

/-- The name that is taken off a path has no blanks if the path has none. -/
theorem blankless_of_split {path parent name : String} (hpath : Blankless path)
    (h : split path = .ok (parent, name)) : Blankless name := by
  obtain ⟨hcomponents, -⟩ := canonicalComponents_of_split h
  refine blankless_of_mem_canonicalComponents hpath ?_
  rw [hcomponents]
  exact List.mem_append_right _ List.mem_cons_self

end VaultShell.Path
