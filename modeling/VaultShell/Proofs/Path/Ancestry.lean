import Mathlib.Data.List.Infix
import VaultShell.Path.Lemmas

/-!
# Ancestry of paths

A guard that keeps a directory from being removed compares texts: it looks whether one path begins
with another one and a slash.  What it is meant to find out is about directories: whether the one
lies in the other, however deep.  On canonical paths the two are the same, since the names of a path
can be read back from its text.

## Main definitions

* `Within`: whether a path leads to another one or beneath it, by their names
* `wayTo`: the paths on the way down to a path

## Main statements

* `isUnder_render_iff`: a path is under another one if its names begin with the names of the other
* `split_render`, `join_render`: the last name of a path, taken off and put on
* `isCanonical_resolve`: an operand leads to a canonical path
-/

namespace VaultShell.Path

variable {names above more : List String} {path parent name place : String}

/-! ## Canonical paths and their names -/

theorem components_append_slash (a b : String) :
    components (a ++ "/" ++ b) = components a ++ components b := by
  unfold components
  rw [segments_append_slash, List.filter_append]

/-- The names of a canonical path, in both readings. -/
theorem components_eq_canonicalComponents (canonical : IsCanonical path) :
    components path = canonicalComponents path := by
  obtain ⟨names, hnames, rfl⟩ := isCanonical_iff.1 canonical
  rw [components_render hnames, canonicalComponents_render hnames]

theorem isName_of_mem_components (canonical : IsCanonical path) (h : name ∈ components path) :
    IsName name := by
  rw [components_eq_canonicalComponents canonical] at h
  exact isName_of_mem_canonicalComponents h

theorem render_components (canonical : IsCanonical path) : render (components path) = path := by
  rw [components_eq_canonicalComponents canonical]
  exact canonical

theorem isCanonical_render (h : ∀ name ∈ names, IsName name) : IsCanonical (render names) :=
  isCanonical_iff.2 ⟨names, h, rfl⟩

theorem isCanonical_normalize (path : String) : IsCanonical (normalize path) :=
  normalize_normalize path

theorem isCanonical_root : IsCanonical root := by
  decide +kernel

theorem render_nil : render [] = root := rfl

/-- Lists of names are told apart by their paths. -/
theorem render_inj {names others : List String} (hnames : ∀ name ∈ names, IsName name)
    (hothers : ∀ name ∈ others, IsName name) (h : render names = render others) :
    names = others := by
  rw [← components_render hnames, h, components_render hothers]

/-- A path leads to the root if no name is left of it. -/
theorem normalize_eq_root_iff : normalize path = root ↔ canonicalComponents path = [] := by
  constructor
  · intro leads
    exact render_inj (fun _ => isName_of_mem_canonicalComponents) nofun leads
  · intro empty
    rw [normalize, empty]
    rfl

/-- **An operand leads to a canonical path**, wherever the shell works. -/
theorem isCanonical_resolve (cwd operand : String) : IsCanonical (resolve cwd operand) := by
  unfold resolve
  split
  · exact isCanonical_root
  · exact isCanonical_normalize _
  · exact isCanonical_normalize _
  · exact isCanonical_normalize _

/-! ## The text of a canonical path -/

/-- A slash in front of every name. -/
theorem toList_render (h : names ≠ []) :
    (render names).toList = names.flatMap fun name => '/' :: name.toList := by
  have key : ∀ (first : String) (rest : List String),
      ('/' :: ['/'].intercalate ((first :: rest).map String.toList)) =
        (first :: rest).flatMap fun name => '/' :: name.toList := by
    intro first rest
    induction rest generalizing first with
    | nil => simp
    | cons second rest ih =>
        rw [List.map_cons, List.map_cons, List.intercalate_cons_cons, List.flatMap_cons, ← ih second]
        simp
  cases names with
  | nil => exact absurd rfl h
  | cons first rest =>
      rw [← key first rest, render, String.toList_append, String.toList_intercalate]
      rfl

theorem render_append (hfirst : names ≠ []) (hmore : more ≠ []) :
    render (names ++ more) = render names ++ render more := by
  apply String.toList_injective
  rw [String.toList_append, toList_render hfirst, toList_render hmore,
    toList_render (by simp [hfirst]), List.flatMap_append]

/-- A text that leads to the names above, put together name by name, leads one name further down. -/
theorem append_slash_eq_render {text : String}
    (leads : ∀ next, text ++ "/" ++ next = render (above ++ [next])) (name next : String) :
    text ++ "/" ++ name ++ "/" ++ next = render ((above ++ [name]) ++ [next]) := by
  rw [leads name, @render_append (above ++ [name]) [next] (by simp) (by simp), String.append_assoc]
  rfl

/-- **A canonical path is under another one if its names begin with the names of the other.** -/
theorem isUnder_render_iff (hnames : ∀ name ∈ names, IsName name)
    (habove : ∀ name ∈ above, IsName name) :
    isUnder (render names) (render above) = true ↔ above <+: names := by
  unfold isUnder
  simp only [Bool.or_eq_true, beq_iff_eq, List.isPrefixOf_iff_prefix]
  constructor
  · rintro ((hroot | hsame) | ⟨ending, hsplit⟩)
    · have hnil : above = [] := by
        rw [← components_render habove, hroot]
        decide +kernel
      rw [hnil]
      exact List.nil_prefix
    · have heq : names = above := by
        rw [← components_render hnames, hsame, components_render habove]
      subst heq
      exact List.prefix_refl names
    · have htext : render names = render above ++ "/" ++ String.ofList ending := by
        apply String.toList_injective
        rw [← hsplit]
        simp
      refine ⟨components (String.ofList ending), ?_⟩
      rw [← components_render hnames, htext, components_append_slash, components_render habove]
  · rintro ⟨more, rfl⟩
    by_cases hnil : above = []
    · left; left
      rw [hnil]
      rfl
    · by_cases hmore : more = []
      · left; right
        rw [hmore, List.append_nil]
      · right
        obtain ⟨first, rest, rfl⟩ := List.exists_cons_of_ne_nil hmore
        rw [render_append hnil hmore, String.toList_append, String.toList_append,
          toList_render hmore, List.flatMap_cons]
        exact ⟨first.toList ++ rest.flatMap fun name => '/' :: name.toList, by simp⟩

/-- The same for paths that are known to be canonical. -/
theorem isUnder_iff {ancestor : String} (hpath : IsCanonical path) (hancestor : IsCanonical ancestor) :
    isUnder path ancestor = true ↔ components ancestor <+: components path := by
  have key := isUnder_render_iff (fun _ => isName_of_mem_components hpath)
    (fun _ => isName_of_mem_components hancestor)
  rwa [render_components hpath, render_components hancestor] at key

/-- Whether a path leads to another one or beneath it, both of them taken literally. -/
def Within (path ancestor : String) : Prop :=
  components ancestor <+: components path

instance (path ancestor : String) : Decidable (Within path ancestor) :=
  inferInstanceAs (Decidable (components ancestor <+: components path))

/-! ## The last name -/

/-- **Taking the last name off.** -/
theorem split_render (h : ∀ n ∈ names ++ [name], IsName n) :
    split (render (names ++ [name])) = .ok (render names, name) := by
  unfold split
  simp [canonicalComponents_render h]

/-- What taking the last name off gives: the path is canonical or not, its names are. -/
theorem canonicalComponents_of_split (h : split path = .ok (parent, name)) :
    canonicalComponents path = canonicalComponents parent ++ [name] ∧ IsCanonical parent := by
  have hnames : ∀ n ∈ canonicalComponents path, IsName n := fun _ => isName_of_mem_canonicalComponents
  cases hlast : (canonicalComponents path).getLast? with
  | none => simp [split, hlast] at h
  | some last =>
      simp only [split, hlast, Except.ok.injEq, Prod.mk.injEq] at h
      obtain ⟨rfl, rfl⟩ := h
      obtain ⟨front, hsplit⟩ := List.getLast?_eq_some_iff.1 hlast
      rw [hsplit] at hnames ⊢
      have hfront : ∀ n ∈ front, IsName n := fun n hn => hnames n (List.mem_append_left _ hn)
      rw [List.dropLast_concat, canonicalComponents_render hfront]
      exact ⟨rfl, isCanonical_render hfront⟩

/-- Every path but one that leads to the root has a last name. -/
theorem exists_split (h : canonicalComponents path ≠ []) :
    ∃ parent name, split path = .ok (parent, name) := by
  cases hlast : (canonicalComponents path).getLast? with
  | none => exact absurd (List.getLast?_eq_none_iff.1 hlast) h
  | some last => exact ⟨render (canonicalComponents path).dropLast, last, by simp [split, hlast]⟩

/-- The last character of a canonical path other than the root's is no slash. -/
theorem getLast?_render (h : ∀ n ∈ names, IsName n) (hne : names ≠ []) :
    (render names).toList.getLast? ≠ some '/' := by
  rcases List.eq_nil_or_concat' names with rfl | ⟨front, last, rfl⟩
  · exact absurd rfl hne
  obtain ⟨hnonempty, hslash, -⟩ := h last (by simp)
  have htail : last.toList ≠ [] := by simpa using hnonempty
  rw [toList_render hne, List.flatMap_append, List.flatMap_singleton, List.getLast?_append_of_ne_nil _
    (by simp), List.getLast?_cons, List.getLast?_eq_some_getLast htail]
  intro hlast
  refine hslash ?_
  have hmem := List.getLast_mem htail
  simp only [Option.getD_some, Option.some.injEq] at hlast
  rwa [hlast] at hmem

/-- **Putting a name on.** -/
theorem join_render (h : ∀ n ∈ names, IsName n) : join (render names) name = render (names ++ [name]) := by
  unfold join
  by_cases hne : names = []
  · subst hne
    rfl
  · rw [if_neg (getLast?_render h hne), render_append hne (by simp), String.append_assoc]
    rfl

/-- **A name beneath a canonical path**: it is put on, and taken off again. -/
theorem join_eq (hpath : IsCanonical path) (hname : IsName name) :
    IsCanonical (join path name) ∧ components (join path name) = components path ++ [name] ∧
      split (join path name) = .ok (path, name) := by
  obtain ⟨names, hnames, rfl⟩ := isCanonical_iff.1 hpath
  have hall : ∀ n ∈ names ++ [name], IsName n := by
    intro n hn
    rcases List.mem_append.1 hn with hn | hn
    · exact hnames n hn
    · rwa [List.mem_singleton.1 hn]
  rw [join_render hnames, components_render hall, components_render hnames]
  exact ⟨isCanonical_render hall, rfl, split_render hall⟩

theorem isUnder_self (path : String) : isUnder path path = true := by
  simp [isUnder]

theorem isName_of_split (h : split path = .ok (parent, name)) : IsName name := by
  have hmem : name ∈ canonicalComponents path := by
    rw [(canonicalComponents_of_split h).1]
    exact List.mem_append_right _ List.mem_cons_self
  exact isName_of_mem_canonicalComponents hmem

/-! ## The way down -/

/-- The paths on the way down through some names, from the names above them on, the shortest first. -/
def wayDown (above names : List String) : List String :=
  names.inits.tail.map fun more => render (above ++ more)

/-- **The way to a path**: the path itself and all that lead to a directory above it, the root apart, the
shortest first. -/
def wayTo (path : String) : List String :=
  wayDown [] (components path)

theorem wayDown_cons (above : List String) (name : String) (names : List String) :
    wayDown above (name :: names) = render (above ++ [name]) :: wayDown (above ++ [name]) names := by
  have shortest : names.inits = [] :: names.inits.tail := by cases names <;> rfl
  unfold wayDown
  rw [List.inits_cons, List.tail_cons, shortest, List.map_cons, List.map_cons, List.map_map]
  refine congrArg _ (List.map_congr_left fun more _ => ?_)
  rw [Function.comp_apply, List.append_assoc, List.singleton_append]

theorem mem_wayDown : place ∈ wayDown above names ↔
    ∃ more, more ≠ [] ∧ more <+: names ∧ render (above ++ more) = place := by
  have proper : ∀ more, more ∈ names.inits.tail ↔ more ≠ [] ∧ more <+: names := by
    intro more
    cases names with
    | nil => simp
    | cons name names =>
        rw [List.inits_cons, List.tail_cons, List.mem_map, List.prefix_cons_iff]
        simp only [List.mem_inits]
        constructor
        · rintro ⟨rest, begins, rfl⟩
          exact ⟨List.cons_ne_nil _ _, Or.inr ⟨rest, rfl, begins⟩⟩
        · rintro ⟨something, empty | ⟨rest, rfl, begins⟩⟩
          · exact absurd empty something
          · exact ⟨rest, begins, rfl⟩
  simp only [wayDown, List.mem_map, proper, and_assoc]

/-- What lies on the way to a path, by the names. -/
theorem mem_wayTo (canonical : IsCanonical path) :
    place ∈ wayTo path ↔ IsCanonical place ∧ components place ≠ [] ∧ Within path place := by
  have isName : ∀ more, more <+: components path → ∀ name ∈ more, IsName name :=
    fun more begins name member => isName_of_mem_components canonical (begins.subset member)
  rw [wayTo, mem_wayDown]
  constructor
  · rintro ⟨more, something, begins, rfl⟩
    rw [List.nil_append, Within, components_render (isName more begins)]
    exact ⟨isCanonical_render (isName more begins), something, begins⟩
  · rintro ⟨canonicalPlace, something, within⟩
    exact ⟨components place, something, within, render_components canonicalPlace⟩

end VaultShell.Path
