import VaultShell.Proofs.Vault.WellFormed

/-!
# Paths with dots in them

A place to change is named by the canonical form of a path, so dots in the path are resolved.  A lookup
takes the path as it stands: it passes over empty segments, but it looks for a dot segment among the
children, and no node goes by such a name.  So what was created at a path with dots in it is not found
there.  It is found under the canonical form of the path.

How many slashes a path has, and where, makes no difference: the two readings agree on every path
without dots.  So a path means the same node to a lookup and to a change exactly if no segment of it is
a dot segment.

## Main definitions

* `Path.Dotless`: a path without dot segments

## Main statements

* `Path.components_eq_canonicalComponents_iff`: where the two readings of a path agree
* `Vault.find?_eq`: what a lookup finds
* `Vault.found_iff_dotless`: what was created is found, and what is found can be removed, on paths
  without dots
-/

namespace VaultShell

/-! ## The two readings of a path -/

namespace Path

variable {path name : String}

/-- No segment of the path is one of the two dot segments. -/
def Dotless (path : String) : Prop :=
  ∀ segment ∈ segments path, segment ≠ "." ∧ segment ≠ ".."

instance (path : String) : Decidable (Dotless path) :=
  inferInstanceAs (Decidable (∀ segment ∈ segments path, _))

/-- A path without dots is one whose segments, the empty ones apart, are names. -/
theorem dotless_iff : Dotless path ↔ ∀ name ∈ components path, IsName name := by
  constructor
  · intro dotless name member
    obtain ⟨hsegment, something⟩ := List.mem_filter.1 member
    obtain ⟨notHere, notUp⟩ := dotless name hsegment
    exact ⟨of_decide_eq_true something, not_slash_of_mem_segments hsegment, notHere, notUp⟩
  · intro named segment hsegment
    by_cases empty : segment = ""
    · subst empty
      decide
    · have member : segment ∈ components path :=
        List.mem_filter.2 ⟨hsegment, decide_eq_true empty⟩
      obtain ⟨-, -, notHere, notUp⟩ := named segment member
      exact ⟨notHere, notUp⟩

/-- Empty segments are passed over in both readings. -/
theorem canonicalComponents_eq (path : String) :
    canonicalComponents path = ((components path).foldl enter []).reverse := by
  rw [canonicalComponents, components, List.foldl_filter]
  congr 2
  funext stack segment
  by_cases empty : segment = "" <;> simp [empty]

/-- **Where the two readings of a path agree.** -/
theorem components_eq_canonicalComponents_iff :
    components path = canonicalComponents path ↔ Dotless path := by
  rw [dotless_iff]
  constructor
  · -- Resolving leaves names only, so a dot segment that is still there is in one reading alone.
    intro agree name member
    rw [agree] at member
    exact isName_of_mem_canonicalComponents member
  · intro named
    rw [canonicalComponents_eq, foldl_enter_of_isName named, List.append_nil, List.reverse_reverse]

end Path

/-! ## What is found -/

namespace Vault

variable {vault after : Vault} {path : String}

/-- A path that leads somewhere has no dots in it. -/
theorem dotless_of_has (h : vault.root.WellFormed) (found : vault.has path = true) :
    Path.Dotless path := by
  obtain ⟨node, found⟩ := Option.isSome_iff_exists.1 found
  exact Path.dotless_iff.2 (h.isName_of_find? found)

/-- **What a lookup finds**: without dots what is under the canonical form of the path, with dots
nothing. -/
theorem find?_eq (h : vault.root.WellFormed) (path : String) :
    vault.find? path = if Path.Dotless path then vault.find? (Path.normalize path) else none := by
  split
  case isTrue dotless =>
    rw [find?_normalize, find?, Path.components_eq_canonicalComponents_iff.2 dotless]
  case isFalse dots =>
    cases found : vault.find? path with
    | none => rfl
    | some node =>
        have there : vault.has path = true := Option.isSome_iff_exists.2 ⟨node, found⟩
        exact absurd (dotless_of_has h there) dots

/-- What was created is under the canonical form of the path. -/
theorem find?_normalize_of_create {make : String → Node}
    (created : vault.create path make = .ok after) :
    ∃ name, after.find? (Path.normalize path) = some (make name) := by
  obtain ⟨-, -, parent, name, -, made⟩ := create_eq_ok created
  exact ⟨name, (find?_normalize after path).trans made⟩

/-- What a lookup says of a path, by what it says of the canonical form. -/
theorem has_iff (h : vault.root.WellFormed) (path : String) :
    vault.has path = true ↔ Path.Dotless path ∧ vault.has (Path.normalize path) = true := by
  rw [has, has, find?_eq h path]
  split <;> simp [*]

/-- A file that was created is read under the canonical form of its path, and under the path itself if
there are no dots in it. -/
theorem read_of_createFile {content : String} {time : Instant} (h : vault.WellFormed)
    (created : vault.createFile path content time = .ok after) :
    after.read (Path.normalize path) = .ok content ∧
      (after.read path = if Path.Dotless path then .ok content else .error .notFound) ∧
      (after.has path = true ↔ Path.Dotless path) := by
  obtain ⟨name, found⟩ := find?_normalize_of_create created
  have whole := (h.createFile created).tree
  refine ⟨?_, ?_, ?_⟩
  · rw [read, found]
    rfl
  · rw [read, find?_eq whole path, found]
    by_cases dotless : Path.Dotless path
    · rw [if_pos dotless, if_pos dotless]
      rfl
    · rw [if_neg dotless, if_neg dotless]
  · rw [has_iff whole, has, found]
    exact and_iff_left rfl

/-- A directory that was created is found under the canonical form of its path, and under the path
itself if there are no dots in it. -/
theorem isDirectory_of_createDirectory {time : Instant} (h : vault.WellFormed)
    (created : vault.createDirectory path time = .ok after) :
    after.isDirectory (Path.normalize path) = true ∧
      (after.isDirectory path = true ↔ Path.Dotless path) := by
  obtain ⟨name, found⟩ := find?_normalize_of_create created
  have whole := (h.createDirectory created).tree
  refine ⟨?_, ?_⟩
  · rw [isDirectory, found]
    rfl
  · rw [isDirectory, find?_eq whole path, found]
    by_cases dotless : Path.Dotless path
    · rw [if_pos dotless]
      exact iff_of_true rfl dotless
    · rw [if_neg dotless]
      exact iff_of_false nofun dotless

/-- **A path means the same node to a lookup and to a change exactly if it has no dots in it**, in every
vault that operations lead to.  What was created is then found under the path that it was created at,
and a path that leads somewhere is one at which something can be removed.  With dots in it a path leads
nowhere, and only its canonical form tells what was created and what can be removed. -/
theorem found_iff_dotless (time : Instant) (operations : List Operation) (path : String) :
    let vault := ((Workbench.start time).run operations).vault
    (∀ content now after, vault.createFile path content now = .ok after →
      after.read (Path.normalize path) = .ok content ∧
      (after.read path = if Path.Dotless path then .ok content else .error .notFound) ∧
      (after.has path = true ↔ Path.Dotless path)) ∧
    (∀ now after, vault.createDirectory path now = .ok after →
      after.isDirectory (Path.normalize path) = true ∧
      (after.isDirectory path = true ↔ Path.Dotless path)) ∧
    (Path.normalize path ≠ Path.root →
      (vault.has (Path.normalize path) = true ↔ ∃ removed, vault.remove path = .ok removed) ∧
      (vault.has path = true ↔ Path.Dotless path ∧ ∃ removed, vault.remove path = .ok removed)) := by
  intro vault
  have wellFormed : vault.WellFormed := ((Workbench.sound_start time).run operations).vault
  refine ⟨?_, ?_, ?_⟩
  · intro content now after created
    exact read_of_createFile wellFormed created
  · intro now after created
    exact isDirectory_of_createDirectory wellFormed created
  · intro notRoot
    have removable : vault.has (Path.normalize path) = true ↔
        ∃ removed, vault.remove path = .ok removed := by
      rw [exists_remove_iff]
      exact (and_iff_right notRoot).symm
    exact ⟨removable, by rw [has_iff wellFormed.tree, removable]⟩

/-- Slashes too many and one at the end: what was created there is read there. -/
theorem found_iff_dotless_slashes :
    let operations : List Operation := [.createDirectory "a" .origin]
    let vault := ((Workbench.start .origin).run operations).vault
    (∃ after, vault.createFile "a//b/" "text" .origin = .ok after ∧
      after.read "a//b/" = .ok "text" ∧ after.has "a//b/" = true) ∧
    (∃ after, vault.createDirectory "a//b/" .origin = .ok after ∧
      after.isDirectory "a//b/" = true) ∧
    Path.normalize "//a" ≠ Path.root ∧ vault.has "//a" = true ∧
      ∃ removed, vault.remove "//a" = .ok removed := by
  intro operations vault
  have dotless : Path.Dotless "a//b/" := by decide +kernel
  obtain ⟨files, directories, -⟩ := found_iff_dotless .origin operations "a//b/"
  obtain ⟨-, -, removals⟩ := found_iff_dotless .origin operations "//a"
  have notRoot : Path.normalize "//a" ≠ Path.root := by decide +kernel
  have there : vault.has "//a" = true := by decide +kernel
  refine ⟨?_, ?_, notRoot, there, ((removals notRoot).2.1 there).2⟩
  · obtain ⟨after, created⟩ : ∃ after, vault.createFile "a//b/" "text" .origin = .ok after :=
      ⟨_, rfl⟩
    obtain ⟨-, reads, found⟩ := files _ _ _ created
    rw [if_pos dotless] at reads
    exact ⟨after, created, reads, found.2 dotless⟩
  · obtain ⟨after, created⟩ : ∃ after, vault.createDirectory "a//b/" .origin = .ok after :=
      ⟨_, rfl⟩
    exact ⟨after, created, (directories _ _ created).2.2 dotless⟩

/-- A file and a directory that were created at a path with a dot are not found there, though they can
be removed there. -/
theorem not_found_created_dotted :
    let vault := ((Workbench.start .origin).run []).vault
    (∃ after, vault.createFile "/./a" "x" .origin = .ok after ∧
      after.read "/./a" = .error .notFound ∧ after.has "/./a" = false ∧
      Path.normalize "/./a" ≠ Path.root ∧ ∃ removed, after.remove "/./a" = .ok removed) ∧
    ∃ after, vault.createDirectory "/./a" .origin = .ok after ∧ after.isDirectory "/./a" = false := by
  refine ⟨⟨_, rfl, by decide +kernel, by decide +kernel, by decide +kernel, _, rfl⟩, _, rfl, ?_⟩
  decide +kernel

end Vault

end VaultShell
