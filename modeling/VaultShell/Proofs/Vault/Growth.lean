import VaultShell.Proofs.Vault.Pruning

/-!
# Vaults that gained directories

A new directory is put at a free place, and nothing else can be told from the vault before, not even
of the directory that holds the place.  So of several directories that are created, one after the other,
a later one may lie in an earlier one, and in the end each of them is what it was made to be.

What a new directory holds can then be read off the vault, since its children are in order: under its
place nothing was before, so there are just those names that lead to another new directory.

## Main definitions

* `Vault.Grown`: a vault with new directories at some paths

## Main statements

* `Vault.Grown.trans`: one after the other
* `Vault.grown_createDirectory`: a directory that is created
* `Node.WellFormed.names_eq`: the names of the children, read off the paths
-/

namespace VaultShell

namespace Catalog

theorem mem_names_iff {α : Type} {entries : Catalog α} (sorted : Sorted entries) {name : String} :
    name ∈ names entries ↔ ∃ value, get? entries name = some value := by
  simp [names, get?_eq_some_iff sorted]

theorem nodup_names {α : Type} {entries : Catalog α} (sorted : Sorted entries) :
    (names entries).Nodup := by
  refine List.pairwise_map.2 (sorted.imp ?_)
  intro a b less same
  rw [same] at less
  exact String.lt_irrefl _ less

end Catalog

namespace Vault

/-- **A vault with new directories at some paths**, each of them without children of its own accord, and
with nothing else changed. -/
structure Grown (paths : List String) (time : Instant) (vault after : Vault) : Prop where
  free : ∀ path ∈ paths, vault.bareAt? path = none
  new : ∀ path ∈ paths, ∃ name, (Path.components path).getLast? = some name ∧
    after.bareAt? path = some (.newDirectory name time)
  same : ∀ names, (∀ path ∈ paths, Path.components path ≠ names) →
    after.root.bareAt? names = vault.root.bareAt? names

namespace Grown

variable {paths more : List String} {time : Instant} {vault between after : Vault}
  {names : List String}

theorem refl (vault : Vault) : Grown [] time vault vault where
  free path member := by cases member
  new path member := by cases member
  same names outside := rfl

/-- **What was there is there.** -/
theorem kept (grown : Grown paths time vault after) {seen : Node}
    (there : vault.root.bareAt? names = some seen) : after.root.bareAt? names = some seen := by
  rw [grown.same, there]
  rintro path member rfl
  have free := grown.free path member
  rw [Vault.bareAt?, there] at free
  cases free

theorem kindAt?_eq_some (grown : Grown paths time vault after) {kind : Kind}
    (there : vault.root.kindAt? names = some kind) : after.root.kindAt? names = some kind := by
  rw [Node.kindAt?_eq] at there ⊢
  obtain ⟨seen, found, rfl⟩ := Option.map_eq_some_iff.1 there
  rw [grown.kept found]
  rfl

/-- The new directories are directories. -/
theorem isDirectory_of_mem (grown : Grown paths time vault after) {path : String}
    (member : path ∈ paths) : after.isDirectory path = true := by
  obtain ⟨name, -, found⟩ := grown.new path member
  rw [isDirectory_eq_true_iff, kindAt?, Node.kindAt?_eq, ← bareAt?, found]
  rfl

theorem trans (first : Grown paths time vault between) (second : Grown more time between after) :
    Grown (paths ++ more) time vault after where
  free path member := by
    rcases List.mem_append.1 member with earlier | later
    · exact first.free path earlier
    · cases there : vault.bareAt? path with
      | none => rfl
      | some seen =>
          have free := second.free path later
          rw [Vault.bareAt?, first.kept there] at free
          cases free
  new path member := by
    rcases List.mem_append.1 member with earlier | later
    · obtain ⟨name, last, found⟩ := first.new path earlier
      exact ⟨name, last, second.kept found⟩
    · exact second.new path later
  same names outside := by
    rw [second.same names fun path later => outside path (List.mem_append_right _ later),
      first.same names fun path earlier => outside path (List.mem_append_left _ earlier)]

end Grown

variable {vault after : Vault} {path : String} {time : Instant}

/-- **A directory that is created.**  Nothing can be beneath it, before or after. -/
theorem grown_createDirectory (canonical : Path.IsCanonical path)
    (created : vault.createDirectory path time = .ok after) : Grown [path] time vault after := by
  have names := Path.components_eq_canonicalComponents canonical
  obtain ⟨outside, free, parent, name, hsplit, made⟩ := create_eq_ok created
  rw [← names] at outside free made
  refine
    { free := ?_
      new := ?_
      same := ?_ }
  · intro other member
    rw [List.mem_singleton.1 member]
    exact Node.bareAt?_eq_none_iff.2 free
  · intro other member
    rw [List.mem_singleton.1 member]
    refine ⟨name, ?_, ?_⟩
    · rw [names, (Path.canonicalComponents_of_split hsplit).1, List.getLast?_concat]
    · rw [Vault.bareAt?, Node.bareAt?, made]
      rfl
  · intro others elsewhere
    by_cases begins : Path.components path <+: others
    · obtain ⟨rest, rfl⟩ := begins
      cases rest with
      | nil => exact absurd (List.append_nil _).symm (elsewhere path List.mem_cons_self)
      | cons first rest =>
          rw [Node.bareAt?, Node.bareAt?, Node.find?_append, Node.find?_append, free, made]
          rfl
    · exact outside others begins

end Vault

/-- **The names of the children, read off the paths.**  Among children in order no name stands twice, so
to know which names lead on is to know the list. -/
theorem Node.WellFormed.names_eq {root : Node} (wellFormed : root.WellFormed) {names : List String}
    {attributes : Attributes} {children : List (String × Node)}
    (found : root.find? names = some (.directory attributes children)) {more : List String}
    (atMostOne : more.length ≤ 1)
    (leads : ∀ name, name ∈ more ↔ ∃ seen, root.bareAt? (names ++ [name]) = some seen) :
    Catalog.names children = more := by
  have whole := wellFormed.find? found
  cases whole with
  | directory _ sorted named beneath =>
      have same : ∀ name, name ∈ Catalog.names children ↔ name ∈ more := by
        intro name
        rw [leads, Catalog.mem_names_iff sorted, Node.bareAt?, Node.find?_append, found]
        show _ ↔ ∃ seen, ((Node.directory attributes children).find? [name]).map Node.bare = some seen
        rw [Node.find?_cons]
        cases Catalog.get? children name <;> simp
      have nodup := Catalog.nodup_names sorted
      match more, atMostOne with
      | [], _ =>
          have perm := (List.perm_ext_iff_of_nodup nodup List.nodup_nil).2 same
          exact perm.eq_nil
      | [name], _ =>
          have perm := (List.perm_ext_iff_of_nodup nodup (by simp)).2 same
          exact List.perm_singleton.1 perm

end VaultShell
