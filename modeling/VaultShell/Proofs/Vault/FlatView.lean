import VaultShell.Proofs.Vault.WellFormed
import VaultShell.Vault.Basic

/-!
# The flat view is the tree

The flat view lists every node under the path that was put together on the way down to it.  A node is
looked up the other way round, by taking a path apart.  In a well-formed vault the two are inverse: the
names on the way down are names, so they are read back from the path, and no two ways down have one path.

So the flat view is the tree in another form.  Its keys are the canonical paths that lead somewhere, and
the entry under a key shows what can be seen there.

## Main definitions

* `Path.parent`: the path of the directory that holds a place
* `Node.ListedIn`: a list of the nodes of a tree, under their paths

## Main statements

* `Node.ListedIn.get?_render`: what is found in such a list
* `Node.mem_walk`: what the walk through a tree lists
* `Vault.get?_entries_render`, `Vault.get?_entries`: the entry under a path
* `Vault.entries_faithful`: the flat view as the map of the nodes
-/

namespace VaultShell

namespace Path

/-- The path of the directory that holds a place; the root is its own. -/
def parent (path : String) : String :=
  render (canonicalComponents path).dropLast

/-- The directory that holds the place of some names is the place of all but the last one. -/
theorem parent_render {names : List String} (h : ∀ name ∈ names, IsName name) :
    parent (render names) = render names.dropLast := by
  rw [parent, canonicalComponents_render h]

theorem isCanonical_parent (path : String) : IsCanonical (parent path) :=
  isCanonical_render fun _ member =>
    isName_of_mem_canonicalComponents (List.mem_of_mem_dropLast member)

/-- What is left when the last name is taken off is the path of the directory that holds the place. -/
theorem parent_normalize {path above name : String} (hsplit : split path = .ok (above, name)) :
    parent (normalize path) = above ∧ normalize path ≠ root := by
  obtain ⟨hnames, canonical⟩ := canonicalComponents_of_split hsplit
  rw [Ne, normalize_eq_root_iff, normalize,
    parent_render fun _ => isName_of_mem_canonicalComponents, hnames, List.dropLast_concat]
  exact ⟨canonical, by simp⟩

end Path

namespace Node

variable {node inner : Node} {above names rest : List String} {key : String} {entry : Entry}

/-- What lies at a name lies in a directory. -/
theorem exists_holder {front : List String} {last : String}
    (found : node.find? (front ++ [last]) = some inner) :
    ∃ holder, node.find? front = some holder ∧ holder.kind = .directory := by
  rw [find?_append] at found
  obtain ⟨holder, hholder, hinner⟩ := Option.bind_eq_some_iff.1 found
  cases holder with
  | file attributes content => cases hinner
  | directory attributes children => exact ⟨_, hholder, rfl⟩

/-- An entry shows nothing of the children. -/
@[simp] theorem entry_bare (node : Node) (path : String) : node.bare.entry path = node.entry path := by
  cases node <;> rfl

theorem walkChildren_eq (path : String) (children : List (String × Node)) :
    walkChildren path children =
      children.flatMap fun member => member.2.walk (Path.join path member.1) := by
  induction children with
  | nil => rfl
  | cons member rest ih =>
      obtain ⟨name, child⟩ := member
      rw [walkChildren, ih, List.flatMap_cons]

/-- A list has an entry for every node of a tree whose root stands where some names lead, under the
path to that node, and no other entries. -/
def ListedIn (node : Node) (above : List String) (members : List (String × Entry)) : Prop :=
  ∀ path entry, (path, entry) ∈ members ↔
    ∃ rest inner, node.find? rest = some inner ∧ path = Path.render (above ++ rest) ∧
      entry = inner.entry path

namespace ListedIn

variable {members : List (String × Entry)} {path : String}

/-- No two nodes of the tree have one path, so each is found under its own. -/
theorem get?_eq_some_iff (listed : node.ListedIn above members) (h : node.WellFormed)
    (habove : ∀ name ∈ above, Path.IsName name) :
    Catalog.get? (Catalog.ofList members) path = some entry ↔
      ∃ rest inner, node.find? rest = some inner ∧ path = Path.render (above ++ rest) ∧
        entry = inner.entry path := by
  rw [Catalog.get?_ofList_eq_some_iff, listed]
  intro other here there
  obtain ⟨rest, inner, found, hpath, rfl⟩ := (listed _ _).1 here
  obtain ⟨rest', inner', found', hpath', rfl⟩ := (listed _ _).1 there
  have all : ∀ {rest inner}, node.find? rest = some inner → ∀ name ∈ above ++ rest, Path.IsName name :=
    fun found => List.forall_mem_append.2 ⟨habove, h.isName_of_find? found⟩
  have same := Path.render_inj (all found) (all found') (hpath.symm.trans hpath')
  obtain rfl := List.append_cancel_left same
  rw [found] at found'
  obtain rfl := Option.some.inj found'
  rfl

/-- **The entry where some names lead** shows what can be seen there. -/
theorem get?_render (listed : node.ListedIn above members) (h : node.WellFormed)
    (hnames : ∀ name ∈ above ++ rest, Path.IsName name) :
    Catalog.get? (Catalog.ofList members) (Path.render (above ++ rest)) =
      (node.bareAt? rest).map fun seen => seen.entry (Path.render (above ++ rest)) := by
  obtain ⟨habove, -⟩ := List.forall_mem_append.1 hnames
  refine Option.ext fun entry => ?_
  rw [listed.get?_eq_some_iff h habove, bareAt?, Option.map_map, Option.map_eq_some_iff]
  constructor
  · rintro ⟨others, inner, found, same, rfl⟩
    have all : ∀ name ∈ above ++ others, Path.IsName name :=
      List.forall_mem_append.2 ⟨habove, h.isName_of_find? found⟩
    obtain rfl := List.append_cancel_left (Path.render_inj hnames all same)
    exact ⟨inner, found, entry_bare inner _⟩
  · rintro ⟨inner, found, rfl⟩
    exact ⟨rest, inner, found, rfl, entry_bare inner _⟩

end ListedIn

/-- **What the walk through a tree lists**: every node beneath, under the names that lead to it. -/
theorem mem_walk (h : node.WellFormed) (habove : ∀ name ∈ above, Path.IsName name) :
    (key, entry) ∈ node.walk (Path.render above) ↔
      ∃ rest inner, node.find? rest = some inner ∧ key = Path.render (above ++ rest) ∧
        entry = inner.entry key := by
  -- By induction on the tree: the names above a child are those above its directory and its own.
  induction h generalizing above with
  | file attributes content =>
      rw [walk, List.mem_singleton, Prod.mk.injEq]
      constructor
      · rintro ⟨rfl, rfl⟩
        exact ⟨[], _, rfl, by rw [List.append_nil], rfl⟩
      · rintro ⟨rest, inner, found, rfl, rfl⟩
        cases rest with
        | nil =>
            obtain rfl := Option.some.inj found
            rw [List.append_nil]
            exact ⟨rfl, rfl⟩
        | cons name rest => cases found
  | @directory attributes children sorted named beneath ih =>
      have below : ∀ member ∈ children, ∀ name ∈ above ++ [member.1], Path.IsName name := by
        intro member hmember
        exact List.forall_mem_append.2
          ⟨habove, List.forall_mem_singleton.2 (named member hmember).2⟩
      rw [walk, walkChildren_eq, List.mem_append, List.mem_flatMap, List.mem_singleton,
        Prod.mk.injEq]
      constructor
      · rintro (⟨member, hmember, inside⟩ | ⟨rfl, rfl⟩)
        · rw [Path.join_render habove, ih member hmember (below member hmember)] at inside
          obtain ⟨rest, inner, found, rfl, rfl⟩ := inside
          refine ⟨member.1 :: rest, inner, ?_, by simp, rfl⟩
          rw [find?_cons, (Catalog.get?_eq_some_iff sorted).2 hmember]
          exact found
        · exact ⟨[], _, rfl, by rw [List.append_nil], rfl⟩
      · rintro ⟨rest, inner, found, rfl, rfl⟩
        cases rest with
        | nil =>
            obtain rfl := Option.some.inj found
            rw [List.append_nil]
            exact Or.inr ⟨rfl, rfl⟩
        | cons name rest =>
            rw [find?_cons] at found
            obtain ⟨child, hchild, hrest⟩ := Option.bind_eq_some_iff.1 found
            have hmember := (Catalog.get?_eq_some_iff sorted).1 hchild
            refine Or.inl ⟨(name, child), hmember, ?_⟩
            rw [Path.join_render habove, ih _ hmember (below _ hmember)]
            exact ⟨rest, inner, hrest, by simp, rfl⟩

end Node

namespace Vault

variable {vault : Vault} {path : String} {entry : Entry} {names : List String}

theorem sorted_entries (vault : Vault) : Catalog.Sorted vault.entries :=
  Catalog.sorted_ofList _

theorem listedIn_walk (h : vault.root.WellFormed) :
    vault.root.ListedIn [] (vault.root.walk Path.root) := by
  intro path entry
  have atRoot : ∀ name ∈ ([] : List String), Path.IsName name := nofun
  exact Node.mem_walk h atRoot

/-- The entry under a path, by the names that lead there. -/
theorem get?_entries_eq_some_iff (h : vault.root.WellFormed) :
    Catalog.get? vault.entries path = some entry ↔
      ∃ names node, vault.root.find? names = some node ∧ path = Path.render names ∧
        entry = node.entry path :=
  (listedIn_walk h).get?_eq_some_iff h nofun

/-- The entry where some names lead shows what can be seen there. -/
theorem get?_entries_render (h : vault.root.WellFormed) (hnames : ∀ name ∈ names, Path.IsName name) :
    Catalog.get? vault.entries (Path.render names) =
      (vault.root.bareAt? names).map fun seen => seen.entry (Path.render names) :=
  (listedIn_walk h).get?_render h hnames

/-- Only canonical paths are keys. -/
theorem isCanonical_of_get?_entries (h : vault.root.WellFormed)
    (found : Catalog.get? vault.entries path = some entry) : Path.IsCanonical path := by
  obtain ⟨names, node, hnode, rfl, -⟩ := (get?_entries_eq_some_iff h).1 found
  exact Path.isCanonical_render (h.isName_of_find? hnode)

/-- **The entry under a canonical path** is that of the node there. -/
theorem get?_entries (h : vault.root.WellFormed) (canonical : Path.IsCanonical path) :
    Catalog.get? vault.entries path = (vault.find? path).map fun node => node.entry path := by
  have found := get?_entries_render h fun _ => Path.isName_of_mem_components canonical
  rw [Path.render_components canonical, Node.bareAt?, Option.map_map] at found
  rw [found, find?]
  refine Option.map_congr fun node _ => ?_
  exact Node.entry_bare node path

/-- The kind that an entry shows is that of what is there. -/
theorem map_kind_get?_entries (h : vault.root.WellFormed) (canonical : Path.IsCanonical path) :
    (Catalog.get? vault.entries path).map Entry.kind = vault.kindAt? path := by
  rw [get?_entries h canonical, Option.map_map]
  rfl

/-- **The flat view is the tree.**  Its keys are the canonical paths of nodes, in order, and under each
of them stands what the node there shows.  No two nodes have one path, no node is missing, and what holds
an entry, the root apart, is a directory with an entry of its own. -/
theorem entries_faithful (h : vault.WellFormed) :
    (∀ path entry, Catalog.get? vault.entries path = some entry ↔
      Path.normalize path = path ∧ ∃ node, vault.find? path = some node ∧
        entry = ⟨path, node.kind, node.size, node.modified, node.permissions.bits⟩) ∧
      Catalog.Sorted vault.entries ∧
      (∀ names node, vault.root.find? names = some node →
        Catalog.get? vault.entries (Path.render names) = some (node.entry (Path.render names)) ∧
        ∀ others other, vault.root.find? others = some other →
          Path.render others = Path.render names → others = names) ∧
      ∀ path ∈ Catalog.names vault.entries, path ≠ Path.root →
        ∃ entry, Catalog.get? vault.entries (Path.parent path) = some entry ∧
          entry.kind = .directory := by
  refine ⟨?_, sorted_entries vault, ?_, ?_⟩
  · intro path entry
    constructor
    · intro found
      have canonical := isCanonical_of_get?_entries h.tree found
      rw [get?_entries h.tree canonical] at found
      obtain ⟨node, hnode, rfl⟩ := Option.map_eq_some_iff.1 found
      exact ⟨canonical, node, hnode, rfl⟩
    · rintro ⟨canonical, node, hnode, rfl⟩
      rw [get?_entries h.tree canonical, hnode]
      rfl
  · intro names node found
    have isName := h.tree.isName_of_find? found
    refine ⟨(get?_entries_eq_some_iff h.tree).2 ⟨names, node, found, rfl, rfl⟩, ?_⟩
    intro others other foundOther same
    exact Path.render_inj (h.tree.isName_of_find? foundOther) isName same
  · intro path member notRoot
    obtain ⟨⟨_, entry⟩, hmember, rfl⟩ := List.mem_map.1 member
    have listed := (Catalog.get?_eq_some_iff (sorted_entries vault)).2 hmember
    obtain ⟨names, node, found, rfl, -⟩ := (get?_entries_eq_some_iff h.tree).1 listed
    have isName := h.tree.isName_of_find? found
    have something : names ≠ [] := by
      rintro rfl
      exact notRoot Path.render_nil
    obtain ⟨front, last, rfl⟩ := (List.eq_nil_or_concat' names).resolve_left something
    obtain ⟨holder, hholder, directory⟩ := Node.exists_holder found
    rw [Path.parent_render isName, List.dropLast_concat]
    exact ⟨holder.entry _, (get?_entries_eq_some_iff h.tree).2 ⟨front, holder, hholder, rfl, rfl⟩,
      directory⟩

/-- A directory and a file whose names begin alike, and a file in the directory. -/
theorem entries_faithful_alike :
    let vault := ((Workbench.start .origin).run [.createDirectory "/a" .origin,
      .createFile "/ab" "" .origin, .createFile "/a/./b" "text" .origin]).vault
    vault.WellFormed ∧ Catalog.names vault.entries = ["/", "/a", "/a/b", "/ab"] ∧
      Catalog.get? vault.entries "/a/b" = some ⟨"/a/b", .file, 4, .origin, 420⟩ ∧
      ∃ entry, Catalog.get? vault.entries (Path.parent "/a/b") = some entry ∧
        entry.kind = .directory := by
  intro vault
  have wellFormed : vault.WellFormed := ((Workbench.sound_start .origin).run _).vault
  have keys : Catalog.names vault.entries = ["/", "/a", "/a/b", "/ab"] := by decide +kernel
  obtain ⟨shown, -, -, held⟩ := entries_faithful wellFormed
  refine ⟨wellFormed, keys, (shown _ _).2 ⟨by decide +kernel, ?_⟩, held "/a/b" ?_ (by decide)⟩
  · have there : ∃ node, vault.find? "/a/b" = some node ∧
        node = .newFile "b" "text" .origin := ⟨_, rfl, rfl⟩
    obtain ⟨node, found, rfl⟩ := there
    exact ⟨_, found, by decide +kernel⟩
  · rw [keys]
    decide

end Vault

end VaultShell
