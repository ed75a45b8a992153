import VaultShell.Proofs.Vault.Hereditary

/-!
# Well-formed vaults

A node has its name twice: it carries the name itself, and the directory above it keeps it under a
name.  Nothing in the types says that the two are one, that a name is one that a path can lead to, or
that the children of a directory are in order, so that each name stands there once.  That all of this
is so is what the shape of a vault means, and this module shows that no operation can break it.

A place is always named by a path in its canonical form, so whatever text the path is, what a node is
put under is a name.  And a node that is put somewhere is given the name of the place on the way.

## Main definitions

* `Node.WellFormed`, `Vault.WellFormed`: the shape of trees and of vaults
* `Vault.Operation`, `Workbench`: the operations of a vault, with the nodes that were taken out

## Main statements

* `Node.wellFormed_iff`: the shape of a tree is a local property of all its nodes
* `Vault.WellFormed.create`, `Vault.WellFormed.remove`, `Vault.WellFormed.place`,
  `Vault.WellFormed.stamp?`: each of the changes keeps the shape
* `Workbench.Sound.run`: so does any list of operations
-/

namespace VaultShell

namespace Node

/-- **The shape of trees**: at every directory the children are in the order of their names, and each
of them is kept under the name that it carries, which is one that a path can lead to. -/
inductive WellFormed : Node → Prop
  | file (attributes : Attributes) (content : String) : WellFormed (.file attributes content)
  | directory (attributes : Attributes) {children : List (String × Node)}
      (sorted : Catalog.Sorted children)
      (named : ∀ member ∈ children, member.2.name = member.1 ∧ Path.IsName member.1)
      (beneath : ∀ member ∈ children, WellFormed member.2) :
      WellFormed (.directory attributes children)

/-- The shape of a single directory. -/
def Shaped : Node → Prop
  | .file .. => True
  | .directory _ children => Catalog.Sorted children ∧
      ∀ member ∈ children, member.2.name = member.1 ∧ Path.IsName member.1

theorem shaped_mapAttributes (f : Attributes → Attributes) (node : Node) (h : node.Shaped) :
    (node.mapAttributes f).Shaped := by
  cases node with
  | file attributes content => trivial
  | directory attributes children => exact h

/-- A node put in under its name finds its place in the order. -/
theorem shaped_put {attributes : Attributes} {children : List (String × Node)} {name : String}
    {new : Node} (named : new.name = name) (isName : Path.IsName name)
    (h : (Node.directory attributes children).Shaped) :
    (Node.directory attributes (Catalog.put children name new)).Shaped := by
  obtain ⟨sorted, allNamed⟩ := h
  refine ⟨Catalog.sorted_put sorted name new, ?_⟩
  intro member hmember
  rcases Catalog.mem_put hmember with rfl | old
  · exact ⟨named, isName⟩
  · exact allNamed member old

theorem local_shaped : Local Shaped where
  replace := by
    intro attributes children name old new found same h
    obtain ⟨named, isName⟩ := h.2 _ (Catalog.mem_of_get? found)
    exact shaped_put (same.trans named) isName h
  put := shaped_put
  erase := by
    rintro attributes children name ⟨sorted, named⟩
    have old := (Catalog.erase_sublist children name).subset
    exact ⟨Catalog.sorted_erase sorted name, fun member hmember => named member (old hmember)⟩

/-- **The shape of a tree is that of all its directories.** -/
theorem wellFormed_iff {node : Node} : node.WellFormed ↔ node.Hereditary Shaped := by
  constructor
  · intro h
    induction h with
    | file attributes content => exact .file trivial
    | directory attributes sorted named beneath ih => exact .directory ⟨sorted, named⟩ ih
  · intro h
    induction h with
    | file here => exact .file _ _
    | directory here beneath ih => exact .directory _ here.1 here.2 ih

theorem wellFormed_newFile (name content : String) (time : Instant) :
    (newFile name content time).WellFormed :=
  .file _ content

theorem wellFormed_newDirectory (name : String) (time : Instant) :
    (newDirectory name time).WellFormed :=
  .directory _ List.Pairwise.nil (List.forall_mem_nil _) (List.forall_mem_nil _)

namespace WellFormed

variable {node held : Node} {name : String} {names : List String}
  {attributes : Attributes} {children : List (String × Node)}

/-- What a name leads to carries the name and is well-formed itself. -/
theorem child (h : (Node.directory attributes children).WellFormed)
    (found : Catalog.get? children name = some held) :
    held.WellFormed ∧ held.name = name ∧ Path.IsName name := by
  cases h with
  | directory _ sorted named beneath =>
      have member := Catalog.mem_of_get? found
      exact ⟨beneath _ member, named _ member⟩

/-- The trees beneath are well-formed. -/
theorem find? (h : node.WellFormed) {found : Node} (hfound : node.find? names = some found) :
    found.WellFormed :=
  wellFormed_iff.2 ((wellFormed_iff.1 h).find? hfound)

/-- Names lead to a node only if a path can lead along them. -/
theorem isName_of_find? (h : node.WellFormed) (found : node.find? names = some held) :
    ∀ name ∈ names, Path.IsName name := by
  induction names generalizing node with
  | nil =>
      intro name member
      cases member
  | cons first rest ih =>
      cases node with
      | file attributes content => cases found
      | directory attributes children =>
          rw [find?_cons] at found
          obtain ⟨child, hchild, hrest⟩ := Option.bind_eq_some_iff.1 found
          obtain ⟨wellFormed, -, isName⟩ := h.child hchild
          exact List.forall_mem_cons.2 ⟨isName, ih wellFormed hrest⟩

/-- The attributes of a node are no matter for the tree beneath it. -/
theorem mapAttributes (h : node.WellFormed) (f : Attributes → Attributes) :
    (node.mapAttributes f).WellFormed :=
  wellFormed_iff.2 ((wellFormed_iff.1 h).mapAttributes (shaped_mapAttributes f))

end WellFormed

end Node

namespace Vault

/-- **The shape of vaults**: a well-formed tree whose root is a directory with the root's path for a
name. -/
structure WellFormed (vault : Vault) : Prop where
  name_eq : vault.root.name = Path.root
  isDirectory : vault.root.isDirectory = true
  tree : vault.root.WellFormed

theorem wellFormed_empty (time : Instant) : (empty time).WellFormed where
  name_eq := rfl
  isDirectory := rfl
  tree := Node.wellFormed_newDirectory Path.root time

namespace WellFormed

variable {vault after : Vault} {path : String}

/-- A change whose root can stand where the old root stood keeps the shape. -/
theorem of_standsFor (h : vault.WellFormed) (stands : after.root.StandsFor Node.Shaped vault.root) :
    after.WellFormed where
  name_eq := stands.name_eq.trans h.name_eq
  isDirectory := stands.isDirectory_eq.trans h.isDirectory
  tree := Node.wellFormed_iff.2 (stands.hereditary (Node.wellFormed_iff.1 h.tree))

/-- Creating a node that goes by the name it is made for keeps the shape. -/
theorem create {make : String → Node}
    (made : ∀ name, (make name).WellFormed ∧ (make name).name = name)
    (h : vault.WellFormed) (created : vault.create path make = .ok after) : after.WellFormed := by
  refine h.of_standsFor (standsFor_create Node.local_shaped ?_ created)
  intro parent name _
  obtain ⟨wellFormed, named⟩ := made name
  exact ⟨Node.wellFormed_iff.1 wellFormed, named⟩

theorem createFile {content : String} {time : Instant} (h : vault.WellFormed)
    (created : vault.createFile path content time = .ok after) : after.WellFormed :=
  h.create (fun name => ⟨Node.wellFormed_newFile name content time, rfl⟩) created

theorem createDirectory {time : Instant} (h : vault.WellFormed)
    (created : vault.createDirectory path time = .ok after) : after.WellFormed :=
  h.create (fun name => ⟨Node.wellFormed_newDirectory name time, rfl⟩) created

/-- Removing keeps the shape, of the vault and of what is handed back. -/
theorem remove {node : Node} (h : vault.WellFormed)
    (removed : vault.remove path = .ok (node, after)) : after.WellFormed ∧ node.WellFormed :=
  ⟨h.of_standsFor (standsFor_remove Node.local_shaped removed), h.tree.find? (remove_eq_ok removed).2⟩

/-- **What was removed is gone**: among children in order a name stands once, so nothing comes to light
behind it. -/
theorem find?_remove {node : Node} (h : vault.WellFormed)
    (removed : vault.remove path = .ok (node, after)) (rest : List String) :
    after.root.find? (Path.canonicalComponents path ++ rest) = none := by
  obtain ⟨parent, name, attributes, children, changed, -, hparent, hchange, -, found⟩ :=
    alterPlace_eq_ok onlyAt_remove removed
  rw [found rest]
  cases held : Catalog.get? children name with
  | none => simp [held] at hchange
  | some child =>
      simp only [held, Except.ok.injEq, Prod.mk.injEq] at hchange
      obtain ⟨-, rfl⟩ := hchange
      have whole := h.tree.find? hparent
      cases whole with
      | directory _ sorted named beneath =>
          rw [Catalog.get?_erase sorted, if_pos rfl]
          rfl

/-- Placing keeps the shape, whatever the node was called before. -/
theorem place {node : Node} (h : vault.WellFormed) (hnode : node.WellFormed)
    (placed : vault.place path node = .ok after) : after.WellFormed := by
  have renamed : ∀ name (n : Node), n.Shaped → (n.rename name).Shaped :=
    fun _ => Node.shaped_mapAttributes _
  exact h.of_standsFor (standsFor_place Node.local_shaped (fun _ name _ => renamed name)
    (Node.wellFormed_iff.1 hnode) placed)

/-- Setting a modification time keeps the shape. -/
theorem stamp? {time : Instant} (h : vault.WellFormed) (stamped : vault.stamp? path time = some after) :
    after.WellFormed :=
  h.of_standsFor (standsFor_stamp? Node.local_shaped (Node.shaped_mapAttributes _) stamped)

end WellFormed

/-! ## Operations, one after the other -/

/-- The operations of a vault.  A node that is placed was removed before, or it is a new one, of any
name. -/
inductive Operation where
  | createFile (path content : String) (time : Instant)
  | createDirectory (path : String) (time : Instant)
  | remove (path : String)
  /-- Places a node that was removed, the last one removed being number 0. -/
  | placeRemoved (path : String) (index : Nat)
  | placeFile (path name content : String) (time : Instant)
  | placeDirectory (path name : String) (time : Instant)
  | stamp (path : String) (time : Instant)

end Vault

/-- A vault and the nodes that have been removed from it, the last one first. -/
structure Workbench where
  vault : Vault
  removed : List Node

namespace Workbench

/-- An empty vault. -/
def start (time : Instant) : Workbench :=
  ⟨.empty time, []⟩

/-- The vault that an operation gives; if it is refused, the one before. -/
def keep (bench : Workbench) : Except Fault Vault → Workbench
  | .ok vault => { bench with vault }
  | .error _ => bench

/-- One operation. -/
def apply (bench : Workbench) : Vault.Operation → Workbench
  | .createFile path content time => bench.keep (bench.vault.createFile path content time)
  | .createDirectory path time => bench.keep (bench.vault.createDirectory path time)
  | .remove path =>
    match bench.vault.remove path with
    | .ok (node, vault) => ⟨vault, node :: bench.removed⟩
    | .error _ => bench
  | .placeRemoved path index =>
    match bench.removed[index]? with
    | some node => bench.keep (bench.vault.place path node)
    | none => bench
  | .placeFile path name content time =>
    bench.keep (bench.vault.place path (.newFile name content time))
  | .placeDirectory path name time =>
    bench.keep (bench.vault.place path (.newDirectory name time))
  | .stamp path time =>
    match bench.vault.stamp? path time with
    | some vault => { bench with vault }
    | none => bench

/-- Operations, one after the other. -/
def run (bench : Workbench) (operations : List Vault.Operation) : Workbench :=
  operations.foldl apply bench

/-- **The vault is well-formed, and so is what was taken out of it.** -/
structure Sound (bench : Workbench) : Prop where
  vault : bench.vault.WellFormed
  removed : ∀ node ∈ bench.removed, node.WellFormed

theorem sound_start (time : Instant) : (start time).Sound where
  vault := Vault.wellFormed_empty time
  removed node hnode := by cases hnode

namespace Sound

variable {bench : Workbench}

theorem keep (sound : bench.Sound) {result : Except Fault Vault}
    (wellFormed : ∀ vault, result = .ok vault → vault.WellFormed) : (bench.keep result).Sound := by
  cases result with
  | ok vault => exact ⟨wellFormed vault rfl, sound.removed⟩
  | error fault => exact sound

/-- **One operation keeps the shape**, whatever it is and whether or not it is refused. -/
theorem apply (sound : bench.Sound) (operation : Vault.Operation) : (bench.apply operation).Sound := by
  cases operation with
  | createFile path content time => exact sound.keep fun _ created => sound.vault.createFile created
  | createDirectory path time => exact sound.keep fun _ created => sound.vault.createDirectory created
  | remove path =>
      simp only [Workbench.apply]
      split
      case h_1 node vault removed =>
        obtain ⟨without, taken⟩ := sound.vault.remove removed
        refine ⟨without, ?_⟩
        intro other hother
        rcases List.mem_cons.1 hother with rfl | old
        · exact taken
        · exact sound.removed other old
      case h_2 => exact sound
  | placeRemoved path index =>
      simp only [Workbench.apply]
      split
      case h_1 node held =>
        have wellFormed := sound.removed node (List.mem_of_getElem? held)
        exact sound.keep fun _ placed => sound.vault.place wellFormed placed
      case h_2 => exact sound
  | placeFile path name content time =>
      have wellFormed := Node.wellFormed_newFile name content time
      exact sound.keep fun _ placed => sound.vault.place wellFormed placed
  | placeDirectory path name time =>
      have wellFormed := Node.wellFormed_newDirectory name time
      exact sound.keep fun _ placed => sound.vault.place wellFormed placed
  | stamp path time =>
      simp only [Workbench.apply]
      split
      case h_1 vault stamped => exact ⟨sound.vault.stamp? stamped, sound.removed⟩
      case h_2 => exact sound

/-- **Any list of operations keeps the shape.** -/
theorem run (sound : bench.Sound) (operations : List Vault.Operation) :
    (bench.run operations).Sound := by
  induction operations generalizing bench with
  | nil => exact sound
  | cons operation rest ih => exact ih (sound.apply operation)

end Sound

end Workbench

end VaultShell
