import VaultShell.Proofs.Vault.Frame
import VaultShell.Vault.Initial

/-!
# What holds of every node

An invariant of the vault often speaks about each node for itself: about its name, its content or its
modification time.  Or it speaks about a directory and the names of its children, but not about what
lies further down.  In both cases it is one property that all nodes of the tree have.

Every change of the tree is made of old nodes and of at most one new one.  So the tree keeps the
property if the new node has it and if the directories on the way keep it.  All that happens to these
is that a child gives way to one of the same name, or that at the place itself a child is put in or
taken out; a property that this does not disturb is *local*.

## Main definitions

* `Node.Hereditary`: a property of all nodes of a tree
* `Node.Local`: what a property has to bear for that
* `Node.StandsFor`: a node that can stand where another one stood
* `Node.Everywhere`: a property of all nodes of a tree, children apart

## Main statements

* `Node.Hereditary.find?`: what holds of all nodes holds of those beneath
* `Node.standsFor_of_alter`: a change whose result can stand where the old node stood
* `Vault.standsFor_create`, `Vault.standsFor_remove`, `Vault.standsFor_place`, `Vault.standsFor_stamp?`:
  the changes of the vault
* `Vault.everywhere_initial`: what is to be shown of the vault that every session starts from
-/

namespace VaultShell

namespace Node

/-- **A property of all nodes of a tree**, each of them with the children that it holds. -/
inductive Hereditary (P : Node → Prop) : Node → Prop
  | file {attributes : Attributes} {content : String} (here : P (.file attributes content)) :
      Hereditary P (.file attributes content)
  | directory {attributes : Attributes} {children : List (String × Node)}
      (here : P (.directory attributes children))
      (beneath : ∀ member ∈ children, Hereditary P member.2) :
      Hereditary P (.directory attributes children)

/-- **A property that does not look beneath the children**, and bears a change of one of them. -/
structure Local (P : Node → Prop) : Prop where
  /-- A child gives way to another one of its name. -/
  replace : ∀ {attributes children name} {old new : Node},
    Catalog.get? children name = some old → new.name = old.name →
      P (.directory attributes children) → P (.directory attributes (Catalog.put children name new))
  /-- A child is put in under its name, which a path can lead to. -/
  put : ∀ {attributes children name} {new : Node}, new.name = name → Path.IsName name →
    P (.directory attributes children) → P (.directory attributes (Catalog.put children name new))
  /-- A child is taken out. -/
  erase : ∀ {attributes children} (name : String),
    P (.directory attributes children) → P (.directory attributes (Catalog.erase children name))

/-- **A node that can stand where another one stood**: it has the property throughout if the other one
had it, and has the same name and kind. -/
structure StandsFor (P : Node → Prop) (new old : Node) : Prop where
  hereditary : old.Hereditary P → new.Hereditary P
  name_eq : new.name = old.name
  isDirectory_eq : new.isDirectory = old.isDirectory

@[simp] theorem name_rename (node : Node) (name : String) : (node.rename name).name = name := by
  cases node <;> rfl

@[simp] theorem name_stamp (node : Node) (time : Instant) : (node.stamp time).name = node.name := by
  cases node <;> rfl

@[simp] theorem isDirectory_mapAttributes (f : Attributes → Attributes) (node : Node) :
    (node.mapAttributes f).isDirectory = node.isDirectory := by
  cases node <;> rfl

section Changes

variable {P : Node → Prop} {node new old : Node} {name : String} {attributes : Attributes}
  {children changed : List (String × Node)}

theorem hereditary_newFile {content : String} {time : Instant} (here : P (newFile name content time)) :
    (newFile name content time).Hereditary P :=
  .file here

theorem hereditary_newDirectory {time : Instant} (here : P (newDirectory name time)) :
    (newDirectory name time).Hereditary P :=
  .directory here (List.forall_mem_nil _)

namespace Hereditary

theorem here (h : node.Hereditary P) : P node := by
  cases h with
  | file here => exact here
  | directory here beneath => exact here

theorem child (h : (Node.directory attributes children).Hereditary P)
    (found : Catalog.get? children name = some node) : node.Hereditary P := by
  cases h with
  | directory here beneath => exact beneath (name, node) (Catalog.mem_of_get? found)

/-- **What holds of all nodes holds of those beneath.** -/
theorem find? {names : List String} (h : node.Hereditary P) {found : Node}
    (hfound : node.find? names = some found) : found.Hereditary P := by
  induction names generalizing node with
  | nil =>
      obtain rfl := Option.some.inj hfound
      exact h
  | cons name rest ih =>
      cases node with
      | file attributes content => cases hfound
      | directory attributes children =>
          rw [find?_cons] at hfound
          obtain ⟨child, hchild, hrest⟩ := Option.bind_eq_some_iff.1 hfound
          exact ih (h.child hchild) hrest

/-- A node may be put in wherever the directory bears it. -/
theorem put (h : (Node.directory attributes children).Hereditary P) (hnew : new.Hereditary P)
    (bears : P (.directory attributes children) →
      P (.directory attributes (Catalog.put children name new))) :
    (Node.directory attributes (Catalog.put children name new)).Hereditary P := by
  cases h with
  | directory here beneath =>
      refine .directory (bears here) ?_
      intro member hmember
      rcases Catalog.mem_put hmember with rfl | old
      · exact hnew
      · exact beneath member old

theorem erase (isLocal : Local P) (h : (Node.directory attributes children).Hereditary P)
    (name : String) : (Node.directory attributes (Catalog.erase children name)).Hereditary P := by
  cases h with
  | directory here beneath =>
      have old := (Catalog.erase_sublist children name).subset
      exact .directory (isLocal.erase name here) fun member hmember => beneath member (old hmember)

/-- Other attributes of the node on top are no matter for those beneath it. -/
theorem mapAttributes {f : Attributes → Attributes} (h : node.Hereditary P)
    (keeps : ∀ n, P n → P (n.mapAttributes f)) : (node.mapAttributes f).Hereditary P := by
  cases h with
  | file here => exact .file (keeps _ here)
  | directory here beneath => exact .directory (keeps _ here) beneath

end Hereditary

/-- Other children do not change what a directory is called. -/
theorem standsFor_directory (keeps : (Node.directory attributes children).Hereditary P →
      (Node.directory attributes changed).Hereditary P) :
    StandsFor P (.directory attributes changed) (.directory attributes children) where
  hereditary := keeps
  name_eq := rfl
  isDirectory_eq := rfl

theorem standsFor_stamp {time : Instant} (keeps : ∀ n, P n → P (n.stamp time)) (node : Node) :
    StandsFor P (node.stamp time) node where
  hereditary h := h.mapAttributes keeps
  name_eq := name_stamp node time
  isDirectory_eq := isDirectory_mapAttributes _ node

/-- **A change whose result can stand where the old node stood** gives a tree that can stand where the
old tree stood.  On the way up each changed child is put back under its own name. -/
theorem standsFor_of_alter {α : Type} {a : α} {change : Node → Except Fault (α × Node)}
    {names : List String} {after : Node} (isLocal : Local P)
    (keeps : ∀ old new a, change old = .ok (a, new) → StandsFor P new old)
    (altered : alter change names node = .ok (a, after)) : StandsFor P after node := by
  let Stands := fun old new : Node => StandsFor P new old
  have stands : Stands node after := by
    refine alter_induction keeps ?_ altered
    intro attributes children name child changed found inner
    refine standsFor_directory ?_
    intro whole
    exact whole.put (inner.hereditary (whole.child found)) (isLocal.replace found inner.name_eq)
  exact stands

end Changes

end Node

namespace Vault

variable {P : Node → Prop} {vault after : Vault} {path : String}

/-- A change of one place that keeps the property among the children there keeps it in the vault. -/
theorem standsFor_alterPlace {α : Type} {a : α}
    {change : String → Catalog Node → Except Fault (α × Catalog Node)} (isLocal : Node.Local P)
    (keeps : ∀ parent name, Path.split path = .ok (parent, name) →
      ∀ attributes children changed a, change name children = .ok (a, changed) →
        (Node.directory attributes children).Hereditary P →
        (Node.directory attributes changed).Hereditary P)
    (altered : vault.alterPlace path change = .ok (a, after)) :
    after.root.StandsFor P vault.root := by
  obtain ⟨parent, name, hsplit, halter⟩ := alter_of_alterPlace altered
  refine Node.standsFor_of_alter isLocal ?_ halter
  intro old new b hchange
  obtain ⟨attributes, children, changed, rfl, hchildren, rfl⟩ := Node.alterChildren_eq_ok hchange
  exact Node.standsFor_directory (keeps parent name hsplit attributes children changed b hchildren)

/-- Creating a node that has the property and goes by the name it is made for. -/
theorem standsFor_create {make : String → Node} (isLocal : Node.Local P)
    (new : ∀ parent name, Path.split path = .ok (parent, name) →
      (make name).Hereditary P ∧ (make name).name = name)
    (created : vault.create path make = .ok after) : after.root.StandsFor P vault.root := by
  obtain ⟨a, created⟩ := eq_ok_of_map_snd created
  refine standsFor_alterPlace isLocal ?_ created
  intro parent name hsplit attributes children changed b hchange whole
  beta_reduce at hchange
  split at hchange
  · cases hchange
  · obtain rfl := congrArg Prod.snd (Except.ok.inj hchange)
    obtain ⟨hereditary, named⟩ := new parent name hsplit
    exact whole.put hereditary (isLocal.put named (Path.isName_of_split hsplit))

/-- Removing, as far as what is left is concerned; what is handed back was a node of the tree. -/
theorem standsFor_remove {node : Node} (isLocal : Node.Local P)
    (removed : vault.remove path = .ok (node, after)) : after.root.StandsFor P vault.root := by
  refine standsFor_alterPlace isLocal ?_ removed
  intro parent name hsplit attributes children changed b hchange whole
  beta_reduce at hchange
  split at hchange
  · cases hchange
  · obtain rfl := congrArg Prod.snd (Except.ok.inj hchange)
    exact whole.erase isLocal name

/-- Placing, whatever the node was called before. -/
theorem standsFor_place {node : Node} (isLocal : Node.Local P)
    (keeps : ∀ parent name, Path.split path = .ok (parent, name) → ∀ n, P n → P (n.rename name))
    (hnode : node.Hereditary P) (placed : vault.place path node = .ok after) :
    after.root.StandsFor P vault.root := by
  obtain ⟨a, placed⟩ := eq_ok_of_map_snd placed
  refine standsFor_alterPlace isLocal ?_ placed
  intro parent name hsplit attributes children changed b hchange whole
  obtain rfl := congrArg Prod.snd (Except.ok.inj hchange)
  exact whole.put (hnode.mapAttributes (keeps parent name hsplit))
    (isLocal.put (Node.name_rename node name) (Path.isName_of_split hsplit))

/-- Setting a modification time. -/
theorem standsFor_stamp? {time : Instant} (isLocal : Node.Local P)
    (keeps : ∀ n, P n → P (n.stamp time)) (stamped : vault.stamp? path time = some after) :
    after.root.StandsFor P vault.root := by
  refine Node.standsFor_of_alter isLocal ?_ (alter_of_stamp? stamped)
  intro old new b hchange
  obtain rfl := congrArg Prod.snd (Except.ok.inj hchange)
  exact Node.standsFor_stamp keeps old

end Vault

/-! ## Nodes without their children -/

/-- **A property of all nodes of a tree**, each of them without its children. -/
inductive Node.Everywhere (P : Node → Prop) : Node → Prop
  | file {attributes : Attributes} {content : String} :
      P (.file attributes content) → Everywhere P (.file attributes content)
  | directory {attributes : Attributes} {children : List (String × Node)} :
      P (.directory attributes []) → (∀ member ∈ children, Everywhere P member.2) →
        Everywhere P (.directory attributes children)

namespace Node

variable {P : Node → Prop} {node : Node}

/-- Without its children a directory bears whatever happens to them. -/
theorem local_bare (P : Node → Prop) : Local fun node => P node.bare where
  replace _ _ here := here
  put _ _ here := here
  erase _ here := here

theorem bare_mapAttributes (f : Attributes → Attributes) (node : Node) :
    (node.mapAttributes f).bare = node.bare.mapAttributes f := by
  cases node <;> rfl

theorem everywhere_iff : node.Everywhere P ↔ node.Hereditary fun node => P node.bare := by
  constructor
  · intro h
    induction h with
    | file here => exact .file here
    | directory here beneath ih => exact .directory here ih
  · intro h
    induction h with
    | file here => exact .file here
    | directory here beneath ih => exact .directory here ih

theorem Everywhere.bare (h : node.Everywhere P) : P node.bare :=
  (everywhere_iff.1 h).here

theorem Everywhere.find? (h : node.Everywhere P) {names : List String} {found : Node}
    (hfound : node.find? names = some found) : found.Everywhere P :=
  everywhere_iff.2 ((everywhere_iff.1 h).find? hfound)

end Node

/-- The initial vault is made of six nodes with names of their own. -/
theorem Vault.everywhere_initial {P : Node → Prop} {time : Instant}
    (root : P (.newDirectory Path.root time)) (readme : P (.newFile "readme.txt" readmeContent time))
    (resources : P (.newDirectory "vault" time))
    (resource : ∀ name ∈ initialResources, P (.newFile name (placeholder name) time)) :
    (initial time).root.Everywhere P := by
  have inside : (initialDirectory time).Everywhere P := by
    refine .directory resources ?_
    intro member hmember
    obtain ⟨name, hname, rfl⟩ := List.mem_map.1 (Catalog.mem_of_mem_ofList hmember)
    exact .file (resource name hname)
  refine .directory root ?_
  intro member hmember
  have hmember := Catalog.mem_of_mem_ofList hmember
  rw [List.mem_cons, List.mem_singleton] at hmember
  rcases hmember with rfl | rfl
  · exact .file readme
  · exact inside

end VaultShell
