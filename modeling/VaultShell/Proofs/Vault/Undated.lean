import VaultShell.Proofs.Vault.Frame

/-!
# Vaults without their times

Nothing that an operation of the vault decides depends on a modification time.  To say so, the times
are taken out: `undated` sets all of them to one instant and leaves the rest of a tree as it is, its
shape, names, contents and permissions.  Two trees are the same but for the times if and only if they
are the same without them.

Every operation on a vault without its times is what the operation on the vault gives, without the
times; it is refused if and only if the other one is, and for the same reason.

## Main definitions

* `Catalog.mapValues`: other values under the same names
* `Node.undated`, `Vault.undated`: trees and vaults without their times

## Main statements

* `Vault.find?_undated`: the same is found
* `Vault.createFile_undated`, `Vault.createDirectory_undated`, `Vault.remove_undated`,
  `Vault.place_undated`, `Vault.stamp?_undated`: each of the changes
-/

namespace VaultShell

/-! ## Other values under the same names -/

namespace Catalog

variable {α β : Type}

/-- Other values under the same names. -/
def mapValues (f : α → β) (entries : Catalog α) : Catalog β :=
  entries.map fun member => (member.1, f member.2)

variable (f : α → β) (entries : Catalog α) (name : String)

@[simp] theorem get?_mapValues : get? (mapValues f entries) name = (get? entries name).map f := by
  induction entries with
  | nil => rfl
  | cons head rest ih =>
      simp only [mapValues, List.map_cons, get?]
      split
      · rfl
      · exact ih

@[simp] theorem has_mapValues : has (mapValues f entries) name = has entries name := by
  simp [has]

@[simp] theorem isEmpty_mapValues : (mapValues f entries).isEmpty = entries.isEmpty :=
  List.isEmpty_map

@[simp] theorem map_fst_mapValues : (mapValues f entries).map Prod.fst = entries.map Prod.fst :=
  List.map_map

theorem put_mapValues (value : α) :
    put (mapValues f entries) name (f value) = mapValues f (put entries name value) := by
  induction entries with
  | nil => rfl
  | cons head rest ih =>
      simp only [mapValues, List.map_cons, put]
      split
      · rfl
      · split
        · rfl
        · rw [List.map_cons]
          exact congrArg _ ih

theorem erase_mapValues : erase (mapValues f entries) name = mapValues f (erase entries name) := by
  induction entries with
  | nil => rfl
  | cons head rest ih =>
      simp only [mapValues, List.map_cons, erase]
      split
      · rfl
      · rw [List.map_cons]
        exact congrArg _ ih

end Catalog

/-! ## Trees -/

/-- Attributes without the time. -/
def Attributes.undated (attributes : Attributes) : Attributes :=
  { attributes with modified := .origin }

namespace Node

mutual

/-- **The tree without its times**: each of them is set to the same instant. -/
def undated : Node → Node
  | .file attributes content => .file attributes.undated content
  | .directory attributes children => .directory attributes.undated (undatedChildren children)

/-- The children of a directory without their times. -/
def undatedChildren : List (String × Node) → List (String × Node)
  | [] => []
  | (name, child) :: rest => (name, child.undated) :: undatedChildren rest

end

theorem undatedChildren_eq (children : List (String × Node)) :
    undatedChildren children = Catalog.mapValues undated children := by
  induction children with
  | nil => rfl
  | cons head rest ih =>
      obtain ⟨name, child⟩ := head
      rw [undatedChildren, ih]
      rfl

theorem undated_file (attributes : Attributes) (content : String) :
    (Node.file attributes content).undated = .file attributes.undated content := by
  rw [undated]

theorem undated_directory (attributes : Attributes) (children : List (String × Node)) :
    (Node.directory attributes children).undated =
      .directory attributes.undated (Catalog.mapValues undated children) := by
  rw [undated, undatedChildren_eq]

variable (node : Node)

@[simp] theorem isDirectory_undated : node.undated.isDirectory = node.isDirectory := by
  cases node <;> rfl

/-- A node has the same without its times, whenever it was changed. -/
theorem undated_stamp (time : Instant) : (node.stamp time).undated = node.undated.stamp .origin := by
  cases node with
  | file attributes content => rw [stamp, mapAttributes, undated_file, undated_file]; rfl
  | directory attributes children =>
      rw [stamp, mapAttributes, undated_directory, undated_directory]
      rfl

theorem undated_rename (name : String) : (node.rename name).undated = node.undated.rename name := by
  cases node with
  | file attributes content => rw [rename, mapAttributes, undated_file, undated_file]; rfl
  | directory attributes children =>
      rw [rename, mapAttributes, undated_directory, undated_directory]
      rfl

theorem child?_undated (name : String) : node.undated.child? name = (node.child? name).map undated := by
  cases node with
  | file attributes content => rfl
  | directory attributes children =>
      rw [undated_directory]
      exact Catalog.get?_mapValues undated children name

/-- **The same is found.** -/
theorem find?_undated (names : List String) :
    node.undated.find? names = (node.find? names).map undated := by
  induction names generalizing node with
  | nil => rfl
  | cons name rest ih =>
      simp only [find?]
      rw [child?_undated]
      cases node.child? name with
      | none => rfl
      | some child => exact ih child

variable {α β : Type} {change : Node → Except Fault (α × Node)}
  {undatedChange : Node → Except Fault (β × Node)} {g : α → β}

/-- **A change inside a tree that does not look at times.**  If the change comes out the same where it
is made, it comes out the same in the tree, refusals included. -/
theorem alter_undated
    (here : ∀ node, undatedChange node.undated = (change node).map (Prod.map g undated))
    (names : List String) (node : Node) :
    alter undatedChange names node.undated = (alter change names node).map (Prod.map g undated) := by
  -- By the place of the change; the directories on the way keep their attributes.
  induction names generalizing node with
  | nil => exact here node
  | cons name rest ih =>
      cases node with
      | file attributes content => rfl
      | directory attributes children =>
          rw [undated_directory]
          simp only [alter, Catalog.get?_mapValues]
          cases Catalog.get? children name with
          | none => rfl
          | some child =>
              simp only [Option.map_some, ih child]
              cases alter change rest child with
              | error fault => rfl
              | ok result =>
                  simp only [Except.map, Prod.map]
                  rw [Catalog.put_mapValues, undated_directory]

/-- The same for a change of a directory's children. -/
theorem alterChildren_undated {change : Catalog Node → Except Fault (α × Catalog Node)}
    {undatedChange : Catalog Node → Except Fault (β × Catalog Node)}
    (here : ∀ children, undatedChange (Catalog.mapValues undated children) =
      (change children).map (Prod.map g (Catalog.mapValues undated)))
    (node : Node) :
    alterChildren undatedChange node.undated =
      (alterChildren change node).map (Prod.map g undated) := by
  cases node with
  | file attributes content => rfl
  | directory attributes children =>
      rw [undated_directory]
      simp only [alterChildren, here]
      cases change children with
      | error fault => rfl
      | ok result =>
          simp only [Except.map, Prod.map]
          rw [undated_directory]

end Node

/-! ## Vaults -/

namespace Vault

/-- **The vault without its times.** -/
def undated (vault : Vault) : Vault :=
  ⟨vault.root.undated⟩

variable (vault : Vault) (path : String)

/-- **The same is found.** -/
@[simp] theorem find?_undated : vault.undated.find? path = (vault.find? path).map Node.undated :=
  vault.root.find?_undated _

@[simp] theorem has_undated : vault.undated.has path = vault.has path := by
  simp [has]

@[simp] theorem isDirectory_undated : vault.undated.isDirectory path = vault.isDirectory path := by
  unfold isDirectory
  rw [find?_undated]
  cases vault.find? path with
  | none => rfl
  | some node => exact node.isDirectory_undated

/-- The same is read. -/
@[simp] theorem read_undated : vault.undated.read path = vault.read path := by
  unfold read
  rw [find?_undated]
  cases vault.find? path with
  | none => rfl
  | some node => cases node <;> rfl

/-- A change of one place that does not look at times. -/
theorem alterPlace_undated {α β : Type} {g : α → β}
    {change : String → Catalog Node → Except Fault (α × Catalog Node)}
    {undatedChange : String → Catalog Node → Except Fault (β × Catalog Node)}
    (here : ∀ name children, undatedChange name (Catalog.mapValues Node.undated children) =
      (change name children).map (Prod.map g (Catalog.mapValues Node.undated))) :
    vault.undated.alterPlace path undatedChange =
      (vault.alterPlace path change).map (Prod.map g undated) := by
  unfold alterPlace
  cases Path.split path with
  | error fault => rfl
  | ok parts =>
      obtain ⟨parent, name⟩ := parts
      have inTree := Node.alter_undated (Node.alterChildren_undated (here name))
        (Path.components parent) vault.root
      simp only [alterChildren, undated, inTree]
      cases Node.alter (Node.alterChildren (change name)) (Path.components parent) vault.root with
      | error fault => rfl
      | ok result => rfl

/-- What is kept of a result without its times. -/
theorem map_snd_map {α β : Type} {g : α → β} (result : Except Fault (α × Vault)) :
    (result.map (Prod.map g undated)).map Prod.snd = (result.map Prod.snd).map undated := by
  cases result <;> rfl

theorem create_undated {make undatedMake : String → Node}
    (made : ∀ name, undatedMake name = (make name).undated) :
    vault.undated.create path undatedMake = (vault.create path make).map undated := by
  unfold create
  rw [alterPlace_undated vault path (g := id), map_snd_map]
  intro name children
  rw [Catalog.has_mapValues, made, Catalog.put_mapValues]
  split
  · rfl
  · rfl

/-- **Creating** a file. -/
theorem createFile_undated (content : String) (time : Instant) :
    vault.undated.createFile path content .origin =
      (vault.createFile path content time).map undated :=
  create_undated vault path fun _ => rfl

/-- **Creating** a directory. -/
theorem createDirectory_undated (time : Instant) :
    vault.undated.createDirectory path .origin = (vault.createDirectory path time).map undated :=
  create_undated vault path fun _ => rfl

/-- **Removing.** -/
theorem remove_undated :
    vault.undated.remove path = (vault.remove path).map (Prod.map Node.undated undated) := by
  unfold remove
  refine alterPlace_undated vault path ?_
  intro name children
  rw [Catalog.get?_mapValues, Catalog.erase_mapValues]
  cases Catalog.get? children name with
  | none => rfl
  | some node => rfl

/-- **Placing.** -/
theorem place_undated (node : Node) :
    vault.undated.place path node.undated = (vault.place path node).map undated := by
  unfold place
  rw [alterPlace_undated vault path (g := id), map_snd_map]
  intro name children
  rw [← Node.undated_rename, Catalog.put_mapValues]
  rfl

/-- **Setting a time** cannot be seen. -/
theorem stamp?_undated (time : Instant) :
    vault.undated.stamp? path .origin = (vault.stamp? path time).map undated := by
  unfold stamp?
  have inTree := @Node.alter_undated Unit Unit (fun node => .ok ((), node.stamp time))
    (fun node => .ok ((), node.stamp .origin)) id
    (fun node => by rw [← Node.undated_stamp node time]; rfl) (Path.components path) vault.root
  simp only [undated, inTree]
  cases Node.alter (fun node => .ok ((), node.stamp time)) (Path.components path) vault.root with
  | error fault => rfl
  | ok result => rfl

end Vault

end VaultShell
