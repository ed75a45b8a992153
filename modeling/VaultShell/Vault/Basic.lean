import VaultShell.Path.Basic
import VaultShell.Vault.Node

/-!
# The vault

A vault is a tree of nodes whose root is a directory named `/`. Nodes are addressed by paths: a look
up takes the components of the path literally, while a place to create, remove or fill is the last
component of the path's canonical form, in the directory before it.

An operation either succeeds and gives the new vault or is refused with a fault; a refused operation
has no new vault to give.

The flat view shows every node under its own path, the root included, in the order of the paths by
code point. It forgets contents and keeps what a listing of the whole vault shows.

## Main definitions

* `Vault.empty`: the vault that holds its root only
* `Vault.find?`, `Vault.read`: the node and the content at a path
* `Vault.createFile`, `Vault.createDirectory`, `Vault.remove`, `Vault.place`: the four changes of
  the tree's shape
* `Vault.stamp?`: sets a modification time
* `Entry`, `Vault.entries`: the flat view, by path
-/

namespace VaultShell

/-! ## Looking up and changing -/

/-- A tree of nodes. -/
structure Vault where
  root : Node
  deriving BEq, Repr

namespace Vault

/-- The vault that holds its root only. -/
def empty (time : Instant) : Vault :=
  ⟨.newDirectory Path.root time⟩

/-- The node at a path, whose segments are taken literally. -/
def find? (vault : Vault) (path : String) : Option Node :=
  vault.root.find? (Path.components path)

/-- Whether a node is there. -/
def has (vault : Vault) (path : String) : Bool :=
  (vault.find? path).isSome

/-- Whether a directory is there. -/
def isDirectory (vault : Vault) (path : String) : Bool :=
  (vault.find? path).any Node.isDirectory

/-- The content of the file at a path. -/
def read (vault : Vault) (path : String) : Except Fault String :=
  match vault.find? path with
  | none => .error .notFound
  | some (.directory ..) => .error .isDirectory
  | some (.file _ content) => .ok content

/-- Changes the children of the directory at a path. -/
def alterChildren {α : Type} (vault : Vault) (path : String)
    (change : Catalog Node → Except Fault (α × Catalog Node)) : Except Fault (α × Vault) :=
  match Node.alter (Node.alterChildren change) (Path.components path) vault.root with
  | .error fault => .error fault
  | .ok (a, root) => .ok (a, ⟨root⟩)

/-- Changes the children of the directory that holds the place a path names; the change is told the
name of the place. -/
def alterPlace {α : Type} (vault : Vault) (path : String)
    (change : String → Catalog Node → Except Fault (α × Catalog Node)) : Except Fault (α × Vault) :=
  match Path.split path with
  | .error fault => .error fault
  | .ok (parent, name) => vault.alterChildren parent (change name)

/-- Puts a new node at a free place; the node is made from the place's name. -/
def create (vault : Vault) (path : String) (make : String → Node) : Except Fault Vault :=
  (vault.alterPlace path fun name children =>
    if Catalog.has children name then .error .exists
    else .ok ((), Catalog.put children name (make name))).map Prod.snd

/-- Creates a file. -/
def createFile (vault : Vault) (path content : String) (time : Instant) : Except Fault Vault :=
  vault.create path fun name => .newFile name content time

/-- Creates a directory without children. -/
def createDirectory (vault : Vault) (path : String) (time : Instant) : Except Fault Vault :=
  vault.create path fun name => .newDirectory name time

/-- Takes the node at a place out of the vault and hands it back. -/
def remove (vault : Vault) (path : String) : Except Fault (Node × Vault) :=
  vault.alterPlace path fun name children =>
    match Catalog.get? children name with
    | none => .error .notFound
    | some node => .ok (node, Catalog.erase children name)

/-- Puts a node at a place, under the place's name, instead of whatever was there. -/
def place (vault : Vault) (path : String) (node : Node) : Except Fault Vault :=
  (vault.alterPlace path fun name children =>
    .ok ((), Catalog.put children name (node.rename name))).map Prod.snd

/-- The vault with another modification time for the node at a path, whose segments are taken
literally; none if no node is there. -/
def stamp? (vault : Vault) (path : String) (time : Instant) : Option Vault :=
  match Node.alter (fun node => .ok ((), node.stamp time)) (Path.components path) vault.root with
  | .error _ => none
  | .ok ((), root) => some ⟨root⟩

end Vault

/-! ## The flat view -/

/-- One node as the flat view shows it. -/
structure Entry where
  path : String
  kind : Kind
  size : Nat
  modified : Instant
  permissionBits : Nat
  deriving DecidableEq, Repr

namespace Node

/-- The entry of a node at a path. -/
def entry (node : Node) (path : String) : Entry :=
  ⟨path, node.kind, node.size, node.modified, node.permissions.bits⟩

mutual

/-- The entries of a node at a path and of all nodes beneath it, the node itself last. -/
def walk (path : String) : Node → List (String × Entry)
  | .file attributes content => [(path, (Node.file attributes content).entry path)]
  | .directory attributes children =>
    walkChildren path children ++ [(path, (Node.directory attributes children).entry path)]

/-- The entries of the children of the directory at a path and of all nodes beneath them. -/
def walkChildren (path : String) : List (String × Node) → List (String × Entry)
  | [] => []
  | (name, child) :: rest => walk (Path.join path name) child ++ walkChildren path rest

end

end Node

/-- The entries of all nodes, by path. -/
def Vault.entries (vault : Vault) : Catalog Entry :=
  Catalog.ofList (vault.root.walk Path.root)

end VaultShell
