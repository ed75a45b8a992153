import VaultShell.Catalog.Basic
import VaultShell.Time.Calendar

/-!
# Nodes

A node of the vault is a file or a directory. Both have a name, permissions and a modification time;
a file has its content, and a directory its children, each under a name.

Permissions are three sets of three flags, one set for the node's user, one for its group and one for
all others. Only the lowest three bits of a set mean anything, though a set is carried as the byte it
came in.

Every change inside a tree goes through one operation, `Node.alter`: it follows a list of names down
to a node, changes that node, and puts the changed children back on the way up. Everything that does
not lie on the way is shared with the old tree, which is why a change has no effect elsewhere. A change
that is refused gives a fault. A fault names a cause only; the sentence in which a command reports it
is the command's own.

## Main definitions

* `Fault`, `Permissions`: why a change is refused, and who may do what
* `Node`: a file or a directory with its children
* `Node.find?`: the node that a list of names leads to
* `Node.alter`: changes the node that a list of names leads to

## Main statements

* `Node.find?_of_alter`: the change is made where the names lead, and seen there afterwards
* `Node.find?_alter_of_diverge`: where other names part from them, nothing changes
-/

namespace VaultShell

/-! ## Faults -/

/-- Why an operation on the vault is refused. -/
inductive Fault where
  /-- Nothing is there. -/
  | notFound
  /-- A file stands where a directory is needed. -/
  | notDirectory
  /-- A directory stands where a file is needed. -/
  | isDirectory
  /-- The place is taken. -/
  | exists
  /-- The directory has children. -/
  | notEmpty
  /-- The working directory lies there or beneath it. -/
  | busy
  /-- The root is no place to change. -/
  | invalidPath
  deriving DecidableEq, Repr

/-- The wording of a fault. -/
def Fault.message : Fault → String
  | .notFound => "No such file or directory"
  | .notDirectory => "Not a directory"
  | .isDirectory => "Is a directory"
  | .exists => "File exists"
  | .notEmpty => "Directory not empty"
  | .busy => "Device or resource busy"
  | .invalidPath => "Invalid argument"

/-! ## Permissions -/

/-- What user, group and others may do with a node. -/
structure Permissions where
  user : UInt8
  group : UInt8
  other : UInt8
  deriving DecidableEq, Repr

namespace Permissions

/-- The permissions of a new file. -/
def ofNewFile : Permissions := ⟨6, 4, 4⟩

/-- The permissions of a new directory. -/
def ofNewDirectory : Permissions := ⟨7, 5, 5⟩

/-- The three sets as one number, three bits each. -/
def bits (p : Permissions) : Nat :=
  64 * (p.user.toNat % 8) + 8 * (p.group.toNat % 8) + p.other.toNat % 8

/-- The letters of one set, a hyphen for a flag that is not set. -/
def letters (set : UInt8) : List Char :=
  [if set.toNat.testBit 2 then 'r' else '-',
   if set.toNat.testBit 1 then 'w' else '-',
   if set.toNat.testBit 0 then 'x' else '-']

/-- The nine letters of a listing. -/
def rwx (p : Permissions) : String :=
  String.ofList (letters p.user ++ letters p.group ++ letters p.other)

end Permissions

/-! ## Nodes -/

/-- What files and directories have in common. -/
structure Attributes where
  name : String
  permissions : Permissions
  modified : Instant
  deriving DecidableEq, Repr

/-- The two kinds of nodes. -/
inductive Kind where
  | file
  | directory
  deriving DecidableEq, Repr

/-- A file or a directory. The children of a directory form a catalog. -/
inductive Node where
  | file (attributes : Attributes) (content : String)
  | directory (attributes : Attributes) (children : List (String × Node))
  deriving BEq, Repr

namespace Node

/-- A new file. -/
def newFile (name content : String) (time : Instant) : Node :=
  .file ⟨name, .ofNewFile, time⟩ content

/-- A new directory without children. -/
def newDirectory (name : String) (time : Instant) : Node :=
  .directory ⟨name, .ofNewDirectory, time⟩ []

/-- What the node has in common with every other one. -/
def attributes : Node → Attributes
  | .file attributes _ => attributes
  | .directory attributes _ => attributes

/-- The name a node carries itself. -/
def name (node : Node) : String := node.attributes.name

/-- Who may do what with the node. -/
def permissions (node : Node) : Permissions := node.attributes.permissions

/-- When the node was last changed. -/
def modified (node : Node) : Instant := node.attributes.modified

/-- Whether the node is a file or a directory. -/
def kind : Node → Kind
  | .file .. => .file
  | .directory .. => .directory

/-- Whether the node is a directory. -/
def isDirectory (node : Node) : Bool :=
  node.kind = .directory

/-- The size that every directory reports. -/
def directorySize : Nat := 4096

/-- The bytes of a file's content, or the size that every directory reports. -/
def size : Node → Nat
  | .file _ content => content.utf8ByteSize
  | .directory .. => directorySize

/-- The node with other attributes. -/
def mapAttributes (f : Attributes → Attributes) : Node → Node
  | .file attributes content => .file (f attributes) content
  | .directory attributes children => .directory (f attributes) children

/-- The node under another name. -/
def rename (node : Node) (name : String) : Node :=
  node.mapAttributes fun a => { a with name }

/-- The node as changed at a given time. -/
def stamp (node : Node) (time : Instant) : Node :=
  node.mapAttributes fun a => { a with modified := time }

/-- The child under a name; a file has none. -/
def child? : Node → String → Option Node
  | .file .., _ => none
  | .directory _ children, name => Catalog.get? children name

/-- The node that a list of names leads to. -/
def find? (node : Node) : List String → Option Node
  | [] => some node
  | name :: rest =>
    match node.child? name with
    | none => none
    | some child => child.find? rest

/-- Changes the node that a list of names leads to, and gives what the change gives. -/
def alter {α : Type} (change : Node → Except Fault (α × Node)) :
    List String → Node → Except Fault (α × Node)
  | [], node => change node
  | name :: rest, .directory attributes children =>
    match Catalog.get? children name with
    | none => .error .notFound
    | some child =>
      match alter change rest child with
      | .error fault => .error fault
      | .ok (a, changed) => .ok (a, .directory attributes (Catalog.put children name changed))
  | _ :: _, .file .. => .error .notFound

/-- Changes the children of a directory; a file has none to change. -/
def alterChildren {α : Type} (change : Catalog Node → Except Fault (α × Catalog Node)) :
    Node → Except Fault (α × Node)
  | .file .. => .error .notDirectory
  | .directory attributes children =>
    match change children with
    | .error fault => .error fault
    | .ok (a, changed) => .ok (a, .directory attributes changed)

@[simp] theorem find?_nil (node : Node) : node.find? [] = some node := rfl

/-- A list of names is followed in two parts. -/
theorem find?_append (node : Node) (names more : List String) :
    node.find? (names ++ more) = (node.find? names).bind fun inner => inner.find? more := by
  induction names generalizing node with
  | nil => rfl
  | cons name rest ih =>
    simp only [List.cons_append, find?]
    cases node.child? name with
    | none => rfl
    | some child => exact ih child

/-- A change beneath a name that succeeds was made to the child under the name, and the changed child
was put back. -/
theorem alter_cons_eq_ok {α : Type} {change : Node → Except Fault (α × Node)} {name : String}
    {rest : List String} {node after : Node} {a : α}
    (h : alter change (name :: rest) node = .ok (a, after)) :
    ∃ attributes children child changed, node = .directory attributes children ∧
      Catalog.get? children name = some child ∧ alter change rest child = .ok (a, changed) ∧
      after = .directory attributes (Catalog.put children name changed) := by
  cases node with
  | file attributes content => simp [alter] at h
  | directory attributes children =>
    simp only [alter] at h
    cases hchild : Catalog.get? children name with
    | none => simp [hchild] at h
    | some child =>
      cases hinner : alter change rest child with
      | error fault => simp [hchild, hinner] at h
      | ok result =>
        obtain ⟨b, changed⟩ := result
        simp only [hchild, hinner, Except.ok.injEq, Prod.mk.injEq] at h
        obtain ⟨rfl, rfl⟩ := h
        exact ⟨attributes, children, child, changed, rfl, hchild, hinner, rfl⟩

/-- A change that succeeds was made on the node that the names lead to, and they lead to the changed
node afterwards. -/
theorem find?_of_alter {α : Type} {change : Node → Except Fault (α × Node)} {names : List String}
    {node after : Node} {a : α} (h : alter change names node = .ok (a, after)) :
    ∃ old new, node.find? names = some old ∧ change old = .ok (a, new) ∧
      after.find? names = some new := by
  induction names generalizing node after with
  | nil => exact ⟨node, after, rfl, h, rfl⟩
  | cons name rest ih =>
    obtain ⟨attributes, children, child, changed, rfl, hchild, hinner, rfl⟩ := alter_cons_eq_ok h
    obtain ⟨old, new, hold, hchange, hnew⟩ := ih hinner
    refine ⟨old, new, ?_, hchange, ?_⟩
    · simpa [find?, child?, hchild] using hold
    · simpa [find?, child?, Catalog.get?_put] using hnew

/-- Names that part from those of the change lead to the same node as before. -/
theorem find?_alter_of_diverge {α : Type} {change : Node → Except Fault (α × Node)}
    {names : List String} {node after : Node} {a : α}
    (h : alter change names node = .ok (a, after)) {shared rest rest' : List String}
    {name name' : String} (hne : name ≠ name') (hnames : names = shared ++ name :: rest) :
    after.find? (shared ++ name' :: rest') = node.find? (shared ++ name' :: rest') := by
  induction shared generalizing names node after with
  | nil =>
    subst hnames
    obtain ⟨attributes, children, child, changed, rfl, -, -, rfl⟩ := alter_cons_eq_ok h
    simp [find?, child?, Catalog.get?_put, hne]
  | cons first shared ih =>
    subst hnames
    obtain ⟨attributes, children, child, changed, rfl, hchild, hinner, rfl⟩ := alter_cons_eq_ok h
    simpa [find?, child?, Catalog.get?_put, hchild] using ih hinner rfl

end Node

end VaultShell
