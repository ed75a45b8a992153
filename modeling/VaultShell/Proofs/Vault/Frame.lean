import VaultShell.Catalog.Lemmas
import VaultShell.Proofs.Path.Ancestry
import VaultShell.Vault.Basic

/-!
# What a change leaves alone

A change of the tree is made at a place, which is a list of names.  Whatever does not lie at the
place or beneath it can be seen as before: the same node is there, and if it is a directory, then it
may have other children but not other attributes.  So the frame of a change is stated about nodes
without their children, `Node.bare`.

## Main definitions

* `Node.bareAt?`, `Vault.bareAt?`: what can be seen at a list of names or at a path, children apart
* `Node.kindAt?`, `Vault.kindAt?`: what they lead to, a file, a directory or nothing
* `Vault.SameOutside`: two vaults show the same, a place apart

## Main statements

* `Node.bareAt?_alter`: a change at a place leaves everything outside alone
* `Node.alter_induction`: what a change does to a node, it does to the tree
* `Vault.alterPlace_eq_ok`: what the changes of the tree's shape have in common
* `Vault.create_eq_ok`, `Vault.remove_eq_ok`, `Vault.place_eq_ok`: each of them
-/

namespace VaultShell

namespace Node

/-! ## Nodes without their children -/

/-- The node without its children. -/
def bare : Node → Node
  | .file attributes content => .file attributes content
  | .directory attributes _ => .directory attributes []

@[simp] theorem isDirectory_bare (node : Node) : node.bare.isDirectory = node.isDirectory := by
  cases node <;> rfl

@[simp] theorem kind_bare (node : Node) : node.bare.kind = node.kind := by
  cases node <;> rfl

/-- What can be seen at a list of names, children apart. -/
def bareAt? (node : Node) (names : List String) : Option Node :=
  (node.find? names).map bare

/-- What a list of names leads to: a file, a directory or nothing. -/
def kindAt? (node : Node) (names : List String) : Option Kind :=
  (node.find? names).map kind

theorem kindAt?_eq (node : Node) (names : List String) :
    node.kindAt? names = (node.bareAt? names).map kind := by
  unfold kindAt? bareAt?
  cases node.find? names with
  | none => rfl
  | some found => simp

theorem kindAt?_append (node : Node) (names more : List String) :
    node.kindAt? (names ++ more) = (node.find? names).bind fun inner => inner.kindAt? more := by
  unfold kindAt?
  rw [find?_append, Option.map_bind]
  rfl

/-- Other attributes of a node are no matter for what is a file and what a directory. -/
theorem kindAt?_mapAttributes (f : Attributes → Attributes) (node : Node) (names : List String) :
    (node.mapAttributes f).kindAt? names = node.kindAt? names := by
  cases node with
  | file attributes content => cases names <;> rfl
  | directory attributes children => cases names <;> rfl

/-- Whether a list of names leads to a directory. -/
def isDirectoryAt (node : Node) (names : List String) : Bool :=
  (node.find? names).any isDirectory

theorem isDirectoryAt_eq (node : Node) (names : List String) :
    node.isDirectoryAt names = (node.bareAt? names).any isDirectory := by
  unfold isDirectoryAt bareAt?
  cases node.find? names with
  | none => rfl
  | some found => simp

theorem isDirectoryAt_eq_true {node : Node} {names : List String} :
    node.isDirectoryAt names = true ↔
      ∃ attributes children, node.find? names = some (.directory attributes children) := by
  unfold isDirectoryAt
  cases node.find? names with
  | none => simp
  | some found => cases found <;> simp [isDirectory, kind]

theorem find?_cons (attributes : Attributes) (children : List (String × Node)) (name : String)
    (rest : List String) :
    (Node.directory attributes children).find? (name :: rest) =
      (Catalog.get? children name).bind fun child => child.find? rest := by
  simp only [find?, child?]
  cases Catalog.get? children name <;> rfl

/-- Nothing lies beneath a file, or where nothing is. -/
theorem find?_append_of_not_isDirectory {node : Node} {names : List String}
    (h : node.isDirectoryAt names = false) (name : String) (rest : List String) :
    node.find? (names ++ name :: rest) = none := by
  rw [find?_append]
  cases found : node.find? names with
  | none => rfl
  | some inner =>
      cases inner with
      | file attributes content => rfl
      | directory attributes children => simp [isDirectoryAt, found, isDirectory, kind] at h

/-- Everything above a directory is a directory. -/
theorem isDirectoryAt_of_prefix {node : Node} {above names : List String}
    (h : node.isDirectoryAt names = true) (begins : above <+: names) :
    node.isDirectoryAt above = true := by
  obtain ⟨more, rfl⟩ := begins
  cases more with
  | nil => rwa [List.append_nil] at h
  | cons name rest =>
      by_contra hnot
      have hnone := find?_append_of_not_isDirectory (by simpa using hnot) name rest
      simp [isDirectoryAt, hnone] at h

/-- Other attributes of a node are no matter for what lies beneath it. -/
theorem isDirectoryAt_mapAttributes (f : Attributes → Attributes) (node : Node)
    (names : List String) :
    (node.mapAttributes f).isDirectoryAt names = node.isDirectoryAt names := by
  cases node with
  | file attributes content => cases names <;> rfl
  | directory attributes children => cases names <;> rfl

/-- A node under another name and with another time holds the same beneath it. -/
theorem find?_cons_mapAttributes (f : Attributes → Attributes) (node : Node) (name : String)
    (rest : List String) : (node.mapAttributes f).find? (name :: rest) = node.find? (name :: rest) := by
  cases node with
  | file attributes content => rfl
  | directory attributes children => rfl

/-! ## A change at a list of names -/

variable {α : Type} {a : α} {node after : Node} {names : List String}

/-- **A change at a place leaves everything outside alone.**  The induction follows the names of the
place down; at each directory on the way another name leads to a child that is not touched, and the
directory itself keeps its attributes. -/
theorem bareAt?_alter {change : Node → Except Fault (α × Node)}
    (h : alter change names node = .ok (a, after)) {other : List String}
    (outside : ¬ names <+: other) : after.bareAt? other = node.bareAt? other := by
  induction names generalizing node after other with
  | nil => exact absurd List.nil_prefix outside
  | cons name rest ih =>
      obtain ⟨attributes, children, child, changed, rfl, hchild, hinner, rfl⟩ := alter_cons_eq_ok h
      cases other with
      -- The directory itself has other children now, but its bare form is the same.
      | nil => rfl
      | cons first others =>
          unfold bareAt?
          rw [find?_cons, find?_cons, Catalog.get?_put]
          by_cases same : name = first
          · subst same
            rw [if_pos rfl, hchild]
            exact ih hinner fun begins => outside (List.cons_prefix_cons.2 ⟨rfl, begins⟩)
          · rw [if_neg same]

/-- A change that would succeed on the node that the names lead to succeeds in the tree. -/
theorem exists_alter {change : Node → Except Fault (α × Node)} {old new : Node}
    (hold : node.find? names = some old) (hchange : change old = .ok (a, new)) :
    ∃ after, alter change names node = .ok (a, after) := by
  induction names generalizing node with
  | nil =>
      obtain rfl := Option.some.inj hold
      exact ⟨new, hchange⟩
  | cons name rest ih =>
      cases node with
      | file attributes content => cases hold
      | directory attributes children =>
          rw [find?_cons] at hold
          obtain ⟨child, hchild, hinner⟩ := Option.bind_eq_some_iff.1 hold
          obtain ⟨changed, halter⟩ := ih hinner
          refine ⟨.directory attributes (Catalog.put children name changed), ?_⟩
          simp only [alter, hchild, halter]

/-- **What a change does to a node, it does to the tree.**  A relation of the old node to the new one
that holds where the change is made, and that is handed on from a child to its directory, holds of the
old tree and the new one. -/
theorem alter_induction {change : Node → Except Fault (α × Node)} {R : Node → Node → Prop}
    (here : ∀ old new a, change old = .ok (a, new) → R old new)
    (up : ∀ attributes children name child changed, Catalog.get? children name = some child →
      R child changed →
        R (.directory attributes children) (.directory attributes (Catalog.put children name changed)))
    (h : alter change names node = .ok (a, after)) : R node after := by
  induction names generalizing node after with
  | nil => exact here node after a h
  | cons name rest ih =>
      obtain ⟨attributes, children, child, changed, rfl, hchild, hinner, rfl⟩ := alter_cons_eq_ok h
      exact up attributes children name child changed hchild (ih hinner)

/-- A change of a directory's children that touches a single name. -/
def OnlyAt (name : String) (change : Catalog Node → Except Fault (α × Catalog Node)) : Prop :=
  ∀ children a changed, change children = .ok (a, changed) →
    ∀ other, other ≠ name → Catalog.get? changed other = Catalog.get? children other

/-- A change of children that succeeds was made to those of a directory. -/
theorem alterChildren_eq_ok {change : Catalog Node → Except Fault (α × Catalog Node)}
    (h : alterChildren change node = .ok (a, after)) :
    ∃ attributes children changed, node = .directory attributes children ∧
      change children = .ok (a, changed) ∧ after = .directory attributes changed := by
  cases node with
  | file attributes content => cases h
  | directory attributes children =>
      unfold alterChildren at h
      cases hchange : change children with
      | error fault => simp [hchange] at h
      | ok result =>
          obtain ⟨b, changed⟩ := result
          simp only [hchange, Except.ok.injEq, Prod.mk.injEq] at h
          obtain ⟨rfl, rfl⟩ := h
          exact ⟨attributes, children, changed, rfl, hchange, rfl⟩

/-- A change of one child leaves everything alone that is neither the child nor beneath it. -/
theorem bareAt?_alterChildren {name : String}
    {change : Catalog Node → Except Fault (α × Catalog Node)} (only : OnlyAt name change)
    (h : alter (alterChildren change) names node = .ok (a, after)) {other : List String}
    (outside : ¬ names ++ [name] <+: other) : after.bareAt? other = node.bareAt? other := by
  by_cases beneath : names <+: other
  · -- Beneath the directory, so it is the other children that have to be the same.
    obtain ⟨rest, rfl⟩ := beneath
    obtain ⟨old, new, hold, hchange, hnew⟩ := find?_of_alter h
    obtain ⟨attributes, children, changed, rfl, hchildren, rfl⟩ := alterChildren_eq_ok hchange
    unfold bareAt?
    rw [find?_append, find?_append, hold, hnew]
    cases rest with
    | nil => rfl
    | cons first rest =>
        have hne : first ≠ name := by
          rintro rfl
          exact outside ⟨rest, by simp⟩
        show ((Node.directory attributes changed).find? (first :: rest)).map bare =
          ((Node.directory attributes children).find? (first :: rest)).map bare
        rw [find?_cons, find?_cons, only children a changed hchildren first hne]
  · exact bareAt?_alter h beneath

end Node

namespace Vault

/-- What can be seen at a path, children apart: kind, name, permissions, modification time and, of a
file, the content. -/
def bareAt? (vault : Vault) (path : String) : Option Node :=
  vault.root.bareAt? (Path.components path)

/-- What a path leads to: a file, a directory or nothing. -/
def kindAt? (vault : Vault) (path : String) : Option Kind :=
  vault.root.kindAt? (Path.components path)

/-- What is looked up under a canonical form is what the names of the path lead to. -/
theorem find?_normalize (vault : Vault) (path : String) :
    vault.find? (Path.normalize path) = vault.root.find? (Path.canonicalComponents path) := by
  rw [find?, Path.components_eq_canonicalComponents (Path.isCanonical_normalize path)]
  exact congrArg vault.root.find?
    (Path.canonicalComponents_render fun _ => Path.isName_of_mem_canonicalComponents)

/-- **Two vaults show the same, a place apart.** -/
def SameOutside (place : List String) (vault after : Vault) : Prop :=
  ∀ names, ¬ place <+: names → after.root.bareAt? names = vault.root.bareAt? names

variable {vault after : Vault} {path : String} {place : List String}

/-- Outside the place the same directories are there. -/
theorem SameOutside.isDirectoryAt (same : SameOutside place vault after) {names : List String}
    (outside : ¬ place <+: names) :
    after.root.isDirectoryAt names = vault.root.isDirectoryAt names := by
  rw [Node.isDirectoryAt_eq, Node.isDirectoryAt_eq, same names outside]

/-- Outside the place the same files and directories are there. -/
theorem SameOutside.kindAt? (same : SameOutside place vault after) {names : List String}
    (outside : ¬ place <+: names) : after.root.kindAt? names = vault.root.kindAt? names := by
  rw [Node.kindAt?_eq, Node.kindAt?_eq, same names outside]

/-- A change at a place is a change of the children of the directory that holds it. -/
theorem alter_of_alterPlace {α : Type} {a : α}
    {change : String → Catalog Node → Except Fault (α × Catalog Node)}
    (h : vault.alterPlace path change = .ok (a, after)) :
    ∃ parent name, Path.split path = .ok (parent, name) ∧
      Node.alter (Node.alterChildren (change name)) (Path.components parent) vault.root =
        .ok (a, after.root) := by
  unfold alterPlace at h
  split at h
  · cases h
  case h_2 parent name hsplit =>
    unfold alterChildren at h
    split at h
    · cases h
    case h_2 b root halter =>
      obtain ⟨rfl, rfl⟩ := h
      exact ⟨parent, name, hsplit, halter⟩

/-- Setting a modification time is a change of the node that the path leads to. -/
theorem alter_of_stamp? {time : Instant} (h : vault.stamp? path time = some after) :
    Node.alter (fun node => .ok ((), node.stamp time)) (Path.components path) vault.root =
      .ok ((), after.root) := by
  unfold stamp? at h
  split at h
  · cases h
  case h_2 root halter =>
    obtain rfl := Option.some.inj h
    exact halter

/-- **What the changes of the tree's shape have in common.**  They are made to the children of a
directory, at the name of the place; outside the place nothing changes, and at the place stands what
the change puts there. -/
theorem alterPlace_eq_ok {α : Type} {a : α}
    {change : String → Catalog Node → Except Fault (α × Catalog Node)}
    (only : ∀ name, Node.OnlyAt name (change name))
    (h : vault.alterPlace path change = .ok (a, after)) :
    ∃ parent name attributes children changed,
      Path.split path = .ok (parent, name) ∧
      vault.root.find? (Path.canonicalComponents parent) = some (.directory attributes children) ∧
      change name children = .ok (a, changed) ∧
      SameOutside (Path.canonicalComponents path) vault after ∧
      ∀ rest, after.root.find? (Path.canonicalComponents path ++ rest) =
        (Catalog.get? changed name).bind fun child => child.find? rest := by
  obtain ⟨parent, name, hsplit, halter⟩ := alter_of_alterPlace h
  obtain ⟨hpath, canonical⟩ := Path.canonicalComponents_of_split hsplit
  rw [Path.components_eq_canonicalComponents canonical] at halter
  obtain ⟨old, new, hold, hchange, hnew⟩ := Node.find?_of_alter halter
  obtain ⟨attributes, children, changed, rfl, hchildren, rfl⟩ := Node.alterChildren_eq_ok hchange
  refine ⟨parent, name, attributes, children, changed, hsplit, hold, hchildren, ?_, ?_⟩
  · intro names outside
    rw [hpath] at outside
    exact Node.bareAt?_alterChildren (only name) halter outside
  · intro rest
    rw [hpath, List.append_assoc, Node.find?_append, hnew]
    exact Node.find?_cons attributes changed name rest

/-! ## The changes of the tree's shape -/

theorem onlyAt_put (name : String) (node : Node) :
    Node.OnlyAt name fun children => .ok ((), Catalog.put children name node) := by
  intro children a changed h other hne
  obtain rfl := congrArg Prod.snd (Except.ok.inj h)
  exact (Catalog.get?_put children name other node).trans (if_neg (Ne.symm hne))

theorem onlyAt_create (name : String) (node : Node) :
    Node.OnlyAt name fun children =>
      if Catalog.has children name then .error .exists
      else .ok ((), Catalog.put children name node) := by
  intro children a changed h
  beta_reduce at h
  split at h
  · cases h
  · exact onlyAt_put name node children a changed h

theorem onlyAt_remove (name : String) :
    Node.OnlyAt name fun children =>
      match Catalog.get? children name with
      | none => .error .notFound
      | some node => .ok (node, Catalog.erase children name) := by
  intro children a changed h other hne
  beta_reduce at h
  split at h
  · cases h
  · obtain rfl := congrArg Prod.snd (Except.ok.inj h)
    exact Catalog.get?_erase_of_ne children hne

/-- The result of a change, and what else the change gave. -/
theorem eq_ok_of_map_snd {ε α β : Type} {result : Except ε (α × β)} {b : β}
    (h : result.map Prod.snd = .ok b) : ∃ a, result = .ok (a, b) := by
  cases result with
  | error e => cases h
  | ok pair =>
      obtain ⟨a, b'⟩ := pair
      obtain rfl := Except.ok.inj h
      exact ⟨a, rfl⟩

/-- The change of the children that creating makes: the name was free and is filled. -/
theorem change_of_create {children changed : Catalog Node} {name : String} {node : Node} {a : Unit}
    (h : (if Catalog.has children name then .error .exists
      else .ok ((), Catalog.put children name node) : Except Fault (Unit × Catalog Node)) =
        .ok (a, changed)) :
    Catalog.get? children name = none ∧ changed = Catalog.put children name node := by
  split at h
  · cases h
  case isFalse unused =>
    refine ⟨?_, (congrArg Prod.snd (Except.ok.inj h)).symm⟩
    simpa [Catalog.has] using unused

/-- **Creating** needs a free place and fills it. -/
theorem create_eq_ok {make : String → Node} (h : vault.create path make = .ok after) :
    SameOutside (Path.canonicalComponents path) vault after ∧
      vault.root.find? (Path.canonicalComponents path) = none ∧
      ∃ parent name, Path.split path = .ok (parent, name) ∧
        after.root.find? (Path.canonicalComponents path) = some (make name) := by
  obtain ⟨a, h⟩ := eq_ok_of_map_snd h
  obtain ⟨parent, name, attributes, children, changed, hsplit, hparent, hchange, same, found⟩ :=
    alterPlace_eq_ok (fun name => onlyAt_create name (make name)) h
  obtain ⟨free, rfl⟩ := change_of_create hchange
  refine ⟨same, ?_, parent, name, hsplit, ?_⟩
  · rw [(Path.canonicalComponents_of_split hsplit).1, Node.find?_append, hparent]
    show (Node.directory attributes children).find? [name] = none
    rw [Node.find?_cons, free]
    rfl
  · have filled := found []
    rw [List.append_nil, Catalog.get?_put, if_pos rfl] at filled
    exact filled

/-- What is created is one more among the children of the directory that holds the place. -/
theorem children_of_create {make : String → Node} {parent name : String} {attributes : Attributes}
    {children : Catalog Node} (h : vault.create path make = .ok after)
    (hsplit : Path.split path = .ok (parent, name))
    (held : vault.root.find? (Path.canonicalComponents parent) = some (.directory attributes children)) :
    Catalog.get? children name = none ∧
      after.root.find? (Path.canonicalComponents parent) =
        some (.directory attributes (Catalog.put children name (make name))) := by
  obtain ⟨a, h⟩ := eq_ok_of_map_snd h
  obtain ⟨parent', name', hsplit', halter⟩ := alter_of_alterPlace h
  obtain ⟨rfl, rfl⟩ := Prod.mk.inj (Except.ok.inj (hsplit.symm.trans hsplit'))
  obtain ⟨-, canonical⟩ := Path.canonicalComponents_of_split hsplit
  rw [Path.components_eq_canonicalComponents canonical] at halter
  obtain ⟨old, new, hold, hchange, hnew⟩ := Node.find?_of_alter halter
  obtain rfl := Option.some.inj (held.symm.trans hold)
  obtain ⟨attributes', children', changed, same, hchildren, rfl⟩ := Node.alterChildren_eq_ok hchange
  obtain ⟨rfl, rfl⟩ := Node.directory.inj same
  obtain ⟨free, rfl⟩ := change_of_create hchildren
  exact ⟨free, hnew⟩

/-- **Removing** needs a node and hands it back. -/
theorem remove_eq_ok {node : Node} (h : vault.remove path = .ok (node, after)) :
    SameOutside (Path.canonicalComponents path) vault after ∧
      vault.root.find? (Path.canonicalComponents path) = some node := by
  obtain ⟨parent, name, attributes, children, changed, hsplit, hparent, hchange, same, -⟩ :=
    alterPlace_eq_ok onlyAt_remove h
  cases held : Catalog.get? children name with
  | none => simp [held] at hchange
  | some child =>
      simp only [held, Except.ok.injEq, Prod.mk.injEq] at hchange
      obtain ⟨rfl, -⟩ := hchange
      refine ⟨same, ?_⟩
      rw [(Path.canonicalComponents_of_split hsplit).1, Node.find?_append, hparent]
      show (Node.directory attributes children).find? [name] = some child
      rw [Node.find?_cons, held]
      rfl

/-- **Placing** a node puts it there under the name of the place, with all that lies beneath it. -/
theorem place_eq_ok {node : Node} (h : vault.place path node = .ok after) :
    SameOutside (Path.canonicalComponents path) vault after ∧
      ∃ parent name, Path.split path = .ok (parent, name) ∧
        vault.root.isDirectoryAt (Path.canonicalComponents parent) = true ∧
        ∀ rest, after.root.find? (Path.canonicalComponents path ++ rest) =
          (node.rename name).find? rest := by
  obtain ⟨a, h⟩ := eq_ok_of_map_snd h
  obtain ⟨parent, name, attributes, children, changed, hsplit, hparent, hchange, same, found⟩ :=
    alterPlace_eq_ok (fun name => onlyAt_put name (node.rename name)) h
  obtain rfl := congrArg Prod.snd (Except.ok.inj hchange)
  refine ⟨same, parent, name, hsplit, ?_, ?_⟩
  · exact Node.isDirectoryAt_eq_true.2 ⟨attributes, children, hparent⟩
  · intro rest
    rw [found rest]
    show (Catalog.get? (Catalog.put children name (node.rename name)) name).bind _ = _
    rw [Catalog.get?_put, if_pos rfl]
    rfl

/-- At the place stand the directories of the node that was placed. -/
theorem isDirectoryAt_of_place {node : Node} (h : vault.place path node = .ok after)
    (rest : List String) :
    after.root.isDirectoryAt (Path.canonicalComponents path ++ rest) = node.isDirectoryAt rest := by
  obtain ⟨-, parent, name, -, -, found⟩ := place_eq_ok h
  have renamed := Node.isDirectoryAt_mapAttributes (fun a => { a with name }) node rest
  unfold Node.isDirectoryAt at renamed ⊢
  rw [found rest]
  exact renamed

/-- At the place stand the files and directories of the node that was placed. -/
theorem kindAt?_of_place {node : Node} (h : vault.place path node = .ok after)
    (rest : List String) :
    after.root.kindAt? (Path.canonicalComponents path ++ rest) = node.kindAt? rest := by
  obtain ⟨-, parent, name, -, -, found⟩ := place_eq_ok h
  have renamed := Node.kindAt?_mapAttributes (fun a => { a with name }) node rest
  unfold Node.kindAt? at renamed ⊢
  rw [found rest]
  exact renamed

/-- A change of one place that would succeed on the children of the directory there succeeds in the
vault. -/
theorem exists_alterPlace {α : Type} {a : α}
    {change : String → Catalog Node → Except Fault (α × Catalog Node)} {parent name : String}
    {attributes : Attributes} {children changed : Catalog Node}
    (hsplit : Path.split path = .ok (parent, name))
    (held : vault.root.find? (Path.canonicalComponents parent) = some (.directory attributes children))
    (hchange : change name children = .ok (a, changed)) :
    ∃ after, vault.alterPlace path change = .ok (a, after) := by
  obtain ⟨-, canonical⟩ := Path.canonicalComponents_of_split hsplit
  rw [← Path.components_eq_canonicalComponents canonical] at held
  have changes : Node.alterChildren (change name) (.directory attributes children) =
      .ok (a, .directory attributes changed) := by
    simp only [Node.alterChildren, hchange]
  obtain ⟨root, altered⟩ := Node.exists_alter held changes
  refine ⟨⟨root⟩, ?_⟩
  simp only [alterPlace, hsplit, alterChildren, altered]

/-- A node can be placed wherever a directory holds the place. -/
theorem exists_place {parent name : String} (hsplit : Path.split path = .ok (parent, name))
    (held : vault.root.isDirectoryAt (Path.canonicalComponents parent) = true) (node : Node) :
    ∃ after, vault.place path node = .ok after := by
  obtain ⟨attributes, children, found⟩ := Node.isDirectoryAt_eq_true.1 held
  let change := fun (name : String) (children : Catalog Node) =>
    (.ok ((), Catalog.put children name (node.rename name)) : Except Fault (Unit × Catalog Node))
  have changes : change name children =
      .ok ((), Catalog.put children name (node.rename name)) := rfl
  obtain ⟨after, altered⟩ := exists_alterPlace hsplit found changes
  refine ⟨after, ?_⟩
  show (vault.alterPlace path change).map Prod.snd = .ok after
  rw [altered]
  rfl

/-- Whatever is free can be filled, wherever a directory holds the place. -/
theorem exists_create {parent name : String} (hsplit : Path.split path = .ok (parent, name))
    (held : vault.root.isDirectoryAt (Path.canonicalComponents parent) = true)
    (free : vault.root.find? (Path.canonicalComponents path) = none) (make : String → Node) :
    ∃ after, vault.create path make = .ok after := by
  obtain ⟨attributes, children, found⟩ := Node.isDirectoryAt_eq_true.1 held
  rw [(Path.canonicalComponents_of_split hsplit).1, Node.find?_append, found] at free
  have unused : Catalog.get? children name = none := by
    cases used : Catalog.get? children name with
    | none => rfl
    | some child => simp [Node.find?, Node.child?, used] at free
  let change := fun (name : String) (children : Catalog Node) =>
    (if Catalog.has children name then .error .exists
      else .ok ((), Catalog.put children name (make name)) : Except Fault (Unit × Catalog Node))
  have changes : change name children = .ok ((), Catalog.put children name (make name)) := by
    simp [change, Catalog.has, unused]
  obtain ⟨after, altered⟩ := exists_alterPlace hsplit found changes
  refine ⟨after, ?_⟩
  show (vault.alterPlace path change).map Prod.snd = .ok after
  rw [altered]
  rfl

/-- What is beneath a directory is what it keeps under the name. -/
theorem find?_join {name : String} {attributes : Attributes} {children : Catalog Node}
    (canonical : Path.IsCanonical path) (isName : Path.IsName name)
    (held : vault.find? path = some (.directory attributes children)) :
    vault.find? (Path.join path name) = Catalog.get? children name := by
  have names : Path.components (Path.join path name) = Path.components path ++ [name] :=
    (Path.join_eq canonical isName).2.1
  rw [find?] at held ⊢
  rw [names, Node.find?_append, held]
  show (Node.directory attributes children).find? [name] = _
  rw [Node.find?_cons]
  cases Catalog.get? children name <;> rfl

/-- A new name can be filled, and is then one more among the children. -/
theorem exists_create_join {name : String} {attributes : Attributes} {children : Catalog Node}
    (canonical : Path.IsCanonical path) (isName : Path.IsName name)
    (held : vault.find? path = some (.directory attributes children))
    (free : Catalog.get? children name = none) (make : String → Node) :
    ∃ after, vault.create (Path.join path name) make = .ok after ∧
      after.find? path = some (.directory attributes (Catalog.put children name (make name))) := by
  obtain ⟨joined, -, split⟩ := Path.join_eq canonical isName
  have nothing := find?_join canonical isName held
  rw [free, find?, Path.components_eq_canonicalComponents joined] at nothing
  rw [find?, Path.components_eq_canonicalComponents canonical] at held
  have directory : vault.root.isDirectoryAt (Path.canonicalComponents path) = true :=
    Node.isDirectoryAt_eq_true.2 ⟨attributes, children, held⟩
  obtain ⟨after, created⟩ := exists_create split directory nothing make
  refine ⟨after, created, ?_⟩
  rw [find?, Path.components_eq_canonicalComponents canonical]
  exact (children_of_create created split held).2

/-- **Whatever is there can be removed**, the root apart, which lies in no directory. -/
theorem exists_remove {parent name : String} {node : Node}
    (hsplit : Path.split path = .ok (parent, name))
    (found : vault.root.find? (Path.canonicalComponents path) = some node) :
    ∃ after, vault.remove path = .ok (node, after) := by
  rw [(Path.canonicalComponents_of_split hsplit).1, Node.find?_append] at found
  obtain ⟨inner, held, hnode⟩ := Option.bind_eq_some_iff.1 found
  cases inner with
  | file attributes content => cases hnode
  | directory attributes children =>
      rw [Node.find?_cons] at hnode
      obtain ⟨child, hchild, hrest⟩ := Option.bind_eq_some_iff.1 hnode
      obtain rfl := Option.some.inj hrest
      have changes : (match Catalog.get? children name with
          | none => .error .notFound
          | some node => .ok (node, Catalog.erase children name) :
          Except Fault (Node × Catalog Node)) = .ok (child, Catalog.erase children name) := by
        simp only [hchild]
      exact exists_alterPlace hsplit held changes

/-- **What can be removed** is whatever is there, the root apart. -/
theorem exists_remove_iff :
    (∃ removed, vault.remove path = .ok removed) ↔
      Path.normalize path ≠ Path.root ∧ vault.has (Path.normalize path) = true := by
  rw [has, find?_normalize, Option.isSome_iff_exists]
  constructor
  · rintro ⟨⟨node, after⟩, removed⟩
    obtain ⟨parent, name, hsplit, -⟩ := alter_of_alterPlace removed
    refine ⟨?_, node, (remove_eq_ok removed).2⟩
    rw [Ne, Path.normalize_eq_root_iff, (Path.canonicalComponents_of_split hsplit).1]
    exact List.concat_ne_nil name _
  · rintro ⟨notRoot, node, found⟩
    obtain ⟨parent, name, hsplit⟩ := Path.exists_split (mt Path.normalize_eq_root_iff.2 notRoot)
    obtain ⟨after, removed⟩ := exists_remove hsplit found
    exact ⟨_, removed⟩

/-- Where nothing is, no modification time can be set. -/
theorem stamp?_eq_none (nothing : vault.find? path = none) (time : Instant) :
    vault.stamp? path time = none := by
  cases stamped : vault.stamp? path time with
  | none => rfl
  | some after =>
      obtain ⟨old, new, reached, -⟩ := Node.find?_of_alter (alter_of_stamp? stamped)
      exact absurd (nothing.symm.trans reached) (Option.some_ne_none old).symm

/-- **Setting a modification time** keeps every node where and what it is. -/
theorem isDirectoryAt_of_stamp? {time : Instant} (h : vault.stamp? path time = some after)
    (names : List String) : after.root.isDirectoryAt names = vault.root.isDirectoryAt names := by
  have halter := alter_of_stamp? h
  by_cases beneath : Path.components path <+: names
  · obtain ⟨rest, rfl⟩ := beneath
    obtain ⟨old, new, hold, hchange, hnew⟩ := Node.find?_of_alter halter
    obtain rfl := congrArg Prod.snd (Except.ok.inj hchange)
    have stamped := Node.isDirectoryAt_mapAttributes (fun a => { a with modified := time }) old rest
    unfold Node.isDirectoryAt at stamped ⊢
    rw [Node.find?_append, Node.find?_append, hold, hnew]
    exact stamped
  · rw [Node.isDirectoryAt_eq, Node.isDirectoryAt_eq, Node.bareAt?_alter halter beneath]

end Vault

end VaultShell
