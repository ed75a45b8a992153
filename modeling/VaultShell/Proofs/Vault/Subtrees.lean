import Mathlib.Order.Defs.Unbundled
import VaultShell.Proofs.Vault.WellFormed

/-!
# Subtrees and their paths

Whether one place lies in another one is decided on the texts of their paths, before anything is changed:
one path has to begin with the other one and a slash.  What is at stake are nodes: those of the subtree at
the one place, which a change there may replace or take away.  A path alone cannot say which nodes these
are; it is the tree that says it, by what its directories hold.

The two agree on canonical paths in a well-formed tree.  On the way down through a subtree every path goes
on from that of the directory by a slash and a name, and every path that goes on so and leads somewhere is
come by on the way.  Names that begin alike are no matter, since the slash ends a name.

Paths that do not lie in one another part at some name.  A change at the one puts other children under its
own name there, and under the other name everything is as it was, however deep.

## Main definitions

* `Vault.InSubtree`: the nodes of the subtree at a path, with the paths that lead to them

## Main statements

* `Path.isPartialOrder_isUnder`: ancestry orders the canonical paths
* `Vault.inSubtree_iff`: the nodes of a subtree are those with a path under its own
* `Vault.find?_alterPlace_of_apart`: a change leaves alone what lies elsewhere
* `Vault.isUnder_ancestry`: the order of paths is that of the tree
-/

namespace VaultShell

/-! ## The order of paths -/

namespace Path

variable {path above top : String} {names others : List String}

theorem isUnder_root (path : String) : isUnder path root = true := by
  simp [isUnder]

/-- **Ancestry orders the canonical paths**, since their names are told from the text. -/
theorem isPartialOrder_isUnder :
    IsPartialOrder {path : String // IsCanonical path} fun path above =>
      isUnder path.1 above.1 = true where
  refl path := isUnder_self path.1
  trans path above top within within' := by
    rw [isUnder_iff path.2 above.2] at within
    rw [isUnder_iff above.2 top.2] at within'
    exact (isUnder_iff path.2 top.2).2 (within'.trans within)
  antisymm path above within within' := by
    rw [isUnder_iff path.2 above.2] at within
    rw [isUnder_iff above.2 path.2] at within'
    have same : components path.1 = components above.1 :=
      within'.eq_of_length_le within.length_le
    apply Subtype.ext
    rw [← render_components path.2, same, render_components above.2]

/-- **Ways that do not lead through one another part** at some name. -/
theorem exists_parting (apart : ¬ names <+: others) (apart' : ¬ others <+: names) :
    ∃ shared name rest name' rest', name ≠ name' ∧ names = shared ++ name :: rest ∧
      others = shared ++ name' :: rest' := by
  induction names generalizing others with
  | nil => exact absurd List.nil_prefix apart
  | cons name rest ih =>
      cases others with
      | nil => exact absurd List.nil_prefix apart'
      | cons name' rest' =>
          by_cases together : name = name'
          · subst together
            rw [List.prefix_cons_inj] at apart apart'
            obtain ⟨shared, first, more, first', more', hne, rfl, rfl⟩ := ih apart apart'
            exact ⟨name :: shared, first, more, first', more', hne, rfl, rfl⟩
          · exact ⟨[], name, rest, name', rest', together, rfl, rfl⟩

end Path

/-! ## What lies elsewhere -/

namespace Node

variable {α : Type} {a : α} {node after : Node} {names other : List String} {name : String}

/-- A change at some names leaves the nodes alone that lie elsewhere, with all that is beneath them. -/
theorem find?_alter_of_apart {change : Node → Except Fault (α × Node)}
    (h : alter change names node = .ok (a, after)) (apart : ¬ names <+: other)
    (apart' : ¬ other <+: names) : after.find? other = node.find? other := by
  obtain ⟨shared, name, rest, name', rest', hne, hnames, rfl⟩ := Path.exists_parting apart apart'
  exact find?_alter_of_diverge h hne hnames

/-- So does a change of one child. -/
theorem find?_alterChildren_of_apart {change : Catalog Node → Except Fault (α × Catalog Node)}
    (only : OnlyAt name change) (h : alter (alterChildren change) names node = .ok (a, after))
    (apart : ¬ names ++ [name] <+: other) (apart' : ¬ other <+: names ++ [name]) :
    after.find? other = node.find? other := by
  obtain ⟨shared, first, rest, first', rest', hne, hplace, rfl⟩ := Path.exists_parting apart apart'
  rcases List.eq_nil_or_concat' rest with rfl | ⟨front, last, rfl⟩
  · -- The ways part in the directory itself, where the other name keeps its child.
    obtain ⟨rfl, hname⟩ := List.append_inj' hplace rfl
    obtain rfl : name = first := List.singleton_inj.1 hname
    obtain ⟨old, new, hold, hchange, hnew⟩ := find?_of_alter h
    obtain ⟨attributes, children, changed, rfl, hchildren, rfl⟩ := alterChildren_eq_ok hchange
    rw [find?_append, find?_append, hold, hnew]
    show (directory attributes changed).find? (first' :: rest') =
      (directory attributes children).find? (first' :: rest')
    rw [find?_cons, find?_cons, only children a changed hchildren first' (Ne.symm hne)]
  · have place : names ++ [name] = (shared ++ first :: front) ++ [last] := by
      rw [hplace, List.append_assoc, List.cons_append]
    obtain ⟨above, -⟩ := List.append_inj' place rfl
    exact find?_alter_of_diverge h hne above

end Node

namespace Vault

variable {vault after : Vault} {path top : String} {node : Node}

/-- **A change of the tree's shape leaves alone what lies elsewhere.** -/
theorem find?_alterPlace_of_apart {α : Type} {a : α}
    {change : String → Catalog Node → Except Fault (α × Catalog Node)}
    (only : ∀ name, Node.OnlyAt name (change name))
    (h : vault.alterPlace path change = .ok (a, after)) {names : List String}
    (apart : ¬ Path.canonicalComponents path <+: names)
    (apart' : ¬ names <+: Path.canonicalComponents path) :
    after.root.find? names = vault.root.find? names := by
  obtain ⟨parent, name, hsplit, halter⟩ := alter_of_alterPlace h
  obtain ⟨hpath, canonical⟩ := Path.canonicalComponents_of_split hsplit
  rw [← Path.components_eq_canonicalComponents canonical] at hpath
  rw [hpath] at apart apart'
  exact Node.find?_alterChildren_of_apart (only name) halter apart apart'

/-- Whatever is there, the root apart, is held by a directory. -/
theorem exists_holder_of_find? (canonical : Path.IsCanonical path) (notRoot : Path.components path ≠ [])
    (found : vault.find? path = some node) :
    ∃ parent name, Path.split path = .ok (parent, name) ∧
      vault.root.isDirectoryAt (Path.canonicalComponents parent) = true := by
  rw [find?, Path.components_eq_canonicalComponents canonical] at found
  rw [Path.components_eq_canonicalComponents canonical] at notRoot
  obtain ⟨parent, name, hsplit⟩ := Path.exists_split notRoot
  refine ⟨parent, name, hsplit, ?_⟩
  rw [(Path.canonicalComponents_of_split hsplit).1] at found
  by_contra noDirectory
  have nothing := Node.find?_append_of_not_isDirectory (by simpa using noDirectory) name []
  exact Option.some_ne_none node (found.symm.trans nothing)

/-! ## The nodes of a subtree -/

/-- **The nodes of the subtree at a path**: the one that the path leads to, and whatever a directory among
them holds.  Two nodes may be equal in all that they hold, so each comes with its path, which is put
together on the way down. -/
inductive InSubtree (vault : Vault) (top : String) : String → Node → Prop
  | top {node : Node} (found : vault.find? top = some node) : InSubtree vault top top node
  | child {path name : String} {attributes : Attributes} {children : List (String × Node)}
      {node : Node} (holder : InSubtree vault top path (.directory attributes children))
      (held : Catalog.get? children name = some node) :
      InSubtree vault top (Path.join path name) node

/-- On the way down a path goes on by a name, and a lookup finds what was come by. -/
theorem InSubtree.within (h : vault.root.WellFormed) (canonical : Path.IsCanonical top)
    (inside : vault.InSubtree top path node) :
    Path.IsCanonical path ∧ Path.components top <+: Path.components path ∧
      vault.find? path = some node := by
  induction inside with
  | top found => exact ⟨canonical, List.prefix_refl _, found⟩
  | @child path name attributes children node holder held ih =>
      obtain ⟨canonicalPath, begins, found⟩ := ih
      obtain ⟨-, -, isName⟩ := (h.find? found).child held
      obtain ⟨joined, names, -⟩ := Path.join_eq canonicalPath isName
      refine ⟨joined, ?_, (find?_join canonicalPath isName found).trans held⟩
      rw [names]
      exact begins.trans (List.prefix_append _ _)

/-- Whatever names lead to from the node at a path, they lead there through its subtree. -/
theorem inSubtree_of_find? (h : vault.root.WellFormed) (canonical : Path.IsCanonical top)
    {more : List String} (found : vault.root.find? (Path.components top ++ more) = some node) :
    vault.InSubtree top (Path.render (Path.components top ++ more)) node := by
  -- By induction from the last name: the one before it leads to the directory that holds the node.
  induction more using List.reverseRecOn generalizing node with
  | nil =>
      rw [List.append_nil] at found ⊢
      rw [Path.render_components canonical]
      exact .top found
  | append_singleton front last ih =>
      have isName := h.isName_of_find? found
      rw [← List.append_assoc] at found isName ⊢
      rw [Node.find?_append] at found
      obtain ⟨holder, hholder, held⟩ := Option.bind_eq_some_iff.1 found
      cases holder with
      | file attributes content => cases held
      | directory attributes children =>
          rw [Node.find?_cons] at held
          obtain ⟨child, hchild, same⟩ := Option.bind_eq_some_iff.1 held
          obtain rfl := Option.some.inj same
          rw [← Path.join_render fun n member => isName n (List.mem_append_left [last] member)]
          exact .child (ih hholder) hchild

/-- **The nodes of a subtree are those with a path under its own.** -/
theorem inSubtree_iff (h : vault.root.WellFormed) (canonicalPath : Path.IsCanonical path)
    (canonical : Path.IsCanonical top) :
    vault.InSubtree top path node ↔ vault.find? path = some node ∧ Path.isUnder path top = true := by
  rw [Path.isUnder_iff canonicalPath canonical]
  constructor
  · intro inside
    obtain ⟨-, begins, found⟩ := inside.within h canonical
    exact ⟨found, begins⟩
  · rintro ⟨found, more, names⟩
    rw [find?, ← names] at found
    have inside := inSubtree_of_find? h canonical found
    rwa [names, Path.render_components canonicalPath] at inside

/-! ## Paths and the tree -/

/-- **The order of paths is that of the tree.**  A canonical path is under another one if its names begin
with the names of the other.  This orders the canonical paths, with everything under the root.  In a
well-formed tree a path leads to a node of the subtree at another path if it leads to a node at all and is
under the other.  And if neither path is under the other one, then the subtree at the other can be
replaced or removed, or the node there be changed in any way, and the path leads to the same as before. -/
theorem isUnder_ancestry :
    (∀ path above, Path.IsCanonical path → Path.IsCanonical above →
      (Path.isUnder path above = true ↔ Path.components above <+: Path.components path)) ∧
    IsPartialOrder {path : String // Path.IsCanonical path}
      (fun path above => Path.isUnder path.1 above.1 = true) ∧
    (∀ path, Path.isUnder path Path.root = true) ∧
    ∀ vault : Vault, vault.root.WellFormed → ∀ path above, Path.IsCanonical path →
      Path.IsCanonical above → vault.has above = true →
      (∀ node, vault.InSubtree above path node ↔
        vault.find? path = some node ∧ Path.isUnder path above = true) ∧
      (Path.isUnder path above = false → Path.isUnder above path = false →
        (∀ node, ∃ after, vault.place above node = .ok after ∧
          after.find? path = vault.find? path) ∧
        (∃ node after, vault.remove above = .ok (node, after) ∧
          after.find? path = vault.find? path) ∧
        ∀ change : Node → Node, ∃ root,
          Node.alter (fun node => .ok ((), change node)) (Path.components above) vault.root =
            .ok ((), root) ∧ (Vault.mk root).find? path = vault.find? path) := by
  refine ⟨fun _ _ => Path.isUnder_iff, Path.isPartialOrder_isUnder, Path.isUnder_root, ?_⟩
  intro vault wellFormed path above canonical canonicalAbove there
  refine ⟨fun node => inSubtree_iff wellFormed canonical canonicalAbove, ?_⟩
  intro free free'
  have apart : ¬ Path.components above <+: Path.components path := by
    rw [← Path.isUnder_iff canonical canonicalAbove, free]
    exact Bool.false_ne_true
  have apart' : ¬ Path.components path <+: Path.components above := by
    rw [← Path.isUnder_iff canonicalAbove canonical, free']
    exact Bool.false_ne_true
  have notRoot : Path.components above ≠ [] := fun root =>
    apart (by rw [root]; exact List.nil_prefix)
  obtain ⟨top, found⟩ := Option.isSome_iff_exists.1 there
  obtain ⟨parent, name, hsplit, directory⟩ := exists_holder_of_find? canonicalAbove notRoot found
  have names := Path.components_eq_canonicalComponents canonicalAbove
  refine ⟨?_, ?_, ?_⟩
  · intro node
    obtain ⟨after, placed⟩ := exists_place hsplit directory node
    obtain ⟨a, altered⟩ := eq_ok_of_map_snd placed
    rw [names] at apart apart'
    exact ⟨after, placed, find?_alterPlace_of_apart
      (fun name => onlyAt_put name (node.rename name)) altered apart apart'⟩
  · have found' := found
    rw [find?, names] at found'
    obtain ⟨after, removed⟩ := exists_remove hsplit found'
    rw [names] at apart apart'
    exact ⟨top, after, removed, find?_alterPlace_of_apart onlyAt_remove removed apart apart'⟩
  · intro change
    let changed := fun node => (.ok ((), change node) : Except Fault (Unit × Node))
    have changes : changed top = .ok ((), change top) := rfl
    obtain ⟨root, altered⟩ := Node.exists_alter found changes
    exact ⟨root, altered, Node.find?_alter_of_apart altered apart apart'⟩

/-- Two directories whose names begin alike: what is beneath the one is in its subtree, and when the
other one is removed the file beneath the one is still there. -/
theorem isUnder_ancestry_alike :
    let vault := ((Workbench.start .origin).run [.createDirectory "/d" .origin,
      .createDirectory "/db" .origin, .createFile "/d/a" "text" .origin]).vault
    Path.IsCanonical "/d/a" ∧ Path.IsCanonical "/d" ∧ Path.IsCanonical "/db" ∧
      vault.root.WellFormed ∧ vault.has "/d" = true ∧ vault.has "/db" = true ∧
      "/d".toList <+: "/db".toList ∧
      Path.isUnder "/d/a" "/db" = false ∧ Path.isUnder "/db" "/d/a" = false ∧
      Path.components "/d" <+: Path.components "/d/a" ∧
      (∃ node, vault.InSubtree "/d" "/d/a" node) ∧
      ∃ node after, vault.remove "/db" = .ok (node, after) ∧ after.read "/d/a" = .ok "text" := by
  intro vault
  have wellFormed : vault.WellFormed := ((Workbench.sound_start .origin).run _).vault
  have canonical : Path.IsCanonical "/d/a" := by decide +kernel
  have canonicalTop : Path.IsCanonical "/d" := by decide +kernel
  have canonicalOther : Path.IsCanonical "/db" := by decide +kernel
  have top : vault.has "/d" = true := by decide +kernel
  have other : vault.has "/db" = true := by decide +kernel
  have free : Path.isUnder "/d/a" "/db" = false := by decide +kernel
  have free' : Path.isUnder "/db" "/d/a" = false := by decide +kernel
  have reads : vault.read "/d/a" = .ok "text" := by rfl
  obtain ⟨names, -, -, tree⟩ := isUnder_ancestry
  have under : Path.isUnder "/d/a" "/d" = true := by decide +kernel
  obtain ⟨node, found⟩ : ∃ node, vault.find? "/d/a" = some node := ⟨_, rfl⟩
  obtain ⟨inside, -⟩ := tree vault wellFormed.tree "/d/a" "/d" canonical canonicalTop top
  obtain ⟨-, elsewhere⟩ := tree vault wellFormed.tree "/d/a" "/db" canonical canonicalOther other
  obtain ⟨-, ⟨removed, after, gone, same⟩, -⟩ := elsewhere free free'
  refine ⟨canonical, canonicalTop, canonicalOther, wellFormed.tree, top, other, by decide, free, free',
    (names "/d/a" "/d" canonical canonicalTop).1 under, ⟨node, (inside node).2 ⟨found, under⟩⟩,
    removed, after, gone, ?_⟩
  rw [read, same]
  exact reads

end Vault

end VaultShell
