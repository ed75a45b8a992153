import VaultShell.Proofs.Vault.FlatView
import VaultShell.Proofs.Vault.Pruning

/-!
# Operations on the flat view

A vault is changed inside its tree, but what a change does can be told on the flat view alone.  Whether
a place may be changed is a matter of the entry of the directory that holds it.  A new node is one entry
more, a removal takes away the entries at a place and beneath it, and a node that is placed brings its
own flat view along, with the paths put on a new root.

The operations on the flat view are written for lists of entries and know nothing of trees.  That the
operations of the vault follow them is a square for each: first the operation and then the flat view,
or first the flat view and then the operation on it, with the same result or the same fault.

## Main definitions

* `FlatView.refusal?`: why nothing can be changed at a path
* `FlatView.create`, `FlatView.remove`, `FlatView.graft`: the operations

## Main statements

* `Vault.alterPlace_of_refusal?`: the flat view knows why a change is refused
* `Vault.entries_eq`: what makes a list of entries the flat view
* `Vault.create_entries`, `Vault.remove_entries`, `Vault.place_entries`: the squares
* `Vault.operations_on_flat_view`: all of them, and when they succeed
-/

namespace VaultShell

/-! ## The operations -/

namespace FlatView

/-- Why nothing can be changed at a canonical path: it is the root's, or what should hold the place is
not there or is no directory. -/
def refusal? (view : Catalog Entry) (place : String) : Option Fault :=
  if place = Path.root then some .invalidPath
  else
    match (Catalog.get? view (Path.parent place)).map Entry.kind with
    | none => some .notFound
    | some .file => some .notDirectory
    | some .directory => none

/-- What does not lie at a place or beneath it. -/
def without (view : Catalog Entry) (place : String) : Catalog Entry :=
  view.filter fun member => !Path.isUnder member.1 place

/-- An entry of a subtree, once the subtree's root stands at a place. -/
def reroot (place : String) (entry : Entry) : Entry :=
  { entry with path := if entry.path = Path.root then place else place ++ entry.path }

/-- The entries of a subtree, once its root stands at a place. -/
def rerooted (place : String) (subtree : Catalog Entry) : List (String × Entry) :=
  subtree.map fun member => ((reroot place member.2).path, reroot place member.2)

/-- Adds an entry at a free place. -/
def create (view : Catalog Entry) (place : String) (entry : Entry) : Except Fault (Catalog Entry) :=
  match refusal? view place with
  | some fault => .error fault
  | none => if Catalog.has view place then .error .exists else .ok (Catalog.put view place entry)

/-- Takes away what lies at a place and beneath it. -/
def remove (view : Catalog Entry) (place : String) : Except Fault (Catalog Entry) :=
  match refusal? view place with
  | some fault => .error fault
  | none => if Catalog.has view place then .ok (without view place) else .error .notFound

/-- Puts a subtree at a place, instead of whatever was there. -/
def graft (view : Catalog Entry) (place : String) (subtree : Catalog Entry) :
    Except Fault (Catalog Entry) :=
  match refusal? view place with
  | some fault => .error fault
  | none => .ok (Catalog.ofList (without view place ++ rerooted place subtree))

end FlatView

/-! ## Refused changes -/

namespace Node

variable {α : Type} {node old : Node} {names : List String} {fault : Fault}
  {change : Node → Except Fault (α × Node)}

/-- Where names lead nowhere there is nothing to change. -/
theorem alter_of_find?_eq_none (missing : node.find? names = none) :
    alter change names node = .error .notFound := by
  induction names generalizing node with
  | nil => cases missing
  | cons name rest ih =>
      cases node with
      | file attributes content => rfl
      | directory attributes children =>
          rw [find?_cons] at missing
          simp only [alter]
          cases hchild : Catalog.get? children name with
          | none => rfl
          | some child =>
              rw [hchild] at missing
              simp only [ih missing]

/-- A change that is refused by the node that names lead to is refused in the tree. -/
theorem alter_of_error (found : node.find? names = some old) (refused : change old = .error fault) :
    alter change names node = .error fault := by
  induction names generalizing node with
  | nil =>
      obtain rfl := Option.some.inj found
      exact refused
  | cons name rest ih =>
      cases node with
      | file attributes content => cases found
      | directory attributes children =>
          rw [find?_cons] at found
          obtain ⟨child, hchild, hrest⟩ := Option.bind_eq_some_iff.1 found
          simp only [alter, hchild, ih hrest]

end Node

namespace Vault

variable {α : Type} {vault after : Vault} {path parent name : String} {names : List String}
  {fault : Fault} {change : String → Catalog Node → Except Fault (α × Catalog Node)}
  {view : Catalog Entry} {node : Node}

/-- A change of a place is made to the children of the directory that holds it. -/
theorem alterPlace_of_split (hsplit : Path.split path = .ok (parent, name)) :
    vault.alterPlace path change = vault.alterChildren parent (change name) := by
  simp only [alterPlace, hsplit]

/-- A change that the children refuse is refused. -/
theorem alterPlace_of_error {attributes : Attributes} {children : Catalog Node}
    (hsplit : Path.split path = .ok (parent, name))
    (held : vault.root.find? (Path.canonicalComponents parent) = some (.directory attributes children))
    (refused : change name children = .error fault) :
    vault.alterPlace path change = .error fault := by
  obtain ⟨-, canonical⟩ := Path.canonicalComponents_of_split hsplit
  rw [← Path.components_eq_canonicalComponents canonical] at held
  have changes : Node.alterChildren (change name) (.directory attributes children) = .error fault := by
    simp only [Node.alterChildren, refused]
  simp only [alterPlace_of_split hsplit, alterChildren, Node.alter_of_error held changes]

/-- **The flat view knows why a change is refused.** -/
theorem alterPlace_of_refusal? (h : vault.root.WellFormed)
    (refused : FlatView.refusal? vault.entries (Path.normalize path) = some fault) :
    vault.alterPlace path change = .error fault := by
  cases hsplit : Path.split path with
  | error other =>
      have root : Path.normalize path = Path.root := by
        rw [Path.normalize_eq_root_iff]
        by_contra something
        obtain ⟨parent, name, split⟩ := Path.exists_split something
        rw [hsplit] at split
        cases split
      have invalid : other = .invalidPath := by
        rw [Path.split, Path.normalize_eq_root_iff.1 root] at hsplit
        exact (Except.error.inj hsplit).symm
      rw [FlatView.refusal?, if_pos root] at refused
      obtain rfl := Option.some.inj refused
      simp only [alterPlace, hsplit, invalid]
  | ok pair =>
      obtain ⟨parent, name⟩ := pair
      obtain ⟨-, canonical⟩ := Path.canonicalComponents_of_split hsplit
      obtain ⟨same, notRoot⟩ := Path.parent_normalize hsplit
      rw [FlatView.refusal?, if_neg notRoot, same, map_kind_get?_entries h canonical, kindAt?,
        Node.kindAt?] at refused
      rw [alterPlace_of_split hsplit, alterChildren]
      cases found : vault.root.find? (Path.components parent) with
      | none =>
          simp only [found, Option.map_none, Option.some.injEq] at refused
          subst refused
          simp only [Node.alter_of_find?_eq_none found]
      | some holder =>
          cases holder with
          | file attributes content =>
              simp only [found, Option.map_some, Node.kind, Option.some.injEq] at refused
              subst refused
              have refuses : Node.alterChildren (change name) (.file attributes content) =
                  .error .notDirectory := rfl
              simp only [Node.alter_of_error found refuses]
          | directory attributes children =>
              simp [found, Node.kind] at refused

/-- **The flat view knows where a change can be made.** -/
theorem exists_holder_of_refusal? (h : vault.root.WellFormed)
    (allowed : FlatView.refusal? vault.entries (Path.normalize path) = none) :
    ∃ parent name attributes children, Path.split path = .ok (parent, name) ∧
      vault.root.find? (Path.canonicalComponents parent) = some (.directory attributes children) := by
  rw [FlatView.refusal?] at allowed
  split at allowed
  · cases allowed
  case isFalse notRoot =>
    rw [Path.normalize_eq_root_iff] at notRoot
    obtain ⟨parent, name, hsplit⟩ := Path.exists_split notRoot
    obtain ⟨-, canonical⟩ := Path.canonicalComponents_of_split hsplit
    obtain ⟨same, -⟩ := Path.parent_normalize hsplit
    rw [same, map_kind_get?_entries h canonical, kindAt?, Node.kindAt?,
      Path.components_eq_canonicalComponents canonical] at allowed
    cases found : vault.root.find? (Path.canonicalComponents parent) with
    | none => simp [found] at allowed
    | some holder =>
        cases holder with
        | file attributes content => simp [found, Node.kind] at allowed
        | directory attributes children => exact ⟨parent, name, attributes, children, hsplit, found⟩

/-- What lies at a place is a child of the directory that holds it. -/
theorem find?_eq_get?_children {attributes : Attributes} {children : Catalog Node}
    (hsplit : Path.split path = .ok (parent, name))
    (held : vault.root.find? (Path.canonicalComponents parent) = some (.directory attributes children)) :
    vault.root.find? (Path.canonicalComponents path) = Catalog.get? children name := by
  rw [(Path.canonicalComponents_of_split hsplit).1, Node.find?_append, held, Option.bind_some,
    Node.find?_cons]
  cases Catalog.get? children name <;> rfl

/-- A path has an entry if a node is there. -/
theorem has_entries (h : vault.root.WellFormed) (path : String) :
    Catalog.has vault.entries (Path.normalize path) =
      (vault.root.find? (Path.canonicalComponents path)).isSome := by
  rw [Catalog.has, Path.normalize,
    get?_entries_render h fun _ => Path.isName_of_mem_canonicalComponents, Node.bareAt?]
  simp

/-! ## The flat view of a changed vault -/

/-- **What makes a list of entries the flat view**: it is in order, its keys are canonical, and it has
the right entry wherever some names may lead. -/
theorem entries_eq (h : vault.root.WellFormed) (sorted : Catalog.Sorted view)
    (keys : ∀ path entry, Catalog.get? view path = some entry → Path.IsCanonical path)
    (same : ∀ names, (∀ name ∈ names, Path.IsName name) →
      Catalog.get? view (Path.render names) =
        (vault.root.bareAt? names).map fun seen => seen.entry (Path.render names)) :
    vault.entries = view := by
  refine Catalog.eq_of_get?_eq (sorted_entries vault) sorted fun path => ?_
  by_cases canonical : Path.IsCanonical path
  · obtain ⟨names, hnames, rfl⟩ := Path.isCanonical_iff.1 canonical
    rw [get?_entries_render h hnames, same names hnames]
  · -- Under any other path neither of the two has an entry.
    have missing : ∀ {other : Catalog Entry},
        (∀ entry, Catalog.get? other path = some entry → Path.IsCanonical path) →
          Catalog.get? other path = none := fun leads =>
      Option.eq_none_iff_forall_ne_some.2 fun entry found => canonical (leads entry found)
    rw [missing fun _ => isCanonical_of_get?_entries h, missing (keys path)]

/-- Two paths are the same if their names are. -/
theorem normalize_eq_render_iff (hnames : ∀ name ∈ names, Path.IsName name) :
    Path.normalize path = Path.render names ↔ Path.canonicalComponents path = names :=
  ⟨Path.render_inj (fun _ => Path.isName_of_mem_canonicalComponents) hnames,
    fun same => congrArg Path.render same⟩

/-- A new node without children is one entry more. -/
theorem entries_of_create {make : String → Node} {entry : Entry} (h : vault.WellFormed)
    (made : ∀ name, (make name).WellFormed ∧ (make name).name = name)
    (childless : ∀ name, (make name).bare = make name)
    (shown : ∀ name, (make name).entry (Path.normalize path) = entry)
    (created : vault.create path make = .ok after) :
    after.entries = Catalog.put vault.entries (Path.normalize path) entry := by
  obtain ⟨outside, free, parent, name, -, stands⟩ := create_eq_ok created
  refine entries_eq (h.create made created).tree (Catalog.sorted_put (sorted_entries vault) _ _) ?_ ?_
  · intro other found there
    rw [Catalog.get?_put] at there
    split at there
    case isTrue same =>
      rw [← same]
      exact Path.isCanonical_normalize path
    case isFalse => exact isCanonical_of_get?_entries h.tree there
  · intro names hnames
    rw [Catalog.get?_put, get?_entries_render h.tree hnames]
    by_cases here : Path.canonicalComponents path = names
    · have same := (normalize_eq_render_iff hnames).2 here
      rw [if_pos same, ← here, Node.bareAt?, stands, ← shown name]
      exact congrArg some (Node.entry_bare _ _).symm
    · rw [if_neg fun same => here ((normalize_eq_render_iff hnames).1 same)]
      by_cases begins : Path.canonicalComponents path <+: names
      · -- Beneath a new node nothing can be, and before it was there neither.
        obtain ⟨rest, rfl⟩ := begins
        cases rest with
        | nil => exact absurd (List.append_nil _).symm here
        | cons first rest =>
            rw [Node.bareAt?, Node.bareAt?, Node.find?_append, Node.find?_append, free, stands,
              Option.bind_some, Node.find?_cons_of_bare_eq (childless name)]
            rfl
      · rw [outside names begins]

/-- A removal takes away the entries at a place and beneath it. -/
theorem entries_of_remove (h : vault.WellFormed) (removed : vault.remove path = .ok (node, after)) :
    after.entries = FlatView.without vault.entries (Path.normalize path) := by
  obtain ⟨outside, -⟩ := remove_eq_ok removed
  have found := Catalog.get?_filter vault.entries fun key => !Path.isUnder key (Path.normalize path)
  refine entries_eq (h.remove removed).1.tree (Catalog.sorted_filter (sorted_entries vault) _) ?_ ?_
  · intro other entry there
    rw [FlatView.without, found] at there
    split at there
    · exact isCanonical_of_get?_entries h.tree there
    · cases there
  · intro names hnames
    have hplace : ∀ name ∈ Path.canonicalComponents path, Path.IsName name :=
      fun _ => Path.isName_of_mem_canonicalComponents
    have under := Path.isUnder_render_iff hnames hplace
    rw [FlatView.without, found, get?_entries_render h.tree hnames]
    by_cases begins : Path.canonicalComponents path <+: names
    · rw [Path.normalize, under.2 begins]
      obtain ⟨rest, rfl⟩ := begins
      rw [Node.bareAt?_eq_none_iff.2 (h.find?_remove removed rest)]
      rfl
    · rw [Path.normalize, Bool.eq_false_iff.2 fun isUnder => begins (under.1 isUnder),
        outside names begins]
      rfl

/-- A path beneath a place, put together from the place and a path. -/
theorem path_reroot {rest : List String} {entry : Entry} (something : names ≠ [])
    (hrest : ∀ name ∈ rest, Path.IsName name) (hpath : entry.path = Path.render rest) :
    (FlatView.reroot (Path.render names) entry).path = Path.render (names ++ rest) := by
  show (if entry.path = Path.root then _ else _) = _
  by_cases top : rest = []
  · rw [if_pos (by rw [hpath, top, Path.render_nil]), top, List.append_nil]
  · have notRoot : entry.path ≠ Path.root := fun root =>
      top (Path.render_inj hrest nofun (hpath.symm.trans root))
    rw [if_neg notRoot, hpath, ← Path.render_append something top]

/-- **What a subtree shows at a place.** -/
theorem listedIn_rerooted (h : node.WellFormed) (something : names ≠ []) :
    node.ListedIn names (FlatView.rerooted (Path.render names) (Vault.mk node).entries) := by
  intro path other
  have moved : ∀ {rest inner}, node.find? rest = some inner →
      FlatView.reroot (Path.render names) (inner.entry (Path.render rest)) =
        inner.entry (Path.render (names ++ rest)) := fun found =>
    congrArg (fun path => Node.entry _ path) (path_reroot something (h.isName_of_find? found) rfl)
  rw [FlatView.rerooted, List.mem_map]
  constructor
  · rintro ⟨⟨key, shown⟩, member, same⟩
    rw [← Catalog.get?_eq_some_iff (sorted_entries _), get?_entries_eq_some_iff h] at member
    obtain ⟨rest, inner, found, rfl, rfl⟩ := member
    rw [moved found, Prod.mk.injEq] at same
    obtain ⟨rfl, rfl⟩ := same
    exact ⟨rest, inner, found, rfl, rfl⟩
  · rintro ⟨rest, inner, found, rfl, rfl⟩
    refine ⟨(Path.render rest, inner.entry (Path.render rest)), ?_, ?_⟩
    · rw [← Catalog.get?_eq_some_iff (sorted_entries _), get?_entries_eq_some_iff h]
      exact ⟨rest, inner, found, rfl, rfl⟩
    · rw [moved found]
      rfl

/-- A subtree shows nothing outside its place. -/
theorem get?_rerooted_outside {others : List String} (h : node.WellFormed) (something : names ≠ [])
    (hnames : ∀ name ∈ names, Path.IsName name) (hothers : ∀ name ∈ others, Path.IsName name)
    (outside : ¬ names <+: others) :
    Catalog.get? (Catalog.ofList (FlatView.rerooted (Path.render names) (Vault.mk node).entries))
      (Path.render others) = none := by
  refine Option.eq_none_iff_forall_ne_some.2 fun entry found => ?_
  obtain ⟨rest, inner, hinner, same, -⟩ :=
    ((listedIn_rerooted h something).get?_eq_some_iff h hnames).1 found
  have all : ∀ name ∈ names ++ rest, Path.IsName name :=
    List.forall_mem_append.2 ⟨hnames, h.isName_of_find? hinner⟩
  exact outside ⟨rest, (Path.render_inj hothers all same).symm⟩

/-- What can be seen beneath a node, entry by entry, does not depend on what the node is called. -/
theorem entry_bareAt?_rename (node : Node) (name : String) (rest : List String) (path : String) :
    ((node.rename name).bareAt? rest).map (fun seen => seen.entry path) =
      (node.bareAt? rest).map fun seen => seen.entry path := by
  cases rest with
  | nil => cases node <;> rfl
  | cons first rest => rw [Node.bareAt?, Node.rename, Node.find?_cons_mapAttributes, ← Node.bareAt?]

/-- **A node that is placed brings its own flat view along.** -/
theorem entries_of_place (h : vault.WellFormed) (hnode : node.WellFormed)
    (placed : vault.place path node = .ok after) :
    after.entries = Catalog.ofList (FlatView.without vault.entries (Path.normalize path) ++
      FlatView.rerooted (Path.normalize path) (Vault.mk node).entries) := by
  obtain ⟨outside, parent, name, hsplit, -, stands⟩ := place_eq_ok placed
  have isName : ∀ name ∈ Path.canonicalComponents path, Path.IsName name :=
    fun _ => Path.isName_of_mem_canonicalComponents
  have something : Path.canonicalComponents path ≠ [] := by
    rw [(Path.canonicalComponents_of_split hsplit).1]
    simp
  have brings := listedIn_rerooted hnode something
  have kept := Catalog.get?_filter vault.entries fun key => !Path.isUnder key (Path.normalize path)
  have left : Catalog.ofList (FlatView.without vault.entries (Path.normalize path)) =
      FlatView.without vault.entries (Path.normalize path) :=
    Catalog.ofList_of_sorted (Catalog.sorted_filter (sorted_entries vault) _)
  refine entries_eq (h.place hnode placed).tree (Catalog.sorted_ofList _) ?_ ?_
  · intro other entry there
    rw [Catalog.get?_ofList_append, left, Option.or_eq_some_iff] at there
    rcases there with brought | ⟨-, stayed⟩
    · obtain ⟨rest, inner, found, rfl, -⟩ := (brings.get?_eq_some_iff hnode isName).1 brought
      exact Path.isCanonical_render
        (List.forall_mem_append.2 ⟨isName, hnode.isName_of_find? found⟩)
    · rw [FlatView.without, kept] at stayed
      split at stayed
      · exact isCanonical_of_get?_entries h.tree stayed
      · cases stayed
  · intro names hnames
    have under := Path.isUnder_render_iff hnames isName
    rw [Catalog.get?_ofList_append, left, FlatView.without, kept, get?_entries_render h.tree hnames]
    by_cases begins : Path.canonicalComponents path <+: names
    · rw [Path.normalize, under.2 begins]
      obtain ⟨rest, rfl⟩ := begins
      have there : after.root.bareAt? (Path.canonicalComponents path ++ rest) =
          (node.rename name).bareAt? rest := congrArg (Option.map Node.bare) (stands rest)
      rw [brings.get?_render hnode hnames, there, entry_bareAt?_rename]
      simp
    · rw [Path.normalize, Bool.eq_false_iff.2 fun isUnder => begins (under.1 isUnder),
        get?_rerooted_outside hnode something isName hnames begins, outside names begins]
      rfl

/-! ## The squares -/

/-- **Creating**, in the tree and on the flat view. -/
theorem create_entries {make : String → Node} {entry : Entry} (h : vault.WellFormed)
    (made : ∀ name, (make name).WellFormed ∧ (make name).name = name)
    (childless : ∀ name, (make name).bare = make name)
    (shown : ∀ name, (make name).entry (Path.normalize path) = entry) :
    (vault.create path make).map entries =
      FlatView.create vault.entries (Path.normalize path) entry := by
  unfold FlatView.create
  cases allowed : FlatView.refusal? vault.entries (Path.normalize path) with
  | some fault =>
      rw [create, alterPlace_of_refusal? h.tree allowed]
      rfl
  | none =>
      obtain ⟨parent, name, attributes, children, hsplit, held⟩ :=
        exists_holder_of_refusal? h.tree allowed
      have child := find?_eq_get?_children hsplit held
      simp only [has_entries h.tree, child]
      cases taken : Catalog.get? children name with
      | some node =>
          rw [create, alterPlace_of_error hsplit held]
          · rfl
          · simp [Catalog.has, taken]
      | none =>
          have directory := Node.isDirectoryAt_eq_true.2 ⟨attributes, children, held⟩
          obtain ⟨after, created⟩ := exists_create hsplit directory (child.trans taken) make
          rw [created]
          exact congrArg Except.ok (entries_of_create h made childless shown created)

/-- **Removing**, in the tree and on the flat view. -/
theorem remove_entries (h : vault.WellFormed) :
    (vault.remove path).map (fun removed => removed.2.entries) =
      FlatView.remove vault.entries (Path.normalize path) := by
  unfold FlatView.remove
  cases allowed : FlatView.refusal? vault.entries (Path.normalize path) with
  | some fault =>
      rw [remove, alterPlace_of_refusal? h.tree allowed]
      rfl
  | none =>
      obtain ⟨parent, name, attributes, children, hsplit, held⟩ :=
        exists_holder_of_refusal? h.tree allowed
      have child := find?_eq_get?_children hsplit held
      simp only [has_entries h.tree, child]
      cases taken : Catalog.get? children name with
      | some node =>
          obtain ⟨after, removed⟩ := exists_remove hsplit (child.trans taken)
          rw [removed]
          exact congrArg Except.ok (entries_of_remove h removed)
      | none =>
          rw [remove, alterPlace_of_error hsplit held]
          · rfl
          · simp only [taken]

/-- **Placing**, in the tree and on the flat view. -/
theorem place_entries (h : vault.WellFormed) (hnode : node.WellFormed) :
    (vault.place path node).map entries =
      FlatView.graft vault.entries (Path.normalize path) (Vault.mk node).entries := by
  unfold FlatView.graft
  cases allowed : FlatView.refusal? vault.entries (Path.normalize path) with
  | some fault =>
      rw [place, alterPlace_of_refusal? h.tree allowed]
      rfl
  | none =>
      obtain ⟨parent, name, attributes, children, hsplit, held⟩ :=
        exists_holder_of_refusal? h.tree allowed
      have directory := Node.isDirectoryAt_eq_true.2 ⟨attributes, children, held⟩
      obtain ⟨after, placed⟩ := exists_place hsplit directory node
      rw [placed]
      exact congrArg Except.ok (entries_of_place h hnode placed)

/-! ## When the operations succeed -/

/-- A place may be changed if a directory holds it. -/
theorem refusal?_eq_none_iff (h : vault.root.WellFormed) :
    FlatView.refusal? vault.entries (Path.normalize path) = none ↔
      Path.normalize path ≠ Path.root ∧
        vault.isDirectory (Path.parent (Path.normalize path)) = true := by
  rw [FlatView.refusal?, isDirectory_eq_true_iff, map_kind_get?_entries h (Path.isCanonical_parent _)]
  split
  case isTrue root => simp [root]
  case isFalse notRoot =>
    cases vault.kindAt? (Path.parent (Path.normalize path)) with
    | none => simp
    | some kind => cases kind <;> simp [notRoot]

/-- A path has an entry if something is there. -/
theorem has_entries_eq (h : vault.root.WellFormed) (path : String) :
    Catalog.has vault.entries (Path.normalize path) = vault.has (Path.normalize path) := by
  rw [has_entries h, has, find?_normalize]

/-- A square says when its operation succeeds. -/
theorem exists_ok_iff_of_map {ε β γ : Type} {result : Except ε β} {f : β → γ} {flat : Except ε γ}
    (square : result.map f = flat) : (∃ b, result = .ok b) ↔ ∃ c, flat = .ok c := by
  subst square
  cases result with
  | error e => exact iff_of_false nofun nofun
  | ok b => exact iff_of_true ⟨b, rfl⟩ ⟨f b, rfl⟩

theorem exists_create_iff (view : Catalog Entry) (place : String) (entry : Entry) :
    (∃ after, FlatView.create view place entry = .ok after) ↔
      FlatView.refusal? view place = none ∧ Catalog.has view place = false := by
  unfold FlatView.create
  cases FlatView.refusal? view place with
  | some fault => simp
  | none => cases Catalog.has view place <;> simp

theorem exists_graft_iff (view : Catalog Entry) (place : String) (subtree : Catalog Entry) :
    (∃ after, FlatView.graft view place subtree = .ok after) ↔
      FlatView.refusal? view place = none := by
  unfold FlatView.graft
  cases FlatView.refusal? view place <;> simp

end Vault

/-- **A refused operation leaves everything as it is**, the vault and what was removed from it. -/
theorem Workbench.apply_of_error (vault : Vault) (removed : List Node) (path : String)
    (fault : Fault) :
    let bench : Workbench := ⟨vault, removed⟩
    (∀ content time, vault.createFile path content time = .error fault →
      bench.apply (.createFile path content time) = bench) ∧
    (∀ time, vault.createDirectory path time = .error fault →
      bench.apply (.createDirectory path time) = bench) ∧
    (vault.remove path = .error fault → bench.apply (.remove path) = bench) ∧
    ∀ index node, removed[index]? = some node → vault.place path node = .error fault →
      bench.apply (.placeRemoved path index) = bench := by
  intro bench
  refine ⟨?_, ?_, ?_, ?_⟩
  · intro content time refused
    simp only [apply, bench, refused, keep]
  · intro time refused
    simp only [apply, bench, refused, keep]
  · intro refused
    simp only [apply, bench, refused]
  · intro index node held refused
    simp only [apply, bench, held, refused, keep]

namespace Vault

variable {vault : Vault}

/-- **The operations do what the flat view says.**  Each of them, at any path, gives the vault whose flat
view is the one that the operation on the flat view gives, or is refused with the same fault.  A creation
succeeds if a directory holds the place and the place is free; a removal if something is there, which it
hands back; and a node can be placed wherever a directory holds the place. -/
theorem operations_on_flat_view (h : vault.WellFormed) (path : String) :
    let place := Path.normalize path
    let held := place ≠ Path.root ∧ vault.isDirectory (Path.parent place) = true
    (∀ content time,
      (vault.createFile path content time).map entries =
        FlatView.create vault.entries place ⟨place, .file, content.utf8ByteSize, time, 420⟩ ∧
      ((∃ after, vault.createFile path content time = .ok after) ↔ held ∧ vault.has place = false)) ∧
    (∀ time,
      (vault.createDirectory path time).map entries =
        FlatView.create vault.entries place ⟨place, .directory, 4096, time, 493⟩ ∧
      ((∃ after, vault.createDirectory path time = .ok after) ↔ held ∧ vault.has place = false)) ∧
    ((vault.remove path).map (fun removed => removed.2.entries) =
        FlatView.remove vault.entries place ∧
      (∀ node after, vault.remove path = .ok (node, after) → vault.find? place = some node) ∧
      ((∃ removed, vault.remove path = .ok removed) ↔
        place ≠ Path.root ∧ vault.has place = true)) ∧
    (∀ node, node.WellFormed →
      (vault.place path node).map entries =
        FlatView.graft vault.entries place (Vault.mk node).entries ∧
      ((∃ after, vault.place path node = .ok after) ↔ held)) ∧
    ∀ (removed : List Node) (fault : Fault),
      let bench : Workbench := ⟨vault, removed⟩
      (∀ content time, vault.createFile path content time = .error fault →
        bench.apply (.createFile path content time) = bench) ∧
      (∀ time, vault.createDirectory path time = .error fault →
        bench.apply (.createDirectory path time) = bench) ∧
      (vault.remove path = .error fault → bench.apply (.remove path) = bench) ∧
      ∀ index node, removed[index]? = some node → vault.place path node = .error fault →
        bench.apply (.placeRemoved path index) = bench := by
  intro place held
  have allowed : FlatView.refusal? vault.entries place = none ↔ held := refusal?_eq_none_iff h.tree
  have there : Catalog.has vault.entries place = vault.has place := has_entries_eq h.tree path
  refine ⟨?_, ?_, ⟨remove_entries h, ?_, exists_remove_iff⟩, ?_, fun removed fault =>
    Workbench.apply_of_error vault removed path fault⟩
  · intro content time
    have square : (vault.createFile path content time).map entries =
        FlatView.create vault.entries place ⟨place, .file, content.utf8ByteSize, time, 420⟩ :=
      create_entries h (fun name => ⟨Node.wellFormed_newFile name content time, rfl⟩) (fun _ => rfl)
        fun _ => rfl
    rw [exists_ok_iff_of_map square, exists_create_iff, allowed, there]
    exact ⟨square, Iff.rfl⟩
  · intro time
    have square : (vault.createDirectory path time).map entries =
        FlatView.create vault.entries place ⟨place, .directory, 4096, time, 493⟩ :=
      create_entries h (fun name => ⟨Node.wellFormed_newDirectory name time, rfl⟩) (fun _ => rfl)
        fun _ => rfl
    rw [exists_ok_iff_of_map square, exists_create_iff, allowed, there]
    exact ⟨square, Iff.rfl⟩
  · intro node after removed
    rw [find?_normalize]
    exact (remove_eq_ok removed).2
  · intro node hnode
    have square : (vault.place path node).map entries =
        FlatView.graft vault.entries place (Vault.mk node).entries := place_entries h hnode
    rw [exists_ok_iff_of_map square, exists_graft_iff, allowed]
    exact ⟨square, Iff.rfl⟩

/-- A directory with a file in it beside a file whose name begins alike: only the directory and its file
are replaced. -/
theorem operations_on_flat_view_alike :
    let vault := ((Workbench.start .origin).run [.createDirectory "/a" .origin,
      .createFile "/ab" "" .origin, .createFile "/a/b" "text" .origin]).vault
    let node := Node.newFile "c" "more" .origin
    vault.WellFormed ∧ node.WellFormed ∧
      (vault.place "x/../a//" node).map (fun after => Catalog.names after.entries) =
        .ok ["/", "/a", "/ab"] ∧
      (vault.place "x/../a//" node).map entries =
        FlatView.graft vault.entries "/a" (Vault.mk node).entries := by
  intro vault node
  have wellFormed : vault.WellFormed := ((Workbench.sound_start .origin).run _).vault
  have hnode : node.WellFormed := Node.wellFormed_newFile "c" "more" .origin
  have canonical : Path.normalize "x/../a//" = "/a" := by decide +kernel
  obtain ⟨-, -, -, placing, -⟩ := operations_on_flat_view wellFormed "x/../a//"
  obtain ⟨square, -⟩ := placing node hnode
  rw [canonical] at square
  exact ⟨wellFormed, hnode, by decide +kernel, square⟩

end Vault

end VaultShell
