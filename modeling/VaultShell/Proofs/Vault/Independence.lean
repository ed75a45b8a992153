import VaultShell.Proofs.Vault.WellFormed

/-!
# Changes at places apart

Two changes of a vault may be made in either order if neither of their places lies in the other.  Each of
them looks at the way to its own place and at what stands there, and alters nothing else.  The ways may
run together for a while, so what the one puts back on its way up is not what the other one found on its
way down; but they part at some directory, and there the two are changes under different names.

That a change is refused is one of its results.  Nothing is changed then, and the other change must not
bring it about that it succeeds.

## Main definitions

* `attempt`: what a change gives and what it leaves behind
* `Independent`: two changes give the same and lead to the same in either order
* `Catalog.alterAt`: a change of what stands under a name
* `Vault.Change`: the changes of the shape of a vault

## Main statements

* `Independent.through`: what is independent within a part is independent in the whole
* `Catalog.independent_of_ne`: changes under different names
* `Node.independent_of_apart`: changes at places apart in a tree
* `Vault.changes_commute`: changes at paths apart in a vault
-/

namespace VaultShell

/-! ## Two changes of one state -/

section Changes

variable {σ τ ε α β γ δ : Type}

/-- What a change gives and what it leaves behind: a change that is refused leaves all as it was. -/
def attempt (change : σ → Except ε (α × σ)) (state : σ) : Except ε α × σ :=
  match change state with
  | .error e => (.error e, state)
  | .ok (a, after) => (.ok a, after)

/-- **Two changes of a state are independent**: each of them gives the same whether or not the other one
is made before it, and both orders lead to the same state. -/
structure Independent (first : σ → Except ε (α × σ)) (second : σ → Except ε (β × σ)) (state : σ) :
    Prop where
  first_eq : (attempt first (attempt second state).2).1 = (attempt first state).1
  second_eq : (attempt second (attempt first state).2).1 = (attempt second state).1
  state_eq : (attempt second (attempt first state).2).2 = (attempt first (attempt second state).2).2

/-- **A change of a part makes up a change of the whole**, where `put` gives the whole with a given
part. -/
def ActsThrough (put : τ → σ) (change : τ → Except ε (α × τ)) (whole : σ → Except ε (α × σ)) : Prop :=
  ∀ part, attempt whole (put part) = ((attempt change part).1, put (attempt change part).2)

variable {first : σ → Except ε (α × σ)} {second : σ → Except ε (β × σ)} {state : σ}

theorem attempt_of_error {e : ε} (refused : first state = .error e) :
    attempt first state = (.error e, state) := by
  simp only [attempt, refused]

/-- Changes that are both refused are independent. -/
theorem independent_of_refused {e e' : ε} (refused : first state = .error e)
    (refused' : second state = .error e') : Independent first second state := by
  have one := attempt_of_error refused
  have two := attempt_of_error refused'
  constructor <;> simp only [one, two]

/-- **What is independent within a part is independent in the whole.** -/
theorem Independent.through {put : τ → σ} {part : τ} {change : τ → Except ε (α × τ)}
    {other : τ → Except ε (β × τ)} (h : Independent change other part)
    (actsFirst : ActsThrough put change first) (actsSecond : ActsThrough put other second) :
    Independent first second (put part) := by
  constructor
  · rw [actsSecond, actsFirst, actsFirst, h.first_eq]
  · rw [actsFirst, actsSecond, actsSecond, h.second_eq]
  · rw [actsFirst, actsSecond, actsSecond, actsFirst, h.state_eq]

/-- What is made of the result of a change is no matter for what it leaves behind. -/
theorem attempt_map (f : α → γ) (change : σ → Except ε (α × σ)) (state : σ) :
    attempt (fun state => (change state).map (Prod.map f id)) state =
      ((attempt change state).1.map f, (attempt change state).2) := by
  unfold attempt
  beta_reduce
  cases change state with
  | error e => rfl
  | ok result => rfl

theorem Independent.map (h : Independent first second state) (f : α → γ) (g : β → δ) :
    Independent (fun state => (first state).map (Prod.map f id))
      (fun state => (second state).map (Prod.map g id)) state := by
  constructor
  · rw [attempt_map, attempt_map, attempt_map, h.first_eq]
  · rw [attempt_map, attempt_map, attempt_map, h.second_eq]
  · rw [attempt_map, attempt_map, attempt_map, attempt_map]
    exact h.state_eq

end Changes

/-! ## Changes under a name -/

namespace Catalog

variable {ε α β γ : Type} {entries : Catalog γ} {name other : String}

/-- The catalog in which a given value stands under a name, or nothing. -/
def assign (entries : Catalog γ) (name : String) : Option γ → Catalog γ
  | none => erase entries name
  | some value => put entries name value

/-- A change of what stands under a name. -/
def alterAt (name : String) (change : Option γ → Except ε (α × Option γ)) (entries : Catalog γ) :
    Except ε (α × Catalog γ) :=
  match change (get? entries name) with
  | .error e => .error e
  | .ok (a, value) => .ok (a, assign entries name value)

theorem get?_assign (sorted : Sorted entries) (name other : String) (value : Option γ) :
    get? (assign entries name value) other = if name = other then value else get? entries other := by
  cases value with
  | none => exact get?_erase sorted name other
  | some value => exact get?_put entries name other value

theorem sorted_assign (sorted : Sorted entries) (name : String) (value : Option γ) :
    Sorted (assign entries name value) := by
  cases value with
  | none => exact sorted_erase sorted name
  | some value => exact sorted_put sorted name value

theorem assign_get? (sorted : Sorted entries) (name : String) :
    assign entries name (get? entries name) = entries := by
  refine eq_of_get?_eq (sorted_assign sorted _ _) sorted fun other => ?_
  rw [get?_assign sorted]
  split
  case isTrue same => rw [same]
  case isFalse => rfl

/-- Of two values under one name the later one stays. -/
theorem assign_assign (sorted : Sorted entries) (name : String) (value later : Option γ) :
    assign (assign entries name value) name later = assign entries name later := by
  have sortedOnce := sorted_assign sorted name value
  refine eq_of_get?_eq (sorted_assign sortedOnce _ _) (sorted_assign sorted _ _) fun other => ?_
  rw [get?_assign sortedOnce, get?_assign sorted, get?_assign sorted]
  split <;> rfl

/-- Values under different names may be put there in either order. -/
theorem assign_comm (sorted : Sorted entries) (different : name ≠ other) (value value' : Option γ) :
    assign (assign entries name value) other value' =
      assign (assign entries other value') name value := by
  have sortedFirst := sorted_assign sorted name value
  have sortedSecond := sorted_assign sorted other value'
  refine eq_of_get?_eq (sorted_assign sortedFirst _ _) (sorted_assign sortedSecond _ _) fun key => ?_
  rw [get?_assign sortedFirst, get?_assign sortedSecond, get?_assign sorted, get?_assign sorted]
  by_cases here : name = key
  · subst here
    rw [if_neg different.symm, if_pos rfl, if_pos rfl]
  · rw [if_neg here, if_neg here]

/-- **A change under a name is the change of what stands there.** -/
theorem attempt_alterAt (sorted : Sorted entries) (name : String)
    (change : Option γ → Except ε (α × Option γ)) :
    attempt (alterAt name change) entries =
      ((attempt change (get? entries name)).1,
        assign entries name (attempt change (get? entries name)).2) := by
  unfold attempt alterAt
  cases change (get? entries name) with
  | error e => exact congrArg _ (assign_get? sorted name).symm
  | ok result => rfl

theorem actsThrough_assign (sorted : Sorted entries) (name : String)
    (change : Option γ → Except ε (α × Option γ)) :
    ActsThrough (assign entries name) change (alterAt name change) := by
  intro value
  rw [attempt_alterAt (sorted_assign sorted name value), get?_assign sorted, if_pos rfl,
    assign_assign sorted]

variable {first : Option γ → Except ε (α × Option γ)} {second : Option γ → Except ε (β × Option γ)}

/-- **Changes under different names** are independent, whatever they are. -/
theorem independent_of_ne (sorted : Sorted entries) (different : name ≠ other) :
    Independent (alterAt name first) (alterAt other second) entries := by
  have one := attempt_alterAt sorted name first
  have two := attempt_alterAt sorted other second
  constructor
  · rw [two, attempt_alterAt (sorted_assign sorted _ _), get?_assign sorted,
      if_neg different.symm, one]
  · rw [one, attempt_alterAt (sorted_assign sorted _ _), get?_assign sorted, if_neg different, two]
  · rw [one, two, attempt_alterAt (sorted_assign sorted _ _),
      attempt_alterAt (sorted_assign sorted _ _), get?_assign sorted, get?_assign sorted,
      if_neg different, if_neg different.symm]
    exact assign_comm sorted different _ _

/-- **Changes under the same name** are independent if the changes of what stands there are. -/
theorem independent_of_same (sorted : Sorted entries)
    (h : Independent first second (get? entries name)) :
    Independent (alterAt name first) (alterAt name second) entries := by
  have whole := h.through (actsThrough_assign sorted name first) (actsThrough_assign sorted name second)
  rwa [assign_get? sorted] at whole

end Catalog

/-! ## Changes in a tree -/

namespace Node

variable {α β : Type} {node : Node} {name other : String}

/-- A change of the node under a name, where there is one. -/
def alterHeld (change : Node → Except Fault (α × Node)) :
    Option Node → Except Fault (α × Option Node)
  | none => .error .notFound
  | some node =>
    match change node with
    | .error fault => .error fault
    | .ok (a, changed) => .ok (a, some changed)

theorem actsThrough_some (change : Node → Except Fault (α × Node)) :
    ActsThrough some change (alterHeld change) := by
  intro node
  simp only [attempt, alterHeld]
  cases change node with
  | error fault => rfl
  | ok result => rfl

theorem actsThrough_directory (change : Catalog Node → Except Fault (α × Catalog Node))
    (attributes : Attributes) :
    ActsThrough (Node.directory attributes) change (alterChildren change) := by
  intro children
  simp only [attempt, alterChildren]
  cases change children with
  | error fault => rfl
  | ok result => rfl

/-- A change beneath a name is a change of what stands under the name. -/
theorem alter_cons_directory (change : Node → Except Fault (α × Node)) (name : String)
    (rest : List String) (attributes : Attributes) (children : Catalog Node) :
    alter change (name :: rest) (.directory attributes children) =
      alterChildren (Catalog.alterAt name (alterHeld (alter change rest)))
        (.directory attributes children) := by
  simp only [alter, alterChildren, Catalog.alterAt, alterHeld]
  cases Catalog.get? children name with
  | none => rfl
  | some child =>
      dsimp only
      cases alter change rest child with
      | error fault => rfl
      | ok result => rfl

/-- **A change that a directory sees under one name only**, and that a file refuses. -/
structure ActsAt (name : String) (change : Node → Except Fault (α × Node)) : Prop where
  directory : ∃ step, ∀ attributes,
    ActsThrough (Node.directory attributes) (Catalog.alterAt name step) change
  file : ∃ fault, ∀ attributes content, change (.file attributes content) = .error fault

theorem actsAt_alterChildren (name : String) (step : Option Node → Except Fault (α × Option Node)) :
    ActsAt name (alterChildren (Catalog.alterAt name step)) where
  directory := ⟨step, actsThrough_directory _⟩
  file := ⟨.notDirectory, fun _ _ => rfl⟩

theorem actsThrough_alter_cons (change : Node → Except Fault (α × Node)) (name : String)
    (rest : List String) (attributes : Attributes) :
    ActsThrough (Node.directory attributes)
      (Catalog.alterAt name (alterHeld (alter change rest))) (alter change (name :: rest)) := by
  intro children
  rw [← actsThrough_directory, attempt, attempt, alter_cons_directory]

theorem actsAt_alter_cons (change : Node → Except Fault (α × Node)) (name : String)
    (rest : List String) : ActsAt name (alter change (name :: rest)) where
  directory := ⟨alterHeld (alter change rest), actsThrough_alter_cons change name rest⟩
  file := ⟨.notFound, fun _ _ => rfl⟩

theorem WellFormed.sorted {attributes : Attributes} {children : Catalog Node}
    (h : (Node.directory attributes children).WellFormed) : Catalog.Sorted children := by
  cases h with
  | directory _ sorted _ _ => exact sorted

/-- **Where the ways part** the changes are independent. -/
theorem independent_of_actsAt {first : Node → Except Fault (α × Node)}
    {second : Node → Except Fault (β × Node)} (wellFormed : node.WellFormed)
    (actsFirst : ActsAt name first) (actsSecond : ActsAt other second) (different : name ≠ other) :
    Independent first second node := by
  cases node with
  | file attributes content =>
      obtain ⟨fault, refused⟩ := actsFirst.file
      obtain ⟨fault', refused'⟩ := actsSecond.file
      exact independent_of_refused (refused _ _) (refused' _ _)
  | directory attributes children =>
      obtain ⟨step, through⟩ := actsFirst.directory
      obtain ⟨step', through'⟩ := actsSecond.directory
      exact (Catalog.independent_of_ne wellFormed.sorted different).through (through attributes)
        (through' attributes)

/-- **As long as the ways run together** the changes are independent if they are beneath. -/
theorem independent_alter_cons {first : Node → Except Fault (α × Node)}
    {second : Node → Except Fault (β × Node)} {rest rest' : List String}
    (wellFormed : node.WellFormed)
    (beneath : ∀ child : Node, child.WellFormed →
      Independent (alter first rest) (alter second rest') child) :
    Independent (alter first (name :: rest)) (alter second (name :: rest')) node := by
  cases node with
  | file attributes content => exact independent_of_refused rfl rfl
  | directory attributes children =>
      have held : Independent (alterHeld (alter first rest)) (alterHeld (alter second rest'))
          (Catalog.get? children name) := by
        cases found : Catalog.get? children name with
        | none => exact independent_of_refused rfl rfl
        | some child =>
            exact (beneath child (wellFormed.child found).1).through (actsThrough_some _)
              (actsThrough_some _)
      exact (Catalog.independent_of_same wellFormed.sorted held).through
        (actsThrough_alter_cons first name rest attributes)
        (actsThrough_alter_cons second name rest' attributes)

variable {names others : List String} {step : Option Node → Except Fault (α × Option Node)}
  {step' : Option Node → Except Fault (β × Option Node)}

/-- **Changes at places apart are independent.**  The induction follows the two ways down as long as they
run together. -/
theorem independent_of_apart (wellFormed : node.WellFormed)
    (apart : ¬ names ++ [name] <+: others ++ [other])
    (apart' : ¬ others ++ [other] <+: names ++ [name]) :
    Independent (alter (alterChildren (Catalog.alterAt name step)) names)
      (alter (alterChildren (Catalog.alterAt other step')) others) node := by
  induction names generalizing others node with
  | nil =>
      have here : ActsAt name (alter (alterChildren (Catalog.alterAt name step)) []) :=
        actsAt_alterChildren name step
      cases others with
      | nil =>
          have different : name ≠ other := fun same => apart (by rw [same])
          exact independent_of_actsAt wellFormed here (actsAt_alterChildren other step') different
      | cons first rest =>
          have different : name ≠ first := fun same =>
            apart (List.cons_prefix_cons.2 ⟨same, List.nil_prefix⟩)
          exact independent_of_actsAt wellFormed here (actsAt_alter_cons _ first rest) different
  | cons first rest ih =>
      have beneath := actsAt_alter_cons (alterChildren (Catalog.alterAt name step)) first rest
      cases others with
      | nil =>
          have different : first ≠ other := fun same =>
            apart' (List.cons_prefix_cons.2 ⟨same.symm, List.nil_prefix⟩)
          exact independent_of_actsAt wellFormed beneath (actsAt_alterChildren other step') different
      | cons first' rest' =>
          by_cases together : first = first'
          · subst together
            refine independent_alter_cons wellFormed fun child hchild => ih hchild ?_ ?_
            · exact fun begins => apart (List.cons_prefix_cons.2 ⟨rfl, begins⟩)
            · exact fun begins => apart' (List.cons_prefix_cons.2 ⟨rfl, begins⟩)
          · exact independent_of_actsAt wellFormed beneath (actsAt_alter_cons _ first' rest') together

end Node

/-! ## Changes of a vault -/

namespace Vault

/-- The changes of the shape of a vault. -/
inductive Change where
  | createFile (path content : String) (time : Instant)
  | createDirectory (path : String) (time : Instant)
  | remove (path : String)
  | place (path : String) (node : Node)

namespace Change

/-- The path of the place that is changed. -/
def path : Change → String
  | .createFile path .. | .createDirectory path _ | .remove path | .place path _ => path

/-- Makes the change; a removal gives the node that was removed, all others give nothing. -/
def apply (vault : Vault) : Change → Except Fault (Option Node × Vault)
  | .createFile path content time => (vault.createFile path content time).map ((none, ·))
  | .createDirectory path time => (vault.createDirectory path time).map ((none, ·))
  | .remove path => (vault.remove path).map (Prod.map some id)
  | .place path node => (vault.place path node).map ((none, ·))

/-- What the change gives, and the vault that it leaves behind. -/
def run (change : Change) (vault : Vault) : Except Fault (Option Node) × Vault :=
  attempt (fun vault => change.apply vault) vault

end Change

section Places

variable {α β : Type} {path : String}

/-- A change of a place that looks at what stands there and at nothing else. -/
def alterHeldAt (path : String) (step : String → Option Node → Except Fault (α × Option Node))
    (vault : Vault) : Except Fault (α × Vault) :=
  vault.alterPlace path fun name => Catalog.alterAt name (step name)

/-- Puts a new node where nothing stands. -/
def fill (make : String → Node) (name : String) : Option Node → Except Fault (Unit × Option Node)
  | some _ => .error .exists
  | none => .ok ((), some (make name))

/-- Takes away what stands there, and hands it back. -/
def clear (_ : String) : Option Node → Except Fault (Node × Option Node)
  | none => .error .notFound
  | some node => .ok (node, none)

/-- Puts a node there, whatever stood there before. -/
def cover (node : Node) (name : String) (_ : Option Node) : Except Fault (Unit × Option Node) :=
  .ok ((), some (node.rename name))

theorem create_eq_alterHeldAt (vault : Vault) (path : String) (make : String → Node) :
    vault.create path make = (alterHeldAt path (fill make) vault).map Prod.snd := by
  refine congrArg (fun change => (vault.alterPlace path change).map Prod.snd) ?_
  funext name children
  unfold Catalog.alterAt Catalog.has
  cases Catalog.get? children name with
  | none => rfl
  | some node => rfl

theorem remove_eq_alterHeldAt (vault : Vault) (path : String) :
    vault.remove path = alterHeldAt path clear vault := by
  refine congrArg (vault.alterPlace path) ?_
  funext name children
  unfold Catalog.alterAt
  cases Catalog.get? children name with
  | none => rfl
  | some node => rfl

theorem place_eq_alterHeldAt (vault : Vault) (path : String) (node : Node) :
    vault.place path node = (alterHeldAt path (cover node) vault).map Prod.snd := rfl

/-- **Each of the changes looks at what stands at its place and at nothing else.** -/
theorem Change.exists_step (change : Change) :
    ∃ (γ : Type) (given : γ → Option Node)
      (step : String → Option Node → Except Fault (γ × Option Node)),
      ∀ vault, change.apply vault = (alterHeldAt change.path step vault).map (Prod.map given id) := by
  have dropped : ∀ result : Except Fault (Unit × Vault), (result.map Prod.snd).map ((none, ·)) =
      result.map (Prod.map (fun _ => (none : Option Node)) id) := by
    intro result
    cases result <;> rfl
  cases change with
  | createFile path content time =>
      refine ⟨Unit, fun _ => none, fill fun name => .newFile name content time, fun vault => ?_⟩
      rw [apply, Vault.createFile, create_eq_alterHeldAt, dropped]
      rfl
  | createDirectory path time =>
      refine ⟨Unit, fun _ => none, fill fun name => .newDirectory name time, fun vault => ?_⟩
      rw [apply, Vault.createDirectory, create_eq_alterHeldAt, dropped]
      rfl
  | remove path =>
      refine ⟨Node, some, clear, fun vault => ?_⟩
      rw [apply, remove_eq_alterHeldAt]
      rfl
  | place path node =>
      refine ⟨Unit, fun _ => none, cover node, fun vault => ?_⟩
      rw [apply, place_eq_alterHeldAt, dropped]
      rfl

/-- A change of a place is a change of the tree. -/
theorem actsThrough_root {parent name : String} (hsplit : Path.split path = .ok (parent, name))
    (step : String → Option Node → Except Fault (α × Option Node)) :
    ActsThrough Vault.mk
      (Node.alter (Node.alterChildren (Catalog.alterAt name (step name))) (Path.components parent))
      (alterHeldAt path step) := by
  intro root
  simp only [attempt, alterHeldAt, alterPlace, hsplit, alterChildren]
  cases Node.alter (Node.alterChildren (Catalog.alterAt name (step name)))
      (Path.components parent) root with
  | error fault => rfl
  | ok result => rfl

/-- **Changes of places apart are independent.** -/
theorem independent_of_apart {vault : Vault} {path other : String} (h : vault.WellFormed)
    (apart : ¬ Path.canonicalComponents path <+: Path.canonicalComponents other)
    (apart' : ¬ Path.canonicalComponents other <+: Path.canonicalComponents path)
    (step : String → Option Node → Except Fault (α × Option Node))
    (step' : String → Option Node → Except Fault (β × Option Node)) :
    Independent (alterHeldAt path step) (alterHeldAt other step') vault := by
  -- Neither place is the root, which lies in no directory: everything is within it.
  have something : Path.canonicalComponents path ≠ [] := fun root =>
    apart (by rw [root]; exact List.nil_prefix)
  have something' : Path.canonicalComponents other ≠ [] := fun root =>
    apart' (by rw [root]; exact List.nil_prefix)
  obtain ⟨parent, name, hsplit⟩ := Path.exists_split something
  obtain ⟨parent', name', hsplit'⟩ := Path.exists_split something'
  obtain ⟨hpath, hparent⟩ := Path.canonicalComponents_of_split hsplit
  obtain ⟨hother, hparent'⟩ := Path.canonicalComponents_of_split hsplit'
  rw [← Path.components_eq_canonicalComponents hparent] at hpath
  rw [← Path.components_eq_canonicalComponents hparent'] at hother
  rw [hpath, hother] at apart apart'
  exact (Node.independent_of_apart h.tree apart apart').through (actsThrough_root hsplit step)
    (actsThrough_root hsplit' step')

end Places

/-- **Changes of paths apart may be made in either order.**  In a well-formed vault, for any two of the
changes at paths of which neither lies in the other: each gives the same whether the other one is made
before it or not, be it a node, nothing or a fault, and both orders lead to the same vault. -/
theorem changes_commute {vault : Vault} (h : vault.WellFormed) (first second : Change)
    (apart : Path.isUnder (Path.normalize first.path) (Path.normalize second.path) = false)
    (apart' : Path.isUnder (Path.normalize second.path) (Path.normalize first.path) = false) :
    (first.run (second.run vault).2).1 = (first.run vault).1 ∧
    (second.run (first.run vault).2).1 = (second.run vault).1 ∧
    (second.run (first.run vault).2).2 = (first.run (second.run vault).2).2 := by
  have isName : ∀ path, ∀ name ∈ Path.canonicalComponents path, Path.IsName name :=
    fun _ _ => Path.isName_of_mem_canonicalComponents
  have outside : ∀ {path other}, Path.isUnder (Path.normalize path) (Path.normalize other) = false →
      ¬ Path.canonicalComponents other <+: Path.canonicalComponents path := by
    intro path other free within
    have under := (Path.isUnder_render_iff (isName path) (isName other)).2 within
    exact Bool.noConfusion (under.symm.trans free)
  obtain ⟨γ, given, step, hfirst⟩ := first.exists_step
  obtain ⟨δ, given', step', hsecond⟩ := second.exists_step
  have commute := (independent_of_apart h (outside apart') (outside apart) step step').map given given'
  have first_eq : first.run = attempt fun vault =>
      (alterHeldAt first.path step vault).map (Prod.map given id) := by
    funext vault
    simp only [Change.run, hfirst]
  have second_eq : second.run = attempt fun vault =>
      (alterHeldAt second.path step' vault).map (Prod.map given' id) := by
    funext vault
    simp only [Change.run, hsecond]
  rw [first_eq, second_eq]
  exact ⟨commute.first_eq, commute.second_eq, commute.state_eq⟩

/-- A removal and a creation that is refused, at places whose names begin alike, in one directory. -/
theorem changes_commute_alike :
    let vault := ((Workbench.start .origin).run [.createDirectory "/d" .origin,
      .createFile "/d/a" "" .origin, .createFile "/d/ab" "text" .origin]).vault
    let first := Change.remove "d//x/../a"
    let second := Change.createDirectory "/d/./ab/" .origin
    vault.WellFormed ∧
      Path.isUnder (Path.normalize first.path) (Path.normalize second.path) = false ∧
      Path.isUnder (Path.normalize second.path) (Path.normalize first.path) = false ∧
      (second.run (first.run vault).2).1 = .error .exists ∧
      (second.run (first.run vault).2).2 = (first.run (second.run vault).2).2 := by
  intro vault first second
  have wellFormed : vault.WellFormed := ((Workbench.sound_start .origin).run _).vault
  have apart : Path.isUnder (Path.normalize first.path) (Path.normalize second.path) = false := by
    decide +kernel
  have apart' : Path.isUnder (Path.normalize second.path) (Path.normalize first.path) = false := by
    decide +kernel
  obtain ⟨-, second_eq, state_eq⟩ := changes_commute wellFormed first second apart apart'
  refine ⟨wellFormed, apart, apart', second_eq.trans ?_, state_eq⟩
  rfl

end Vault

end VaultShell
