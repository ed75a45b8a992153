import VaultShell.Json.Record
import VaultShell.Proofs.Json.Reading

/-!
# Records that are written

A record is written as an object with each field under its own key.  Reading it finds the fields in
whatever order they are asked for, and finds that a field is missing if it was left out.  Whatever is
read of a record, in any form, is a part of its tree.

## Main definitions

* `Slot.ofMembers`: what the members of a written object have for a field

## Main statements

* `Tree.slots?_toTree`: the slots of a written object
* `Tree.numbers_of_slots?`: the slots of a record hold no other numbers than the record
* `Tree.list?_toTree`: lists are read back if their items are
-/

namespace VaultShell.Json

/-- What the members of a written object have for a field. -/
def Slot.ofMembers (members : List (String × Value)) (field : String) : Slot :=
  match members.lookup field with
  | some value => .given value.toTree
  | none => .omitted

/-! ## Fields that are given -/

namespace Slot

variable {α : Type} {decode : Tree → Option α} {tree : Tree}

@[simp] theorem required?_given (decode : Tree → Option α) (tree : Tree) :
    (given tree).required? decode = decode tree := rfl

@[simp] theorem withDefault?_given (decode : Tree → Option α) (value : α) (tree : Tree) :
    (given tree).withDefault? decode value = decode tree := rfl

theorem optional?_given (decode : Tree → Option α) (some : tree ≠ .null) :
    (given tree).optional? decode = (decode tree).map .some := by
  cases tree <;> first | rfl | exact absurd rfl some

/-- A field that may be left out has a value only where it is given and is not `null`. -/
theorem given_of_optional? {slot : Slot} {value : α}
    (h : slot.optional? decode = some (.some value)) :
    ∃ tree, slot = .given tree ∧ tree ≠ .null ∧ decode tree = some value := by
  cases slot with
  | given tree =>
      by_cases null : tree = .null
      · subst null
        cases h
      · rw [optional?_given decode null] at h
        obtain ⟨made, hmade, heq⟩ := Option.map_eq_some_iff.1 h
        obtain rfl := Option.some.inj heq
        exact ⟨tree, rfl, null, hmade⟩
  | omitted => cases h
  | beyond => cases h

end Slot

namespace Tree

@[simp] theorem text?_string (text : String) : text? (.string (some text)) = some text := rfl

/-! ## Records -/

variable {members : List (String × Value)} {field : String} {fields : List String}

theorem keyed?_treesOfMembers (members : List (String × Value)) :
    keyed? (Value.treesOfMembers members) =
      some (members.map fun member => (member.1, member.2.toTree)) := by
  induction members with
  | nil => rfl
  | cons member rest ih =>
      unfold keyed? at ih ⊢
      simp [Value.treesOfMembers, ih]

/-- A field that no member has. -/
theorem filter_eq_nil (absent : field ∉ members.map Prod.fst) :
    (members.map fun member => (member.1, member.2.toTree)).filter (·.1 = field) = [] := by
  rw [List.filter_eq_nil_iff]
  intro member hmember
  obtain ⟨written, hwritten, rfl⟩ := List.mem_map.1 hmember
  have other : written.1 ≠ field := fun same =>
    absent (same ▸ List.mem_map.2 ⟨written, hwritten, rfl⟩)
  simpa using other

theorem slot?_eq (nodup : (members.map Prod.fst).Nodup) (field : String) :
    slot? (members.map fun member => (member.1, member.2.toTree)) field =
      some (Slot.ofMembers members field) := by
  induction members with
  | nil => rfl
  | cons member rest ih =>
      obtain ⟨key, value⟩ := member
      obtain ⟨absent, others⟩ := List.nodup_cons.1 nodup
      by_cases same : key = field
      · subst same
        have none := filter_eq_nil absent
        simp [slot?, Slot.ofMembers, none]
      · have other : (field == key) = false := beq_eq_false_iff_ne.2 (Ne.symm same)
        have later := ih others
        unfold slot? at later ⊢
        simpa [Slot.ofMembers, List.lookup_cons, same, other] using later

/-- **The slots of a written object**, if no key stands twice in it. -/
theorem slots?_toTree (nodup : (members.map Prod.fst).Nodup) (fields : List String) :
    (Value.object members).toTree.slots? fields = some (fields.map (Slot.ofMembers members)) := by
  rw [Value.toTree, slots?, keyed?_treesOfMembers]
  have each : slot? (members.map fun member => (member.1, member.2.toTree)) =
      fun field => pure (Slot.ofMembers members field) := funext (slot?_eq nodup)
  show fields.mapM (slot? _) = _
  rw [each, List.mapM_pure]
  rfl

theorem lookup_of_mem (nodup : (members.map Prod.fst).Nodup) {member : String × Value}
    (h : member ∈ members) : members.lookup member.1 = some member.2 := by
  induction members with
  | nil => cases h
  | cons head rest ih =>
      obtain ⟨absent, others⟩ := List.nodup_cons.1 nodup
      rcases List.mem_cons.1 h with rfl | later
      · rw [List.lookup_cons, beq_self_eq_true]
      · have other : (member.1 == head.1) = false := by
          rw [beq_eq_false_iff_ne]
          exact fun same => absent (same ▸ List.mem_map.2 ⟨member, later, rfl⟩)
        rw [List.lookup_cons, other]
        exact ih others later

/-- **The slots of an object with all fields**, in their order: each is given. -/
theorem slots?_toTree_self (keys : members.map Prod.fst = fields) (nodup : fields.Nodup) :
    (Value.object members).toTree.slots? fields =
      some (members.map fun member => .given member.2.toTree) := by
  subst keys
  rw [slots?_toTree nodup, List.map_map]
  refine congrArg some (List.map_congr_left fun member hmember => ?_)
  simp [Slot.ofMembers, lookup_of_mem nodup hmember]

/-- **Lists are read back if their items are.** -/
theorem list?_toTree {α : Type} {encode : α → Value} {ofTree? : Tree → Option α}
    (readBack : ∀ a, ofTree? (encode a).toTree = some a) (list : List α) :
    list? ofTree? (Value.array (list.map encode)).toTree = some list := by
  rw [Value.toTree, list?]
  induction list with
  | nil => rfl
  | cons a rest ih => simp [Value.treesOfItems, readBack, ih]

/-! ## Whatever is read is a part of the tree -/

theorem numbers_of_mem_items {trees : List Tree} {item : Tree} (h : item ∈ trees) :
    ∀ n ∈ item.numbers, n ∈ numbersOfItems trees := by
  intro n hn
  induction trees with
  | nil => cases h
  | cons tree rest ih =>
      rcases List.mem_cons.1 h with rfl | later
      · exact List.mem_append_left _ hn
      · exact List.mem_append_right _ (ih later)

theorem numbers_of_mem_members {trees : List (Option String × Tree)} {key : Option String}
    {item : Tree} (h : (key, item) ∈ trees) : ∀ n ∈ item.numbers, n ∈ numbersOfMembers trees := by
  intro n hn
  induction trees with
  | nil => cases h
  | cons member rest ih =>
      obtain ⟨other, tree⟩ := member
      rcases List.mem_cons.1 h with same | later
      · obtain ⟨rfl, rfl⟩ := Prod.mk.inj same
        exact List.mem_append_left _ hn
      · exact List.mem_append_right _ (ih later)

/-- What is made of the items of a list one by one comes from one of them. -/
theorem mem_of_mapM {α β : Type} {f : α → Option β} {as : List α} {bs : List β}
    (h : as.mapM f = some bs) {b : β} (hb : b ∈ bs) : ∃ a ∈ as, f a = some b := by
  induction as generalizing bs with
  | nil =>
      obtain rfl := Option.some.inj h
      cases hb
  | cons a rest ih =>
      simp only [List.mapM_cons, Option.bind_eq_bind, Option.bind_eq_some_iff] at h
      obtain ⟨first, hfirst, others, hothers, heq⟩ := h
      obtain rfl := Option.some.inj heq
      rcases List.mem_cons.1 hb with rfl | later
      · exact ⟨a, List.mem_cons_self, hfirst⟩
      · obtain ⟨c, hc, hmade⟩ := ih hothers later
        exact ⟨c, List.mem_cons_of_mem a hc, hmade⟩

theorem mem_of_slot? {named : List (String × Tree)} {item : Tree}
    (h : slot? named field = some (.given item)) : ∃ key, (key, item) ∈ named := by
  unfold slot? at h
  split at h
  · cases h
  case h_2 key tree found =>
    obtain rfl : tree = item := by simpa using h
    have mem : (key, tree) ∈ named.filter (·.1 = field) := found ▸ List.mem_singleton_self _
    exact ⟨key, (List.mem_filter.1 mem).1⟩
  · cases h

/-- **The slots of a record hold no other numbers than the record**, whatever its form. -/
theorem numbers_of_slots? {tree item : Tree} {slots : List Slot}
    (read : tree.slots? fields = some slots) (given : .given item ∈ slots) :
    ∀ n ∈ item.numbers, n ∈ tree.numbers := by
  unfold slots? at read
  split at read
  case h_1 written =>
    simp only [Option.bind_eq_bind, Option.bind_eq_some_iff] at read
    obtain ⟨named, hnamed, hslots⟩ := read
    obtain ⟨field, -, hslot⟩ := mem_of_mapM hslots given
    obtain ⟨key, hitem⟩ := mem_of_slot? hslot
    obtain ⟨⟨name, tree⟩, hmember, hname⟩ := mem_of_mapM hnamed hitem
    obtain ⟨text, rfl, heq⟩ := Option.map_eq_some_iff.1 hname
    obtain ⟨rfl, rfl⟩ := Prod.mk.inj heq
    exact numbers_of_mem_members hmember
  case h_2 items =>
    split at read
    · obtain rfl := Option.some.inj read
      rcases List.mem_append.1 given with inside | beyond
      · obtain ⟨other, hother, heq⟩ := List.mem_map.1 inside
        obtain rfl : other = item := by simpa using heq
        exact numbers_of_mem_items hother
      · cases (List.eq_of_mem_replicate beyond)
    · cases read
  · cases read

end Tree

end VaultShell.Json
