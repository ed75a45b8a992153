import VaultShell.Catalog.Lemmas
import VaultShell.Proofs.Json.Scan

/-!
# What is written is read back

The tokens of a value are read into the tree of the value, and the text of a value therefore too.  A
reader keeps a stack of the containers that are open; the tokens of a value leave the stack as it was
and hand it the value's tree, and that is what the induction over the value carries.

A value that was made of some tree is made of its own tree as well.  Making it has dropped all that
would be lost in writing: repeated keys and their order, and strings that are no text.

## Main definitions

* `Value.toTree`: the tree of a value
* `Tree.numbers`: all numbers of a tree

## Main statements

* `Tree.readFrom_tokens`: the tokens of a value are read as one value
* `Tree.ofText?_write`: the text of a value gives the tree of the value
* `Value.settled_of_ofTree?`: a value that was read is read again
-/

namespace VaultShell.Json

namespace Value

mutual

/-- The tree of a value. -/
def toTree : Value → Tree
  | .null => .null
  | .boolean b => .boolean b
  | .number n => .number n
  | .string s => .string (some s)
  | .array items => .array (treesOfItems items)
  | .object members => .object (treesOfMembers members)

/-- The trees of some items. -/
def treesOfItems : List Value → List Tree
  | [] => []
  | value :: rest => toTree value :: treesOfItems rest

/-- The trees of some members, each under its key. -/
def treesOfMembers : List (String × Value) → List (Option String × Tree)
  | [] => []
  | (key, value) :: rest => (some key, toTree value) :: treesOfMembers rest

end

/-- Only `null` has the tree of `null`. -/
theorem toTree_ne_null {value : Value} (some : value ≠ .null) : value.toTree ≠ .null := by
  intro h
  cases value <;> first | exact some rfl | simp [toTree] at h

end Value

/-! ## Tokens -/

namespace Tree

theorem readFrom_cons (progress : Progress) (token : Token) (rest : List Token) :
    readFrom progress (token :: rest) = (step progress token).bind (readFrom · rest) := by
  rw [readFrom]
  rfl

/-- The first item of an array is read like any other value. -/
theorem readFrom_firstItem (value : Value) (stack : List Frame) (rest : List Token) :
    readFrom (.reading .firstItem stack) (value.tokens ++ rest) =
      readFrom (.reading .value stack) (value.tokens ++ rest) := by
  cases value with
  | array items => cases items <;> rfl
  | object members => cases members <;> rfl
  | _ => rfl

mutual

/-- **The tokens of a value are read as one value**, which the innermost open container gets. -/
theorem readFrom_tokens : ∀ (value : Value) (stack : List Frame) (rest : List Token),
    readFrom (.reading .value stack) (value.tokens ++ rest) =
      (deliver value.toTree stack).bind (readFrom · rest)
  | .null, _, _ => rfl
  | .boolean _, _, _ => rfl
  | .number _, _, _ => rfl
  | .string _, _, _ => rfl
  | .array [], _, _ => rfl
  | .array (value :: items), stack, rest => by
      have opened : step (.reading .value stack) .openArray =
          some (.reading .firstItem (.array [] :: stack)) := rfl
      rw [Value.tokens, List.cons_append, List.cons_append, readFrom_cons, opened, Option.bind_some,
        List.append_assoc, readFrom_firstItem, readFrom_tokens value]
      exact readFrom_items items [value.toTree] stack rest
  | .object [], _, _ => rfl
  | .object ((key, value) :: members), stack, rest => by
      have opened : step (.reading .value stack) .openObject =
          some (.reading .firstKey (.object [] :: stack)) := rfl
      have keyed : step (.reading .firstKey (.object [] :: stack)) (.string (some key)) =
          some (.reading (.colon (some key)) (.object [] :: stack)) := rfl
      have parted : step (.reading (.colon (some key)) (.object [] :: stack)) .colon =
          some (.reading .value (.member [] (some key) :: stack)) := rfl
      simp only [Value.tokens, List.cons_append, List.append_assoc]
      rw [readFrom_cons, opened, Option.bind_some, readFrom_cons, keyed, Option.bind_some,
        readFrom_cons, parted, Option.bind_some, readFrom_tokens value]
      exact readFrom_members members [(some key, value.toTree)] stack rest

theorem readFrom_items : ∀ (items : List Value) (reversed : List Tree) (stack : List Frame)
    (rest : List Token),
    readFrom (.reading .next (.array reversed :: stack)) (Value.tokensOfItems items ++ rest) =
      (deliver (.array (reversed.reverse ++ Value.treesOfItems items)) stack).bind (readFrom · rest)
  | [], reversed, stack, rest => by
      rw [Value.treesOfItems, List.append_nil]
      rfl
  | value :: items, reversed, stack, rest => by
      have goesOn : step (.reading .next (.array reversed :: stack)) .comma =
          some (.reading .value (.array reversed :: stack)) := rfl
      have later := readFrom_items items (value.toTree :: reversed) stack rest
      rw [List.reverse_cons, List.append_assoc] at later
      rw [Value.tokensOfItems, List.cons_append, List.cons_append, readFrom_cons, goesOn,
        Option.bind_some, List.append_assoc, readFrom_tokens value]
      exact later

theorem readFrom_members : ∀ (members : List (String × Value))
    (reversed : List (Option String × Tree)) (stack : List Frame) (rest : List Token),
    readFrom (.reading .next (.object reversed :: stack)) (Value.tokensOfMembers members ++ rest) =
      (deliver (.object (reversed.reverse ++ Value.treesOfMembers members)) stack).bind
        (readFrom · rest)
  | [], reversed, stack, rest => by
      rw [Value.treesOfMembers, List.append_nil]
      rfl
  | (key, value) :: members, reversed, stack, rest => by
      have goesOn : step (.reading .next (.object reversed :: stack)) .comma =
          some (.reading .key (.object reversed :: stack)) := rfl
      have keyed : step (.reading .key (.object reversed :: stack)) (.string (some key)) =
          some (.reading (.colon (some key)) (.object reversed :: stack)) := rfl
      have parted : step (.reading (.colon (some key)) (.object reversed :: stack)) .colon =
          some (.reading .value (.member reversed (some key) :: stack)) := rfl
      have later := readFrom_members members ((some key, value.toTree) :: reversed) stack rest
      rw [List.reverse_cons, List.append_assoc] at later
      simp only [Value.tokensOfMembers, List.cons_append, List.append_assoc]
      rw [readFrom_cons, goesOn, Option.bind_some, readFrom_cons, keyed, Option.bind_some,
        readFrom_cons, parted, Option.bind_some, readFrom_tokens value]
      exact later

end

/-- **The text of a value gives the tree of the value.** -/
theorem ofText?_write {value : Value} (words : ∀ n ∈ value.numbers, n.IsWord) :
    ofText? value.write = some value.toTree := by
  have read := readFrom_tokens value [] []
  rw [List.append_nil] at read
  simp only [ofText?, Value.ofText?_write words, ofTokens?]
  exact read

mutual

/-- All numbers of a tree. -/
def numbers : Tree → List Number
  | .null => []
  | .boolean _ => []
  | .number n => [n]
  | .string _ => []
  | .array items => numbersOfItems items
  | .object members => numbersOfMembers members

/-- All numbers of some items. -/
def numbersOfItems : List Tree → List Number
  | [] => []
  | tree :: rest => numbers tree ++ numbersOfItems rest

/-- All numbers of some members. -/
def numbersOfMembers : List (Option String × Tree) → List Number
  | [] => []
  | (_, tree) :: rest => numbers tree ++ numbersOfMembers rest

end

end Tree

/-! ## Values -/

namespace Value

variable {depth : Nat} {value : Value} {tree : Tree} {items : List Value}
  {members : List (String × Value)}

/-- **A value has nothing to lose that would not be lost in reading a tree**: its own tree gives the
value, and it has no other numbers than the tree. -/
structure Settled (depth : Nat) (tree : Tree) (value : Value) : Prop where
  again : ofTree? depth value.toTree = some value
  numbers : ∀ n ∈ value.numbers, n ∈ tree.numbers

theorem itemsOfTrees?_treesOfItems (h : ∀ value ∈ items, ofTree? depth value.toTree = some value) :
    itemsOfTrees? depth (treesOfItems items) = some items := by
  induction items with
  | nil => rfl
  | cons value rest ih =>
      have first := h value List.mem_cons_self
      have others := ih fun other hother => h other (List.mem_cons_of_mem value hother)
      simp [treesOfItems, itemsOfTrees?, first, others]

theorem membersOfTrees?_treesOfMembers
    (h : ∀ member ∈ members, ofTree? depth member.2.toTree = some member.2) :
    membersOfTrees? depth (treesOfMembers members) = some members := by
  induction members with
  | nil => rfl
  | cons member rest ih =>
      have first := h member List.mem_cons_self
      have others := ih fun other hother => h other (List.mem_cons_of_mem member hother)
      simp [treesOfMembers, membersOfTrees?, first, others]

theorem mem_numbersOfItems {n : Number} :
    n ∈ numbersOfItems items ↔ ∃ value ∈ items, n ∈ value.numbers := by
  induction items with
  | nil => simp [numbersOfItems]
  | cons value rest ih => simp [numbersOfItems, ih]

theorem mem_numbersOfMembers {n : Number} :
    n ∈ numbersOfMembers members ↔ ∃ member ∈ members, n ∈ member.2.numbers := by
  induction members with
  | nil => simp [numbersOfMembers]
  | cons member rest ih => simp [numbersOfMembers, ih]

mutual

/-- **A value that was read is settled.**  The induction is over the tree.  In an object it is the
catalog of the members that is read again, and it is sorted and has no other members than were read. -/
theorem settled_of_ofTree? : ∀ {depth : Nat} {value : Value} (tree : Tree),
    ofTree? depth tree = some value → Settled depth tree value
  | depth, value, .null, h => by
      obtain rfl := Option.some.inj h
      exact ⟨rfl, fun n hn => hn⟩
  | depth, value, .boolean b, h => by
      obtain rfl := Option.some.inj h
      exact ⟨rfl, fun n hn => hn⟩
  | depth, value, .number n, h => by
      have read := h
      unfold ofTree? at h
      split at h
      · obtain rfl := Option.some.inj h
        exact ⟨read, fun n hn => hn⟩
      · cases h
  | depth, value, .string s, h => by
      unfold ofTree? at h
      obtain ⟨text, rfl, rfl⟩ := Option.map_eq_some_iff.1 h
      exact ⟨rfl, fun n hn => hn⟩
  | 0, value, .array trees, h => by
      cases h
  | depth + 1, value, .array trees, h => by
      obtain ⟨items, read, rfl⟩ := Option.map_eq_some_iff.1 h
      have settled := settled_of_itemsOfTrees? trees read
      refine ⟨?_, ?_⟩
      · rw [toTree, ofTree?, itemsOfTrees?_treesOfItems fun value hvalue => (settled value hvalue).1]
        rfl
      · intro n hn
        obtain ⟨value, hvalue, hmem⟩ := mem_numbersOfItems.1 hn
        exact (settled value hvalue).2 n hmem
  | 0, value, .object trees, h => by
      cases h
  | depth + 1, value, .object trees, h => by
      obtain ⟨members, read, rfl⟩ := Option.map_eq_some_iff.1 h
      have settled : ∀ member ∈ Catalog.ofList members, _ := fun member hmember =>
        settled_of_membersOfTrees? trees read member (Catalog.mem_of_mem_ofList hmember)
      have sorted := Catalog.sorted_ofList members
      refine ⟨?_, ?_⟩
      · rw [toTree, ofTree?,
          membersOfTrees?_treesOfMembers fun member hmember => (settled member hmember).1,
          Option.map_some, Catalog.ofList_of_sorted sorted]
      · intro n hn
        obtain ⟨member, hmember, hmem⟩ := mem_numbersOfMembers.1 hn
        exact (settled member hmember).2 n hmem

theorem settled_of_itemsOfTrees? : ∀ {depth : Nat} {items : List Value} (trees : List Tree),
    itemsOfTrees? depth trees = some items → ∀ value ∈ items,
      ofTree? depth value.toTree = some value ∧ ∀ n ∈ value.numbers, n ∈ Tree.numbersOfItems trees
  | depth, items, [], h => by
      obtain rfl := Option.some.inj h
      intro value hvalue
      cases hvalue
  | depth, items, tree :: rest, h => by
      simp only [itemsOfTrees?, Option.bind_eq_bind, Option.bind_eq_some_iff] at h
      obtain ⟨first, readFirst, others, readOthers, heq⟩ := h
      obtain rfl := Option.some.inj heq
      intro value hvalue
      rcases List.mem_cons.1 hvalue with rfl | hother
      · have settled := settled_of_ofTree? tree readFirst
        exact ⟨settled.again, fun n hn => List.mem_append_left _ (settled.numbers n hn)⟩
      · obtain ⟨again, numbers⟩ := settled_of_itemsOfTrees? rest readOthers value hother
        exact ⟨again, fun n hn => List.mem_append_right _ (numbers n hn)⟩

theorem settled_of_membersOfTrees? : ∀ {depth : Nat} {members : List (String × Value)}
    (trees : List (Option String × Tree)),
    membersOfTrees? depth trees = some members → ∀ member ∈ members,
      ofTree? depth member.2.toTree = some member.2 ∧
        ∀ n ∈ member.2.numbers, n ∈ Tree.numbersOfMembers trees
  | depth, members, [], h => by
      obtain rfl := Option.some.inj h
      intro member hmember
      cases hmember
  | depth, members, (key, tree) :: rest, h => by
      simp only [membersOfTrees?, Option.bind_eq_bind, Option.bind_eq_some_iff] at h
      obtain ⟨name, rfl, first, readFirst, others, readOthers, heq⟩ := h
      obtain rfl := Option.some.inj heq
      intro member hmember
      rcases List.mem_cons.1 hmember with rfl | hother
      · have settled := settled_of_ofTree? tree readFirst
        exact ⟨settled.again, fun n hn => List.mem_append_left _ (settled.numbers n hn)⟩
      · obtain ⟨again, numbers⟩ := settled_of_membersOfTrees? rest readOthers member hother
        exact ⟨again, fun n hn => List.mem_append_right _ (numbers n hn)⟩

end

/-- Only `null` is read as `null`. -/
theorem eq_null_of_ofTree? (h : ofTree? depth tree = some .null) : tree = .null := by
  cases tree with
  | null => rfl
  | boolean b => cases h
  | number n =>
      unfold ofTree? at h
      split at h <;> cases h
  | string s =>
      unfold ofTree? at h
      obtain ⟨text, -, heq⟩ := Option.map_eq_some_iff.1 h
      cases heq
  | array items =>
      cases depth with
      | zero => cases h
      | succ depth =>
          obtain ⟨values, -, heq⟩ := Option.map_eq_some_iff.1 h
          cases heq
  | object members =>
      cases depth with
      | zero => cases h
      | succ depth =>
          obtain ⟨values, -, heq⟩ := Option.map_eq_some_iff.1 h
          cases heq

end Value

end VaultShell.Json
