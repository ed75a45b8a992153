import VaultShell.Json.Tree

/-!
# Records in JSON

A record is written as an object, whose members may stand in any order and among others that are
passed over, or as an array of its fields in their order. Either way each field has a slot: it is
given, or it is missing from an object, or the array ended before it. A field may be required, may
have a default for both ways of missing, or may be absent from an object only.

A value of a plain enumeration is its name, or an object whose only member has the name as its key
and `null` as its value.

## Main definitions

* `Slot`, `Tree.slots?`: the fields of a record
* `Slot.required?`, `Slot.withDefault?`, `Slot.optional?`: what a field may do without
* `Tree.text?`, `Tree.natural?`, `Tree.list?`, `Tree.choice?`: the values that fields have
-/

namespace VaultShell.Json

/-- What a record has for a field. -/
inductive Slot where
  | given (tree : Tree)
  /-- The object has no member for it. -/
  | omitted
  /-- The array ended before it. -/
  | beyond

namespace Slot

/-- A field that has to be given. -/
def required? {α : Type} (decode : Tree → Option α) : Slot → Option α
  | .given tree => decode tree
  | _ => none

/-- A field that has a value of its own where none is given. -/
def withDefault? {α : Type} (decode : Tree → Option α) (value : α) : Slot → Option α
  | .given tree => decode tree
  | _ => some value

/-- A field that an object may leave out or give as `null`. -/
def optional? {α : Type} (decode : Tree → Option α) : Slot → Option (Option α)
  | .given .null => some none
  | .given tree => (decode tree).map some
  | .omitted => some none
  | .beyond => none

end Slot

namespace Tree

/-- The members of an object, if all keys are text. -/
def keyed? (members : List (Option String × Tree)) : Option (List (String × Tree)) :=
  members.mapM fun member => member.1.map (·, member.2)

/-- What the members have for a field; a field may not be given twice. -/
def slot? (members : List (String × Tree)) (field : String) : Option Slot :=
  match members.filter (·.1 = field) with
  | [] => some .omitted
  | [(_, tree)] => some (.given tree)
  | _ => none

/-- The slots of a record, in the order of its fields. -/
def slots? (fields : List String) : Tree → Option (List Slot)
  | .object members => do
    let members ← keyed? members
    fields.mapM (slot? members)
  | .array items =>
    if items.length ≤ fields.length then
      some (items.map .given ++ List.replicate (fields.length - items.length) .beyond)
    else none
  | _ => none

/-- A text. -/
def text? : Tree → Option String
  | .string text => text
  | _ => none

/-- A natural number below a bound. -/
def natural? (bound : Nat) : Tree → Option Nat
  | .number (.integer n) => if 0 ≤ n ∧ n < bound then some n.toNat else none
  | _ => none

/-- A list. -/
def list? {α : Type} (decode : Tree → Option α) : Tree → Option (List α)
  | .array items => items.mapM decode
  | _ => none

/-- A value of a plain enumeration, by name. -/
def choice? {α : Type} (choices : List (String × α)) : Tree → Option α
  | .string (some name) => choices.lookup name
  | .object [(some name, .null)] => choices.lookup name
  | _ => none

end Tree

end VaultShell.Json
