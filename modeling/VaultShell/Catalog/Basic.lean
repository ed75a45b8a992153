/-!
# Catalogs

A catalog holds values under names, in the order of the names by code point and each name once. It
is the shape of a directory's children, of the flat view of a vault and of the members of a JSON
object. Only `put` builds one up, and it keeps the order, so reading a catalog from front to back
lists it by name.

## Main definitions

* `Catalog.get?`: the value under a name
* `Catalog.put`: places a value under a name, replacing the one that was there
* `Catalog.erase`: removes a name
-/

namespace VaultShell

/-- Values under names, listed in the order of the names. -/
abbrev Catalog (α : Type u) := List (String × α)

namespace Catalog

variable {α : Type u}

/-- The names are in strictly increasing order, so no name stands twice. -/
def Sorted (entries : Catalog α) : Prop :=
  entries.Pairwise fun a b => a.1 < b.1

/-- The value under a name. -/
def get? (entries : Catalog α) (name : String) : Option α :=
  match entries with
  | [] => none
  | (other, value) :: rest => if other = name then some value else get? rest name

/-- Whether a name has a value. -/
def has (entries : Catalog α) (name : String) : Bool :=
  (get? entries name).isSome

/-- Places a value under a name, replacing the one that was there. -/
def put (entries : Catalog α) (name : String) (value : α) : Catalog α :=
  match entries with
  | [] => [(name, value)]
  | (other, old) :: rest =>
    if other = name then (name, value) :: rest
    else if name < other then (name, value) :: (other, old) :: rest
    else (other, old) :: put rest name value

/-- Removes a name and its value. -/
def erase (entries : Catalog α) (name : String) : Catalog α :=
  match entries with
  | [] => []
  | (other, value) :: rest => if other = name then rest else (other, value) :: erase rest name

/-- The catalog of a list of named values; of two values under one name the later one stays. -/
def ofList (members : List (String × α)) : Catalog α :=
  members.foldl (fun entries member => put entries member.1 member.2) []

/-- The names, in order. -/
def names (entries : Catalog α) : List String :=
  entries.map Prod.fst

@[simp] theorem get?_nil (name : String) : get? ([] : Catalog α) name = none := rfl

/-- A value placed is found under its name, and every other name keeps its value. -/
theorem get?_put (entries : Catalog α) (name other : String) (value : α) :
    get? (put entries name value) other =
      if name = other then some value else get? entries other := by
  induction entries with
  | nil => simp [put, get?]
  | cons head rest ih =>
    obtain ⟨key, old⟩ := head
    unfold put
    by_cases hk : key = name
    · subst hk
      by_cases ho : key = other <;> simp [get?, ho]
    · rw [if_neg hk]
      by_cases hl : name < key
      · rw [if_pos hl]
        rfl
      · rw [if_neg hl]
        simp only [get?, ih]
        by_cases ho : key = other
        · subst ho
          simp [Ne.symm hk]
        · simp [ho]

end Catalog

end VaultShell
