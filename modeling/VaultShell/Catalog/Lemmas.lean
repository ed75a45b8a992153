import VaultShell.Catalog.Basic

/-!
# The order of a catalog

`put` and `erase` keep a catalog sorted, and in a sorted catalog a name stands once: what `get?`
finds is all there is under the name.

## Main statements

* `sorted_put`, `sorted_erase`, `sorted_ofList`: catalogs stay sorted
* `put_perm`: a value under a new name is one more
* `ofList_of_sorted`: the catalog of a sorted list is the list
* `get?_eq_some_iff`: in a sorted catalog, `get?` finds exactly the members
* `get?_erase`: a name removed is gone, and every other name keeps its value
* `get?_ofList`: of the members of a list with one name, the last one is found
* `pairwise_names`, `mem_names_ofList`: the names of a catalog
* `eq_of_get?_eq`: sorted catalogs in which the same is found are the same
-/

namespace VaultShell.Catalog

variable {α : Type u}

theorem lt_of_not_lt_of_ne {a b : String} (h : ¬ a < b) (hne : b ≠ a) : b < a := by
  rcases String.le_total a b with hle | hle
  · exact absurd (String.le_antisymm hle (String.not_lt.1 h)) (Ne.symm hne)
  · exact String.not_le.1 fun hab => hne (String.le_antisymm hle hab)

/-- The members of a catalog after `put` are the value placed and members from before. -/
theorem mem_put {entries : Catalog α} {name : String} {value : α} {member : String × α}
    (h : member ∈ put entries name value) : member = (name, value) ∨ member ∈ entries := by
  induction entries with
  | nil => exact Or.inl (List.mem_singleton.1 h)
  | cons head rest ih =>
    unfold put at h
    split at h
    · rcases List.mem_cons.1 h with rfl | h
      · exact Or.inl rfl
      · exact Or.inr (List.mem_cons_of_mem _ h)
    · split at h
      · rcases List.mem_cons.1 h with rfl | h
        · exact Or.inl rfl
        · exact Or.inr h
      · rcases List.mem_cons.1 h with rfl | h
        · exact Or.inr (by simp)
        · exact (ih h).imp_right (List.mem_cons_of_mem _)

theorem sorted_put {entries : Catalog α} (h : Sorted entries) (name : String) (value : α) :
    Sorted (put entries name value) := by
  induction entries with
  | nil => simp [put, Sorted]
  | cons head rest ih =>
    obtain ⟨key, old⟩ := head
    have hhead : ∀ member ∈ rest, key < member.1 := (List.pairwise_cons.1 h).1
    have hrest : Sorted rest := (List.pairwise_cons.1 h).2
    unfold put
    split
    · rename_i heq
      subst heq
      exact List.pairwise_cons.2 ⟨hhead, hrest⟩
    · rename_i hne
      split
      · rename_i hlt
        refine List.pairwise_cons.2 ⟨?_, h⟩
        intro member hmember
        rcases List.mem_cons.1 hmember with rfl | hmember
        · exact hlt
        · exact String.lt_trans hlt (hhead member hmember)
      · rename_i hnlt
        refine List.pairwise_cons.2 ⟨?_, ih hrest⟩
        intro member hmember
        rcases mem_put hmember with rfl | hmember
        · exact lt_of_not_lt_of_ne hnlt hne
        · exact hhead member hmember

theorem erase_sublist (entries : Catalog α) (name : String) :
    (erase entries name).Sublist entries := by
  induction entries with
  | nil => exact List.Sublist.refl _
  | cons head rest ih =>
    unfold erase
    split
    · exact List.sublist_cons_self _ _
    · exact ih.cons_cons _

theorem sorted_erase {entries : Catalog α} (h : Sorted entries) (name : String) :
    Sorted (erase entries name) :=
  List.Pairwise.sublist (erase_sublist entries name) h

/-- Whatever the list, its catalog is sorted. -/
theorem sorted_ofList (members : List (String × α)) : Sorted (ofList members) := by
  have key : ∀ (entries : Catalog α), Sorted entries →
      Sorted (members.foldl (fun entries member => put entries member.1 member.2) entries) := by
    induction members with
    | nil => exact fun _ h => h
    | cons head rest ih => exact fun entries h => ih _ (sorted_put h head.1 head.2)
  exact key [] List.Pairwise.nil

/-- The members of a catalog of a list are members of the list. -/
theorem mem_of_mem_ofList {members : List (String × α)} {member : String × α}
    (h : member ∈ ofList members) : member ∈ members := by
  have key : ∀ (rest : List (String × α)) (entries : Catalog α),
      member ∈ rest.foldl (fun entries m => put entries m.1 m.2) entries →
        member ∈ entries ∨ member ∈ rest := by
    intro rest
    induction rest with
    | nil => exact fun _ h => Or.inl h
    | cons head rest ih =>
      intro entries h
      rcases ih _ h with h | h
      · rcases mem_put h with rfl | h
        · exact Or.inr List.mem_cons_self
        · exact Or.inl h
      · exact Or.inr (List.mem_cons_of_mem head h)
  rcases key members [] h with h | h
  · cases h
  · exact h

/-- A value that is placed under a name behind all others comes last. -/
theorem put_eq_append {entries : Catalog α} {name : String}
    (h : ∀ member ∈ entries, member.1 < name) (value : α) :
    put entries name value = entries ++ [(name, value)] := by
  induction entries with
  | nil => rfl
  | cons head rest ih =>
    obtain ⟨key, old⟩ := head
    have hlt : key < name := h (key, old) List.mem_cons_self
    have hne : key ≠ name := fun heq => String.lt_irrefl name (heq ▸ hlt)
    have hnlt : ¬ name < key := fun hgt => String.lt_irrefl name (String.lt_trans hgt hlt)
    rw [put, if_neg hne, if_neg hnlt, ih fun member hm => h member (List.mem_cons_of_mem _ hm)]
    rfl

/-- A value that is placed under a new name is one more, wherever it comes to stand. -/
theorem put_perm {entries : Catalog α} {name : String} (free : get? entries name = none) (value : α) :
    (put entries name value).Perm ((name, value) :: entries) := by
  induction entries with
  | nil => exact List.Perm.refl _
  | cons head rest ih =>
    obtain ⟨key, old⟩ := head
    unfold get? at free
    split at free
    · cases free
    case isFalse hne =>
      rw [put, if_neg hne]
      split
      · exact List.Perm.refl _
      · exact ((ih free).cons (key, old)).trans (List.Perm.swap (name, value) (key, old) rest)

/-- The catalog of a sorted list is the list. -/
theorem ofList_of_sorted {members : Catalog α} (h : Sorted members) : ofList members = members := by
  have key : ∀ (rest entries : Catalog α), Sorted (entries ++ rest) →
      rest.foldl (fun entries member => put entries member.1 member.2) entries = entries ++ rest := by
    intro rest
    induction rest with
    | nil => exact fun entries _ => (List.append_nil entries).symm
    | cons head rest ih =>
      intro entries sorted
      have below : ∀ member ∈ entries, member.1 < head.1 := fun member hm =>
        (List.pairwise_append.1 sorted).2.2 member hm head List.mem_cons_self
      rw [List.foldl_cons, put_eq_append below, ih _ (by simpa using sorted), List.append_assoc]
      rfl
  exact key members [] h

theorem mem_of_get? {entries : Catalog α} {name : String} {value : α}
    (h : get? entries name = some value) : (name, value) ∈ entries := by
  induction entries with
  | nil => simp at h
  | cons head rest ih =>
    unfold get? at h
    split at h
    · rename_i heq
      subst heq
      obtain rfl := Option.some.inj h
      exact List.mem_cons_self
    · exact List.mem_cons_of_mem _ (ih h)

/-- In a sorted catalog `get?` finds exactly the members. -/
theorem get?_eq_some_iff {entries : Catalog α} (h : Sorted entries) {name : String} {value : α} :
    get? entries name = some value ↔ (name, value) ∈ entries := by
  refine ⟨mem_of_get?, fun hmem => ?_⟩
  induction entries with
  | nil => simp at hmem
  | cons head rest ih =>
    have hhead : ∀ member ∈ rest, head.1 < member.1 := (List.pairwise_cons.1 h).1
    unfold get?
    rcases List.mem_cons.1 hmem with rfl | hmem
    · simp
    · have hlt : head.1 < name := hhead (name, value) hmem
      have hne : head.1 ≠ name := fun heq => String.lt_irrefl name (heq ▸ hlt)
      simp only [hne, if_false]
      exact ih (List.pairwise_cons.1 h).2 hmem

theorem get?_eq_none_of_forall_lt {entries : Catalog α} {name : String}
    (h : ∀ member ∈ entries, name < member.1) : get? entries name = none := by
  cases hget : get? entries name with
  | none => rfl
  | some value => exact absurd (h _ (mem_of_get? hget)) (String.lt_irrefl name)

/-- Every name but the one removed keeps its value, in any order of the names. -/
theorem get?_erase_of_ne (entries : Catalog α) {name other : String} (hne : other ≠ name) :
    get? (erase entries name) other = get? entries other := by
  induction entries with
  | nil => rfl
  | cons head rest ih =>
    obtain ⟨key, value⟩ := head
    unfold erase
    by_cases hk : key = name
    · subst hk
      simp [get?, Ne.symm hne]
    · simp only [hk, if_false, get?, ih]

/-- A name removed is gone, and every other name keeps its value. -/
theorem get?_erase {entries : Catalog α} (h : Sorted entries) (name other : String) :
    get? (erase entries name) other = if name = other then none else get? entries other := by
  induction entries with
  | nil => simp [erase]
  | cons head rest ih =>
    obtain ⟨key, value⟩ := head
    have hhead : ∀ member ∈ rest, key < member.1 := (List.pairwise_cons.1 h).1
    unfold erase
    by_cases hk : key = name
    · subst hk
      simp only [if_true]
      by_cases ho : key = other
      · subst ho
        simpa using get?_eq_none_of_forall_lt hhead
      · simp [get?, ho]
    · simp only [hk, if_false, get?, ih (List.pairwise_cons.1 h).2]
      by_cases ho : key = other
      · subst ho
        simp [Ne.symm hk]
      · simp [ho]

/-- Names kept by a condition keep their values. -/
theorem get?_filter (entries : Catalog α) (keep : String → Bool) (name : String) :
    get? (entries.filter fun member => keep member.1) name =
      if keep name then get? entries name else none := by
  induction entries with
  | nil => simp
  | cons head rest ih =>
    obtain ⟨key, value⟩ := head
    by_cases hk : key = name
    · subst hk
      cases hkeep : keep key <;> simp [get?, hkeep, ih]
    · cases hkeep : keep key <;> simp [get?, hk, hkeep, ih]

theorem sorted_filter {entries : Catalog α} (h : Sorted entries) (keep : String × α → Bool) :
    Sorted (entries.filter keep) :=
  List.Pairwise.sublist List.filter_sublist h

theorem get?_foldl_put (members : List (String × α)) (entries : Catalog α) (name : String) :
    get? (members.foldl (fun entries member => put entries member.1 member.2) entries) name =
      (members.reverse.lookup name).or (get? entries name) := by
  -- The catalog grows as members are put, and what is put last is met first in the reversed list.
  induction members generalizing entries with
  | nil => rfl
  | cons head rest ih =>
    obtain ⟨key, value⟩ := head
    rw [List.foldl_cons, ih, get?_put, List.reverse_cons, List.lookup_append, Option.or_assoc]
    by_cases hk : key = name
    · simp [hk]
    · have hbeq : (name == key) = false := beq_false_of_ne (Ne.symm hk)
      simp [List.lookup_cons, hk, hbeq]

/-- **Of the members of a list with one name, the last one is found.** -/
theorem get?_ofList (members : List (String × α)) (name : String) :
    get? (ofList members) name = members.reverse.lookup name := by
  rw [ofList, get?_foldl_put, get?_nil, Option.or_none]

theorem get?_ofList_append (members more : List (String × α)) (name : String) :
    get? (ofList (members ++ more)) name =
      (get? (ofList more) name).or (get? (ofList members) name) := by
  rw [get?_ofList, get?_ofList, get?_ofList, List.reverse_append, List.lookup_append]

/-- Under the name of a member something is found. -/
theorem exists_get?_ofList {members : List (String × α)} {name : String} {value : α}
    (h : (name, value) ∈ members) : ∃ last, get? (ofList members) name = some last := by
  rw [← Option.isSome_iff_exists, get?_ofList]
  exact List.lookup_isSome_iff.2 ⟨(name, value), List.mem_reverse.2 h, beq_self_eq_true name⟩

/-- If no two members differ in their values alone, all of them are found. -/
theorem get?_ofList_eq_some_iff {members : List (String × α)} {name : String} {value : α}
    (functional : ∀ other, (name, value) ∈ members → (name, other) ∈ members → other = value) :
    get? (ofList members) name = some value ↔ (name, value) ∈ members := by
  refine ⟨fun found => mem_of_mem_ofList (mem_of_get? found), fun hmem => ?_⟩
  obtain ⟨other, found⟩ := exists_get?_ofList hmem
  rw [found, functional other hmem (mem_of_mem_ofList (mem_of_get? found))]

/-- The names of a catalog that stays sorted stand in order. -/
theorem pairwise_names {entries : Catalog α} (h : Sorted entries) :
    (names entries).Pairwise (· < ·) :=
  List.pairwise_map.2 h

/-- The names of the catalog of a list are those of its members. -/
theorem mem_names_ofList {members : List (String × α)} {name : String} :
    name ∈ names (ofList members) ↔ ∃ value, (name, value) ∈ members := by
  constructor
  · intro h
    obtain ⟨⟨_, value⟩, hmember, rfl⟩ := List.mem_map.1 h
    exact ⟨value, mem_of_mem_ofList hmember⟩
  · rintro ⟨value, hmember⟩
    obtain ⟨last, found⟩ := exists_get?_ofList hmember
    exact List.mem_map.2 ⟨(name, last), mem_of_get? found, rfl⟩

/-- **Sorted catalogs in which the same is found are the same.** -/
theorem eq_of_get?_eq {entries others : Catalog α} (h : Sorted entries) (h' : Sorted others)
    (same : ∀ name, get? entries name = get? others name) : entries = others := by
  have nodup : ∀ {catalog : Catalog α}, Sorted catalog → catalog.Nodup := by
    intro catalog sorted
    refine List.Pairwise.imp ?_ sorted
    intro a b hlt heq
    exact String.lt_irrefl b.1 (heq ▸ hlt)
  have members : ∀ member, member ∈ entries ↔ member ∈ others := by
    rintro ⟨name, value⟩
    rw [← get?_eq_some_iff h, ← get?_eq_some_iff h', same]
  have perm := (List.perm_ext_iff_of_nodup (nodup h) (nodup h')).2 members
  refine perm.eq_of_pairwise ?_ h h'
  intro a b _ _ hab hba
  exact absurd (String.lt_trans hab hba) (String.lt_irrefl a.1)

end VaultShell.Catalog
