import VaultShell.Proofs.Path.Ancestry

/-!
# Paths put together

A path that is put together from two parts leads where the second part leads from where the first one
leads.  Resolving dots goes over the segments from left to right and keeps nothing but the names it has
come through, so a path may be resolved up to any slash and the rest of it from there.

What an operand starts from is settled by its first characters, and those do not change if more is put
behind it.  So the same is true of operands, whatever they start from.

## Main definitions

* `IsRelative`: an operand that starts where the shell works

## Main statements

* `normalize_append_slash`: a path in two parts
* `resolve_append_slash`: an operand in two parts
* `resolve_name`, `resolve_here`: a name and a full stop as operands
-/

namespace VaultShell.Path

variable {cwd operand a b : String}

/-! ## Paths in two parts -/

/-- **Resolving goes on from the names that the first part has led through.** -/
theorem canonicalComponents_append_slash (a b : String) :
    canonicalComponents (a ++ "/" ++ b) =
      ((segments b).foldl enter (canonicalComponents a).reverse).reverse := by
  unfold canonicalComponents
  rw [segments_append_slash, List.foldl_append, List.reverse_reverse]

/-- **A path in two parts** leads where the second part leads from the canonical form of the first. -/
theorem normalize_append_slash (a b : String) :
    normalize (normalize a ++ "/" ++ b) = normalize (a ++ "/" ++ b) := by
  have first : canonicalComponents (normalize a) = canonicalComponents a :=
    canonicalComponents_render fun _ => isName_of_mem_canonicalComponents
  unfold normalize at first ⊢
  rw [canonicalComponents_append_slash, canonicalComponents_append_slash, first]

/-- A slash at the end makes no difference. -/
theorem canonicalComponents_append_empty (a : String) :
    canonicalComponents (a ++ "/") = canonicalComponents a := by
  have parts := canonicalComponents_append_slash a ""
  rw [String.append_empty, segments_of_not_slash (by decide)] at parts
  simpa using parts

/-- A path that ends with a slash, and what is before the slash. -/
theorem exists_eq_append_slash (h : a.toList.getLast? = some '/') : ∃ front, a = front ++ "/" := by
  obtain ⟨front, hfront⟩ := List.getLast?_eq_some_iff.1 h
  refine ⟨String.ofList front, String.toList_injective ?_⟩
  rw [hfront, String.toList_append, String.toList_ofList]
  rfl

/-- Putting a name on saves a slash, and that makes no difference. -/
theorem normalize_join (base name : String) :
    normalize (join base name) = normalize (base ++ "/" ++ name) := by
  unfold join
  split
  case isFalse => rfl
  case isTrue slash =>
    obtain ⟨front, rfl⟩ := exists_eq_append_slash slash
    unfold normalize
    rw [canonicalComponents_append_slash, canonicalComponents_append_slash,
      canonicalComponents_append_empty]

/-! ## What an operand starts from -/

/-- An operand that starts where the shell works: no tilde stands for its first name, and no slash is in
front. -/
structure IsRelative (operand : String) : Prop where
  not_tilde : operand ≠ "~"
  not_beneath_tilde : ¬ ['~', '/'] <+: operand.toList
  not_absolute : ¬ ['/'] <+: operand.toList

/-- Where an operand starts: at the root, which the tilde stands for, or where the shell works. -/
theorem operand_cases (operand : String) :
    operand = "~" ∨ (∃ rest, operand = "~/" ++ rest) ∨ (∃ rest, operand = "/" ++ rest) ∨
      IsRelative operand := by
  have restOf : ∀ {front : List Char}, front <+: operand.toList →
      ∃ rest, operand = String.ofList front ++ rest := by
    rintro front ⟨rest, text⟩
    refine ⟨String.ofList rest, String.toList_injective ?_⟩
    rw [← text, String.toList_append, String.toList_ofList, String.toList_ofList]
  by_cases tilde : operand = "~"
  · exact Or.inl tilde
  · by_cases beneath : ['~', '/'] <+: operand.toList
    · exact Or.inr (Or.inl (restOf beneath))
    · by_cases absolute : ['/'] <+: operand.toList
      · exact Or.inr (Or.inr (Or.inl (restOf absolute)))
      · exact Or.inr (Or.inr (Or.inr ⟨tilde, beneath, absolute⟩))

theorem resolve_tilde (cwd : String) : resolve cwd "~" = root := by
  simp [resolve]

theorem resolve_beneath_tilde (cwd rest : String) :
    resolve cwd ("~/" ++ rest) = normalize ("/" ++ rest) := by
  have text : ("~/" ++ rest).toList = '~' :: '/' :: rest.toList := by simp [String.toList_append]
  have path : String.ofList ('/' :: rest.toList) = "/" ++ rest :=
    String.toList_injective (by simp [String.toList_append])
  simp only [resolve, text, path]

theorem resolve_absolute (cwd rest : String) : resolve cwd ("/" ++ rest) = normalize ("/" ++ rest) := by
  have text : ("/" ++ rest).toList = '/' :: rest.toList := by simp [String.toList_append]
  simp only [resolve, text]

namespace IsRelative

theorem resolve_eq (h : IsRelative operand) (cwd : String) :
    resolve cwd operand = normalize (cwd ++ "/" ++ operand) := by
  rw [← normalize_join]
  unfold resolve
  split
  case h_1 text => exact absurd (String.toList_injective text) h.not_tilde
  case h_2 rest text => exact absurd ⟨rest, text.symm⟩ h.not_beneath_tilde
  case h_3 rest text => exact absurd ⟨rest, text.symm⟩ h.not_absolute
  case h_4 => rfl

/-- A name that is no tilde stands for what the working directory holds under it. -/
theorem of_isName (isName : IsName operand) (notTilde : operand ≠ "~") : IsRelative operand where
  not_tilde := notTilde
  not_beneath_tilde := by
    rintro ⟨rest, text⟩
    exact isName.2.1 (text ▸ List.mem_cons_of_mem '~' List.mem_cons_self)
  not_absolute := by
    rintro ⟨rest, text⟩
    exact isName.2.1 (text ▸ List.mem_cons_self)

/-- More behind an operand does not change where it starts. -/
theorem append_slash (h : IsRelative a) (something : a ≠ "") (b : String) :
    IsRelative (a ++ "/" ++ b) := by
  have text : (a ++ "/" ++ b).toList = a.toList ++ '/' :: b.toList := by simp [String.toList_append]
  obtain ⟨first, rest, hfirst⟩ := List.exists_cons_of_ne_nil
    (show a.toList ≠ [] from fun empty => something (String.toList_injective empty))
  constructor
  · intro tilde
    have same := congrArg String.toList tilde
    rw [text, hfirst] at same
    simp at same
  · rw [text, hfirst]
    intro begins
    cases rest with
    | nil =>
        obtain ⟨rfl, -⟩ := List.cons_prefix_cons.1 begins
        exact h.not_tilde (String.toList_injective hfirst)
    | cons second rest =>
        have letters : '~' = first ∧ '/' = second := by simpa [List.cons_prefix_cons] using begins
        obtain ⟨rfl, rfl⟩ := letters
        exact h.not_beneath_tilde (hfirst ▸ ⟨rest, rfl⟩)
  · rw [text, hfirst]
    intro begins
    obtain ⟨rfl, -⟩ := List.cons_prefix_cons.1 begins
    exact h.not_absolute (hfirst ▸ ⟨rest, rfl⟩)

end IsRelative

/-- A name leads to its place in the working directory. -/
theorem resolve_name (canonical : IsCanonical cwd) (isName : IsName operand)
    (notTilde : operand ≠ "~") : resolve cwd operand = join cwd operand := by
  rw [(IsRelative.of_isName isName notTilde).resolve_eq, ← normalize_join]
  exact (join_eq canonical isName).1

/-- A full stop leads to the working directory. -/
theorem resolve_here (canonical : IsCanonical cwd) : resolve cwd "." = cwd := by
  have relative : IsRelative "." := ⟨by decide, by decide, by decide⟩
  have stays : ∀ stack : List String, enter stack "." = stack := fun _ => rfl
  rw [relative.resolve_eq, normalize, canonicalComponents_append_slash,
    segments_of_not_slash (by decide), List.foldl_cons, List.foldl_nil, stays, List.reverse_reverse]
  exact canonical

/-- **An operand in two parts** leads where the second part leads from where the first one leads. -/
theorem resolve_append_slash (something : a ≠ "") (relative : IsRelative b) (cwd : String) :
    resolve cwd (a ++ "/" ++ b) = resolve (resolve cwd a) b := by
  rw [relative.resolve_eq]
  rcases operand_cases a with rfl | ⟨rest, rfl⟩ | ⟨rest, rfl⟩ | relativeFirst
  · have empty : normalize "" = root := by decide +kernel
    rw [resolve_tilde, ← empty, normalize_append_slash]
    exact resolve_beneath_tilde cwd b
  · rw [resolve_beneath_tilde, normalize_append_slash, String.append_assoc, String.append_assoc,
      resolve_beneath_tilde, String.append_assoc, String.append_assoc]
  · rw [resolve_absolute, normalize_append_slash, String.append_assoc, String.append_assoc,
      resolve_absolute]
  · rw [(relativeFirst.append_slash something b).resolve_eq, relativeFirst.resolve_eq,
      normalize_append_slash]
    simp only [String.append_assoc]

end VaultShell.Path
