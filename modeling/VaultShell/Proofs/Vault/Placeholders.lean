import VaultShell.Vault.Initial

/-!
# What a placeholder content tells

Two files have the same placeholder content only if they have the same name.  The name stands in the
content as it is, with nothing around it that could not be in a name as well, so there is no mark to look
for: a name may even end in what its form has behind it.  What settles the name is where it begins and how
long it is.  The form is told from the first character of the content, and it fixes where the name begins.
And the longer the name, the longer is the content, so that contents of one form and one length have names
of one length.

## Main definitions

* `ContentForm.front`: what stands in front of the name
* `ContentForm.mentions`: how often the name stands there

## Main statements

* `ContentForm.content_inj`: the form and the name are told from the content
* `placeholder_injective`: the name of a file is told from its placeholder content
-/

namespace VaultShell

namespace ContentForm

variable {form other : ContentForm} {m n : String}

/-- What stands in front of the name, where it is first put into a form. -/
def front : ContentForm → String
  | .table => "id,label,updated\n1,"
  | .data => "\x7b\n  \"name\": \""
  | .sealed => "[encrypted binary object: "
  | .note => "# "

/-- How often the name is put into a form. -/
def mentions : ContentForm → Nat
  | .table => 3
  | .data | .sealed | .note => 1

theorem mentions_pos (form : ContentForm) : 0 < form.mentions := by
  cases form <;> decide

/-- No two forms begin alike. -/
theorem head?_front_injective (same : form.front.toList.head? = other.front.toList.head?) :
    form = other := by
  revert same
  cases form <;> cases other <;> decide

/-- **The name stands in its content**, at a place that depends on the form alone. -/
theorem exists_behind (name : String) (form : ContentForm) :
    ∃ behind, form.content name = form.front ++ name ++ behind := by
  cases form with
  | table =>
      have front : front .table = "id,label,updated" ++ "\n" ++ "1," := by decide
      simp only [content, lines, Text.unlines, front, String.append_assoc]
      exact ⟨_, rfl⟩
  | data =>
      have front : front .data = "\x7b" ++ "\n" ++ "  \"name\": \"" := by decide
      simp only [content, lines, Text.unlines, front, String.append_assoc]
      exact ⟨_, rfl⟩
  | sealed =>
      simp only [content, lines, Text.unlines, front, String.append_assoc]
      exact ⟨_, rfl⟩
  | note =>
      simp only [content, lines, Text.unlines, front, String.append_assoc]
      exact ⟨_, rfl⟩

/-- Contents of one form differ in length as their names do, as often as the name is in them. -/
theorem length_content_add (m n : String) (form : ContentForm) :
    (form.content m).length + form.mentions * n.length =
      (form.content n).length + form.mentions * m.length := by
  cases form <;> simp only [content, lines, Text.unlines, mentions, String.length_append] <;> omega

/-- The form is told from the content. -/
theorem form_eq_of_content_eq (same : form.content m = other.content n) : form = other := by
  obtain ⟨behind, hm⟩ := exists_behind m form
  obtain ⟨behind', hn⟩ := exists_behind n other
  have begins : ∀ (form : ContentForm) (rest : String),
      (form.front ++ rest).toList.head? = form.front.toList.head? := by
    intro form rest
    have something : form.front.toList.head?.isSome = true := by cases form <;> decide
    rw [String.toList_append, List.head?_append, Option.or_of_isSome something]
  apply head?_front_injective
  rw [hm, hn, String.append_assoc, String.append_assoc] at same
  rw [← begins form (m ++ behind), same, begins]

/-- The name is told from the content and its form. -/
theorem name_eq_of_content_eq (same : form.content m = form.content n) : m = n := by
  have length : m.toList.length = n.toList.length := by
    have lengths := length_content_add m n form
    rw [same] at lengths
    rw [String.length_toList, String.length_toList]
    exact (Nat.eq_of_mul_eq_mul_left form.mentions_pos (Nat.add_left_cancel lengths)).symm
  obtain ⟨behind, hm⟩ := exists_behind m form
  obtain ⟨behind', hn⟩ := exists_behind n form
  rw [hm, hn, String.append_assoc, String.append_assoc, String.append_right_inj] at same
  have texts := congrArg String.toList same
  rw [String.toList_append, String.toList_append] at texts
  exact String.toList_injective (List.append_inj texts length).1

/-- **The form and the name are told from the content.** -/
theorem content_inj : form.content m = other.content n ↔ form = other ∧ m = n := by
  constructor
  · intro same
    obtain rfl := form_eq_of_content_eq same
    exact ⟨rfl, name_eq_of_content_eq same⟩
  · rintro ⟨rfl, rfl⟩
    rfl

end ContentForm

/-- **The name of a file is told from its placeholder content**, whatever characters are in it and
whatever form its extension asks for. -/
theorem placeholder_injective : Function.Injective placeholder := by
  intro m n same
  exact (ContentForm.content_inj.1 same).2

end VaultShell
