import VaultShell.Proofs.Shell.Moves
import VaultShell.Proofs.Shell.Tokens
import VaultShell.Proofs.Text.Lines
import VaultShell.Router.Settings

/-!
# The contents of a vault

No command writes into a file.  A file's content comes with the file, from the initial vault or from
`touch`, and goes along with it wherever it is copied or moved.  So there are no other contents than
the readme and the stand-ins for names, and the names are words of a line: they have no blanks.

Each line of these contents has a character that is in no token, whatever the name is, so neither a
whole content nor a part of it made of lines can pass for one.

## Main definitions

* `IsStock`: the contents that there are
* `Node.HasContent`, `Shell.Stocked`: files with a content of some kind, with one of these

## Main statements

* `Shell.Move.hasContent`: no move brings another content in than the stand-in for a name
* `Shell.stocked_afterAll`: nor does any run of lines
* `IsStock.foreign_of_mem_lines`: no line of a content is a token
-/

namespace VaultShell

open Text (Blankless)

/-- The contents that files have: the readme, and the stand-in for a name without blanks. -/
def IsStock (content : String) : Prop :=
  content = readmeContent ∨ ∃ name, Blankless name ∧ content = placeholder name

/-! ## The lines of a content -/

/-- A text that nothing breaks, with a character that is in no token. -/
structure IsStockLine (line : String) : Prop where
  unbroken : Text.Unbroken line
  foreign : Sentinel.Foreign line

/-- A line in quotes is read off its characters. -/
theorem isStockLine_ofList {cs : List Char} (hunbroken : cs.any Text.endsLine = false)
    (hforeign : cs.any (!Sentinel.isTokenChar ·) = true) : IsStockLine (String.ofList cs) where
  unbroken := Text.unbroken_ofList hunbroken
  foreign := Sentinel.foreign_ofList hforeign

/-- In a line with a name in it, what stands before the name is enough to tell the line from a
token. -/
theorem IsStockLine.around {before name after : String} (h : IsStockLine before)
    (blankless : Blankless name) (hafter : Text.Unbroken after) :
    IsStockLine (before ++ name ++ after) where
  unbroken := Text.unbroken_append.2
    ⟨Text.unbroken_append.2 ⟨h.unbroken, blankless.unbroken⟩, hafter⟩
  foreign := (h.foreign.append name).append after

theorem isStockLine_of_mem_readmeLines {line : String} (h : line ∈ readmeLines) :
    IsStockLine line := by
  revert h line
  simp only [readmeLines, List.forall_mem_cons]
  exact ⟨isStockLine_ofList rfl rfl, isStockLine_ofList rfl rfl, isStockLine_ofList rfl rfl,
    List.forall_mem_nil _⟩

/-- The lines of a form, whatever name is put into them. -/
theorem isStockLine_of_mem_lines {name line : String} (blankless : Blankless name)
    {form : ContentForm} (h : line ∈ form.lines name) : IsStockLine line := by
  revert h line
  cases form with
  | table =>
      simp only [ContentForm.lines, List.forall_mem_cons]
      refine ⟨isStockLine_ofList rfl rfl, ?_, ?_, ?_, List.forall_mem_nil _⟩
      · exact (isStockLine_ofList rfl rfl).around blankless (Text.unbroken_ofList rfl)
      · exact (isStockLine_ofList rfl rfl).around blankless (Text.unbroken_ofList rfl)
      · exact (isStockLine_ofList rfl rfl).around blankless (Text.unbroken_ofList rfl)
  | data =>
      simp only [ContentForm.lines, List.forall_mem_cons]
      refine ⟨isStockLine_ofList rfl rfl, ?_, isStockLine_ofList rfl rfl,
        isStockLine_ofList rfl rfl, isStockLine_ofList rfl rfl, List.forall_mem_nil _⟩
      exact (isStockLine_ofList rfl rfl).around blankless (Text.unbroken_ofList rfl)
  | sealed =>
      simp only [ContentForm.lines, List.forall_mem_cons]
      refine ⟨?_, List.forall_mem_nil _⟩
      exact (isStockLine_ofList rfl rfl).around blankless (Text.unbroken_ofList rfl)
  | note =>
      simp only [ContentForm.lines, List.forall_mem_cons]
      refine ⟨?_, isStockLine_ofList rfl rfl, isStockLine_ofList rfl rfl, List.forall_mem_nil _⟩
      -- Nothing follows the name here.
      have mark : IsStockLine "# " := isStockLine_ofList rfl rfl
      have nothing : Text.Unbroken "" := Text.unbroken_ofList rfl
      have title := mark.around blankless nothing
      rwa [String.append_empty] at title

/-- Every content is the text of some lines, at least one. -/
theorem IsStock.exists_lines {content : String} (h : IsStock content) :
    ∃ first rest, content = Text.unlines (first :: rest) ∧
      ∀ line ∈ first :: rest, IsStockLine line := by
  rcases h with rfl | ⟨name, blankless, rfl⟩
  · exact ⟨_, _, rfl, fun _ => isStockLine_of_mem_readmeLines⟩
  · unfold placeholder
    have lines := fun line => @isStockLine_of_mem_lines name line blankless (.ofName name)
    revert lines
    cases ContentForm.ofName name <;> exact fun lines => ⟨_, _, rfl, lines⟩

/-- **No line of a content is a token.** -/
theorem IsStock.foreign_of_mem_lines {content line : String} (h : IsStock content)
    (hline : line ∈ Text.lines content) : Sentinel.Foreign line := by
  obtain ⟨first, rest, rfl, lines⟩ := h.exists_lines
  rw [Text.lines_unlines fun line hmem => (lines line hmem).unbroken.isLine] at hline
  exact (lines line hline).foreign

/-- No content is a token, with or without the line feeds at its end. -/
theorem IsStock.foreign_dropFinalFeeds {content : String} (h : IsStock content) :
    Sentinel.Foreign (Text.dropFinalFeeds content) := by
  obtain ⟨first, rest, rfl, lines⟩ := h.exists_lines
  have line := lines first List.mem_cons_self
  obtain ⟨c, hmem, hc⟩ := line.foreign
  have noFeed : c ≠ '\n' := by
    rintro rfl
    exact absurd (line.unbroken _ hmem) (by decide)
  refine ⟨c, Text.mem_dropFinalFeeds ?_ noFeed, hc⟩
  rw [Text.unlines, String.toList_append, String.toList_append]
  exact List.mem_append_left _ (List.mem_append_left _ hmem)

/-! ## The contents of nodes -/

/-- A node that is a directory or has a content of some kind. -/
def Node.HasContent (P : String → Prop) : Node → Prop
  | .file _ content => P content
  | .directory .. => True

/-- A node that is a directory or has one of these contents. -/
def Node.IsStocked : Node → Prop :=
  HasContent IsStock

theorem Node.hasContent_mapAttributes {P : String → Prop} (f : Attributes → Attributes) {node : Node}
    (h : node.HasContent P) : (node.mapAttributes f).HasContent P := by
  cases node with
  | file attributes content => exact h
  | directory attributes children => trivial

/-- The initial vault has a readme and stand-ins for the names of its resources. -/
theorem everywhere_initial (time : Instant) :
    (Vault.initial time).root.Everywhere Node.IsStocked := by
  have blankless : ∀ name ∈ initialResources, Blankless name := by decide
  exact Vault.everywhere_initial trivial (Or.inl rfl) trivial
    fun name hname => Or.inr ⟨name, blankless name hname, rfl⟩

namespace Shell

/-- **Every file of the vault has one of these contents.** -/
def Stocked (shell : Shell) : Prop :=
  shell.vault.root.Everywhere Node.IsStocked

/-- **No move brings another content in** than the stand-in for a name. -/
theorem Move.hasContent {P : String → Prop}
    (standIn : ∀ name, Blankless name → P (placeholder name)) {copies : Prop} {shell after : Shell}
    (move : Move copies shell after) (h : shell.vault.root.Everywhere (Node.HasContent P)) :
    after.vault.root.Everywhere (Node.HasContent P) := by
  refine move.everywhere ?_ ?_ ?_ standIn h
  · exact fun _ => Node.hasContent_mapAttributes _
  · exact fun _ _ _ => Node.hasContent_mapAttributes _
  · exact fun _ _ => trivial

theorem Move.stocked {copies : Prop} {shell after : Shell} (move : Move copies shell after)
    (h : shell.Stocked) : after.Stocked :=
  move.hasContent (fun name blankless => Or.inr ⟨name, blankless, rfl⟩) h

/-- **No run of lines brings another content in.** -/
theorem stocked_afterAll (settings : Settings) (lines : List String) :
    (settings.start.afterAll .standard lines).Stocked :=
  afterAll_invariant (fun _ h => h) (fun _ _ _ move h => move.stocked h)
    (typed_fresh settings.identity settings.epochOrOrigin) (everywhere_initial _) lines

/-- What is read from a file is one of these contents. -/
theorem Stocked.read {shell : Shell} (h : shell.Stocked) {path content : String}
    (hread : shell.vault.read path = .ok content) : IsStock content := by
  unfold Vault.read at hread
  split at hread
  · cases hread
  · cases hread
  case h_3 attributes text found =>
    obtain rfl := Except.ok.inj hread
    exact (Node.Everywhere.find? h found).bare

end Shell

end VaultShell
