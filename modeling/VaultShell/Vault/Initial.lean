import VaultShell.Text.Basic
import VaultShell.Text.Lines
import VaultShell.Vault.Basic

/-!
# First contents

No content enters a vault from outside. A file that a command creates gets a stand-in content, which
depends on its name alone: the extension, in any letter case, chooses one of four forms, and the
form names the file.

Every session starts from the same vault: a readme in the root and a directory of four resources
with stand-in contents.

## Main definitions

* `placeholder`: the stand-in content of a file
* `Vault.initial`: the vault that every session starts from
-/

namespace VaultShell

/-! ## Placeholders -/

/-- What follows the last full stop of a file name, in lower case. -/
def extension? (name : String) : Option String :=
  (Text.cutLast? '.' name.toList).map fun parts => (String.ofList parts.2).toLower

/-- The four forms of a stand-in content. -/
inductive ContentForm where
  /-- A table with three records. -/
  | table
  /-- An object of data. -/
  | data
  /-- An object that is no text. -/
  | sealed
  /-- A note in words. -/
  | note
  deriving DecidableEq, Repr

/-- The extensions of files that are no text. -/
def sealedExtensions : List String :=
  ["zip", "docx", "pdf", "png", "jpg", "jpeg"]

/-- The form that a file name asks for. -/
def ContentForm.ofName (name : String) : ContentForm :=
  match extension? name with
  | none => .note
  | some extension =>
    if extension = "csv" then .table
    else if extension = "json" then .data
    else if extension ∈ sealedExtensions then .sealed
    else .note

/-- The lines of a form, for a file name. -/
def ContentForm.lines (name : String) : ContentForm → List String
  | .table =>
    ["id,label,updated", "1," ++ name ++ " record 1,2024-01-01",
     "2," ++ name ++ " record 2,2024-01-02", "3," ++ name ++ " record 3,2024-01-03"]
  | .data =>
    ["\x7b", "  \"name\": \"" ++ name ++ "\",", "  \"encrypted\": true,", "  \"records\": []",
     "\x7d"]
  | .sealed => ["[encrypted binary object: " ++ name ++ "]"]
  | .note =>
    ["# " ++ name, "This file lives in your private vault.",
     "Its contents are simulated for this terminal session."]

/-- The content of a form, for a file name. -/
def ContentForm.content (name : String) (form : ContentForm) : String :=
  Text.unlines (form.lines name)

/-- The stand-in content of a file. -/
def placeholder (name : String) : String :=
  (ContentForm.ofName name).content name

/-! ## The initial vault -/

/-- The lines of the readme that every vault starts with. -/
def readmeLines : List String :=
  ["Welcome to your private vault.",
   "Everything here is simulated and lives only in this conversation.",
   "Try: ls -l, cd vault, cat contacts.json, mkdir notes, touch notes/todo.txt"]

/-- The content of the readme. -/
def readmeContent : String :=
  Text.unlines readmeLines

/-- The names of the resources that every vault starts with. -/
def initialResources : List String :=
  ["contacts.json", "photos_archive.zip", "documents_2024.docx", "financial_records.csv"]

/-- The directory of the resources. -/
def initialDirectory (time : Instant) : Node :=
  .directory ⟨"vault", .ofNewDirectory, time⟩ <|
    Catalog.ofList (initialResources.map fun name => (name, .newFile name (placeholder name) time))

/-- The vault that every session starts from. -/
def Vault.initial (time : Instant) : Vault :=
  ⟨.directory ⟨Path.root, .ofNewDirectory, time⟩ <|
    Catalog.ofList
      [("readme.txt", .newFile "readme.txt" readmeContent time), ("vault", initialDirectory time)]⟩

end VaultShell
