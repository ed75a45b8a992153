import VaultShell.Vault.Node

/-!
# Paths

A path is a text whose segments are separated by slashes. Every path has a canonical form: a slash,
then the segments that remain once empty segments and `.` are dropped and each `..` has taken the
segment before it away, separated by single slashes. A `..` with nothing before it takes nothing
away, so no path leads above the root.

Two readings of a path live side by side. `components` takes a path literally and only drops its
empty segments; this is how a node is looked up. `canonicalComponents` resolves the dots as well;
this is how a place to change is named.

## Main definitions

* `components`, `canonicalComponents`: the two readings of a path
* `render`: the canonical path of a list of components
* `normalize`: the canonical form of a path
* `resolve`: the canonical path of an operand, seen from a working directory
* `split`, `join`: a path as the directory that holds it and its last component
* `isUnder`: whether a path is another one or lies beneath it
-/

namespace VaultShell.Path

/-- The path of the root. -/
def root : String := "/"

/-- The pieces of a path between its slashes, empty ones included. -/
def segments (path : String) : List String :=
  (path.toList.splitOn '/').map String.ofList

/-- The non-empty segments of a path, dots taken literally. -/
def components (path : String) : List String :=
  (segments path).filter (· ≠ "")

/-- Takes a segment onto the components before it, which are listed from the deepest one up. -/
def enter (stack : List String) (segment : String) : List String :=
  if segment = "" ∨ segment = "." then stack
  else if segment = ".." then stack.tail
  else segment :: stack

/-- The components that a path leads through once its dots are resolved. -/
def canonicalComponents (path : String) : List String :=
  ((segments path).foldl enter []).reverse

/-- The canonical path of a list of components. -/
def render (components : List String) : String :=
  "/" ++ "/".intercalate components

/-- The canonical form of a path. -/
def normalize (path : String) : String :=
  render (canonicalComponents path)

/-- A path that is its own canonical form. -/
def IsCanonical (path : String) : Prop :=
  normalize path = path

instance (path : String) : Decidable (IsCanonical path) :=
  inferInstanceAs (Decidable (normalize path = path))

/-- What may stand as a component of a canonical path: it is not empty, has no slash and is neither
of the two dot segments. -/
def IsName (name : String) : Prop :=
  name ≠ "" ∧ '/' ∉ name.toList ∧ name ≠ "." ∧ name ≠ ".."

instance (name : String) : Decidable (IsName name) :=
  inferInstanceAs (Decidable (_ ∧ _))

/-- Appends a name to a path, with one slash between them. -/
def join (base name : String) : String :=
  if base.toList.getLast? = some '/' then base ++ name else base ++ "/" ++ name

/-- The canonical path of an operand. A tilde in front stands for the root, a slash in front starts
there, and any other operand starts at the working directory. -/
def resolve (cwd operand : String) : String :=
  match operand.toList with
  | ['~'] => root
  | '~' :: '/' :: rest => normalize (String.ofList ('/' :: rest))
  | '/' :: _ => normalize operand
  | _ => normalize (join cwd operand)

/-- The directory that holds the place a path leads to, and the last component. The root lies in no
directory. -/
def split (path : String) : Except Fault (String × String) :=
  let components := canonicalComponents path
  match components.getLast? with
  | none => .error .invalidPath
  | some name => .ok (render components.dropLast, name)

/-- Whether a path is another one or lies beneath it, both of them canonical. -/
def isUnder (path ancestor : String) : Bool :=
  ancestor == root || path == ancestor || (ancestor ++ "/").toList.isPrefixOf path.toList

end VaultShell.Path
