import VaultShell.Text.Basic

/-!
# Lines

A line ends at a line feed, and the carriage return of a two-character line end belongs to the end
and not to the line. What stands after the last line feed is a line of its own only if it is not
empty, and then it is kept whole: a carriage return there ends nothing.

An input comes as bytes. It is cut behind the bytes that are line feeds, before anything is known of
the text, and each piece is a line only if it is the UTF-8 form of a text.

## Main definitions

* `lines`: the lines of a text, without their ends
* `bytes`, `decode?`: a text in UTF-8, and back
* `inputLines`: the lines of an input with their ends, as a reader gets them
* `unlines`: the text of some lines, each with its end
* `dropFinalFeeds`: a text without the line feeds at its end
-/

namespace VaultShell.Text

/-- The line whose characters, last one first, are `reversed`, after its line feed was met. -/
def closeLine : List Char → List Char
  | '\r' :: reversed => reversed.reverse
  | reversed => reversed.reverse

/-- Scans the lines of the remaining characters; `reversed` holds the open line, last character
first. -/
def scanLines (reversed : List Char) : List Char → List (List Char)
  | [] => if reversed.isEmpty then [] else [reversed.reverse]
  | c :: rest =>
    if c = '\n' then closeLine reversed :: scanLines [] rest
    else scanLines (c :: reversed) rest

/-- The lines of a text, without their ends. -/
def lines (s : String) : List String :=
  (scanLines [] s.toList).map String.ofList

/-- The text of some lines, each with a line feed behind it. -/
def unlines : List String → String
  | [] => ""
  | line :: rest => line ++ "\n" ++ unlines rest

/-- A text without the line feeds at its end. -/
def dropFinalFeeds (s : String) : String :=
  String.ofList (dropTrailing (· = '\n') s.toList)

/-- Lines joined by line feeds, none after the last one. -/
def joinLines (ls : List String) : String :=
  "\n".intercalate ls

/-! ## Inputs -/

/-- A text in UTF-8. -/
def bytes (s : String) : List UInt8 :=
  s.toUTF8.data.toList

/-- The text that bytes are the UTF-8 form of, if they are of any. -/
def decode? (bytes : List UInt8) : Option String :=
  String.fromUTF8? bytes.toByteArray

/-- The byte that ends a line. -/
def feedByte : UInt8 := 10

/-- Scans the pieces that end with a line feed, the last one possibly without it; `reversed` holds the
open piece, last byte first. -/
def scanPieces (reversed : List UInt8) : List UInt8 → List (List UInt8)
  | [] => if reversed.isEmpty then [] else [reversed.reverse]
  | byte :: rest =>
    if byte = feedByte then (byte :: reversed).reverse :: scanPieces [] rest
    else scanPieces (byte :: reversed) rest

/-- The lines of an input, each with the line feed that ends it. There is no line to be had from a piece
that is no text. -/
def inputLines (input : List UInt8) : List (Option String) :=
  (scanPieces [] input).map decode?

end VaultShell.Text
