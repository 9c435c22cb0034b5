import VbOutline.Position
import VbOutline.Text.Lines

/-!
# Documents

A document is a text with its URI. Positions in it and byte offsets are converted into each other;
positions beyond the end of a line or of the document are moved back to it.
-/

namespace VbOutline

open Text

structure Document where
  uri : String
  text : Text
  deriving DecidableEq, Repr

namespace Document

def lines (d : Document) : List Text := Text.lines d.text

def line? (d : Document) (index : Nat) : Option Text := d.lines[index]?

def lineCount (d : Document) : Nat := d.lines.length

/-- A part between line feeds without the carriage returns at its end. -/
def content (part : Text) : Text := dropEndWhile (· == '\r') part

/-- The byte offset of a position in a text that consists of the given parts, a line feed standing
between two parts. -/
def offsetIn (p : Position) : List Text → Nat
  | [] => 0
  | part :: rest =>
    match p.line with
    | 0 => byteSize ((content part).take p.character)
    | line + 1 =>
      if rest.isEmpty then byteSize part
      else byteSize part + 1 + offsetIn ⟨line, p.character⟩ rest

def offsetAt (d : Document) (p : Position) : Nat := offsetIn p (splitAll '\n' d.text)

/-- The characters that begin before byte `offset`. -/
def beginningBefore (offset : Nat) : Text → Text
  | [] => []
  | c :: rest => if offset == 0 then [] else c :: beginningBefore (offset - c.utf8Size) rest

/-- The position after the characters that begin before byte `offset`, as it is counted in 32
bits. -/
def positionAt (d : Document) (offset : Nat) : Position :=
  let before := beginningBefore offset d.text
  Position.wrapped ⟨before.count '\n', (before.reverse.takeWhile (· != '\n')).length⟩

/-- The identifier at a position, or the one that ends there, and its range. A run of identifier
characters that begins with a digit is no identifier. -/
def wordAt (d : Document) (p : Position) : Option (Text × Range) :=
  match d.line? p.line with
  | some line =>
    let cursor := min p.character line.length
    let left := ((line.take cursor).reverse.takeWhile isIdentChar).reverse
    let right := (line.drop cursor).takeWhile isIdentChar
    let word := left ++ right
    if word.isEmpty || word.head?.any isAsciiDigit then none
    else some (word, .onLine p.line (cursor - left.length) (cursor + right.length))
  | none => none

end Document

end VbOutline
