import VbOutline.Position
import VbOutline.Statement.Basic
import VbOutline.Text.Scan

/-!
# Source lines

A document is read line by line. A line that follows a continued one belongs to the statement
before it, so no statement begins on it; blank lines and comment lines in between do not end a
continuation.
-/

namespace VbOutline

open Text Line

structure SourceLine where
  /-- The number of the line, counted from zero. -/
  index : Nat
  raw : Text
  /-- The line without its comment. -/
  code : Text
  /-- The statement that begins on this line. -/
  statement : Option Statement
  /-- The next line of code. -/
  next : Option Text
  deriving Repr

namespace SourceLine

def isBlank (code : Text) : Bool := (trim code).isEmpty

/-- Whether a statement goes on after a line of code, if it does before it. -/
def continues (before : Bool) (code : Text) : Bool :=
  if isBlank code then before else isContinued code

/-- For each line of code the next one that is not blank, trimmed. -/
def followers (codes : List Text) : List (Option Text) :=
  (codes.foldr (fun code (next, found) ↦
    let shown := trim code
    (if shown.isEmpty then next else some shown, next :: found)) (none, [])).2

/-- Reads the code of a line that continues a statement if `continuing`. -/
def statement? (continuing : Bool) (code : Text) : Option Statement :=
  if continuing || isBlank code then none else some (Statement.parse code)

def readAll (lines : List Text) : List SourceLine :=
  let codes := lines.map stripComment
  let read := (states continues false codes).zip (followers codes)
  (lines.zip read).zipIdx.map fun ((raw, (continuing, code), next), index) ↦
    { index, raw, code, statement := statement? continuing code, next }

/-- The end of a line. -/
def stop (line : SourceLine) : Position := ⟨line.index, line.raw.length⟩

def whole (line : SourceLine) : Range := ⟨⟨line.index, 0⟩, line.stop⟩

/-- The range of `size` bytes from byte `offset` on. -/
def span (line : SourceLine) (offset size : Nat) : Range :=
  .onLine line.index (columnOf line.raw offset) (columnOf line.raw (offset + size))

/-- The range of the code, without white space around it. -/
def codeSpan (line : SourceLine) : Range :=
  let shown := trimEnd line.code
  .onLine line.index (columnOf line.raw (indentOf shown)) (columnOf line.raw (byteSize shown))

end SourceLine

end VbOutline
