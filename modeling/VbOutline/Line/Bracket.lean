import VbOutline.Line.Word
import VbOutline.Text.Scan

/-!
# Brackets

A scanner keeps the depth of open brackets and whether it stands inside a string literal. A closing
bracket without an opening one is ignored, and kinds of brackets are not told apart. Three readings
of a line use it: the pieces of a list, the place of an assignment and a leading group.
-/

namespace VbOutline.Line

open Text

/-- Where a scanner stands. -/
structure Nesting where
  depth : Nat
  quoted : Bool
  deriving DecidableEq, Repr

/-- A set of brackets that a scanner counts. -/
structure Brackets where
  opening : List Char
  closing : List Char

def listBrackets : Brackets := ⟨['(', '\x7b', '<'], [')', '\x7d', '>']⟩

def valueBrackets : Brackets := ⟨['(', '\x7b'], [')', '\x7d']⟩

def roundBrackets : Brackets := ⟨['('], [')']⟩

namespace Nesting

def outside : Nesting := ⟨0, false⟩

def isOutside (n : Nesting) : Bool := n.depth == 0 && !n.quoted

/-- The scanner after one more character. -/
def after (brackets : Brackets) (n : Nesting) (c : Char) : Nesting :=
  if c == '"' then { n with quoted := !n.quoted }
  else if n.quoted then n
  else if brackets.opening.contains c then { n with depth := n.depth + 1 }
  else if brackets.closing.contains c then { n with depth := n.depth - 1 }
  else n

end Nesting

/-- Puts a character in front of the first piece. -/
def consPiece (c : Char) : List Text → List Text
  | [] => [[c]]
  | piece :: rest => (c :: piece) :: rest

/-- The characters of a text, each with the scanner that comes to it. -/
def withNesting (brackets : Brackets) (start : Nesting) (s : Text) : List (Nesting × Char) :=
  states (Nesting.after brackets) start s

/-- The pieces between commas outside brackets and literals. -/
def pieces (s : Text) : List Text :=
  (withNesting listBrackets .outside s).foldr (fun (n, c) rest ↦
    if c == ',' && n.isOutside then [] :: rest else consPiece c rest) [[]]

/-- Gives each piece its byte offset, one comma standing between two pieces. -/
def withOffsets (start : Nat) : List Text → List (Nat × Text)
  | [] => []
  | piece :: rest => (start, piece) :: withOffsets (start + byteSize piece + 1) rest

/-- The pieces of a comma-separated list, with their byte offsets. -/
def splitTopLevel (s : Text) : List (Nat × Text) := withOffsets 0 (pieces s)

/-- The text before the first equals sign outside brackets and literals. -/
def beforeAssignment? (s : Text) : Option Text :=
  let isAssignment : Nesting × Char → Bool := fun (n, c) ↦ c == '=' && n.isOutside
  let scanned := withNesting valueBrackets .outside s
  if scanned.any isAssignment then
    some ((scanned.takeWhile fun p ↦ !isAssignment p).map (·.2))
  else none

/-- The inside of a leading parenthesised group and the text after it. -/
def takeGroup? : Text → Option (Text × Text)
  | '(' :: rest =>
    let closes : Nesting × Char → Bool := fun (n, c) ↦ (n.after roundBrackets c).depth == 0
    let scanned := withNesting roundBrackets ⟨1, false⟩ rest
    match scanned.dropWhile fun p ↦ !closes p with
    | [] => none
    | _ :: after =>
      some ((scanned.takeWhile fun p ↦ !closes p).map (·.2), after.map (·.2))
  | _ => none

/-- Whether the inside of a group lists type parameters. -/
def isGenericGroup (inner : Text) : Bool :=
  (stripKeyword? "of " (trimStart inner)).isSome

end VbOutline.Line
