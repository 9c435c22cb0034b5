import VbOutline.Path
import VbOutline.Position
import VbOutline.Text.Decimal

/-!
# Locations

A location is a file with a line and a column, both counted from one. It is written
`file:line:column`, and the column may be left out. The file ends at the first colon that is
followed by a digit or a minus sign; the colon of a drive letter does not count.
-/

namespace VbOutline

open Text

structure Location where
  file : Text
  line : Nat
  column : Nat
  deriving DecidableEq, Repr

inductive LocationError where
  | empty
  | noPosition
  | negativeLine
  | badLine (text : Text)
  | badColumn (text : Text)
  | lineZero
  | columnZero
  | notFound (file : Text)
  | outside (file : Text)
  deriving DecidableEq, Repr

def LocationError.message : LocationError → String
  | empty => "Location cannot be empty"
  | noPosition =>
    "Invalid location format. Expected: file:line[:column]\nExample: src/Module1.vb:10:5"
  | negativeLine =>
    "Invalid line number: negative values not allowed. Line numbers are 1-indexed positive " ++
      "integers.\nExample: src/Module1.vb:10:5"
  | badLine text =>
    "Invalid line number '" ++ String.ofList text ++ "': must be a positive integer (1-indexed)"
  | badColumn text =>
    "Invalid column number '" ++ String.ofList text ++ "': must be a positive integer (1-indexed)"
  | lineZero => "Line number must be >= 1 (got 0). Line numbers are 1-indexed."
  | columnZero => "Column number must be >= 1 (got 0). Column numbers are 1-indexed."
  | notFound file => "File not found: " ++ String.ofList file
  | outside file => "Access denied: " ++ String.ofList file ++ " is outside project boundary"

namespace Location

def ofPosition (file : Text) (p : Position) : Location := ⟨file, p.line + 1, p.character + 1⟩

def position (l : Location) : Position := .ofDisplay l.line l.column

def display (l : Location) : Text :=
  l.file ++ ':' :: decimal l.line ++ ':' :: decimal l.column

/-- Whether a text begins with a drive letter and its colon and goes on after them. -/
def hasDrive : Text → Bool
  | c :: ':' :: _ :: _ => c.isAlpha
  | _ => false

/-- Splits at the first colon before a digit or a minus sign. -/
def splitPosition? : Text → Option (Text × Text)
  | [] => none
  | c :: rest =>
    if c == ':' && rest.head?.any fun d ↦ isAsciiDigit d || d == '-' then some ([], rest)
    else (splitPosition? rest).map fun (file, position) ↦ (c :: file, position)

def splitFile? (s : Text) : Option (Text × Text) :=
  if hasDrive s then (splitPosition? (s.drop 2)).map fun (file, position) ↦ (s.take 2 ++ file, position)
  else splitPosition? s

def parseColumn (column : Option Text) : Except LocationError Nat :=
  match column with
  | none => .ok 1
  | some text =>
    match unsigned? bound32 text with
    | some n => .ok n
    | none => .error (.badColumn text)

def parsePosition (s : Text) : Except LocationError (Nat × Nat) := do
  let (lineText, columnText) := match splitFirst? ':' s with
    | some (line, column) => (line, some column)
    | none => (s, none)
  match unsigned? bound32 lineText with
  | none => .error (.badLine lineText)
  | some line =>
    let column ← parseColumn columnText
    if line == 0 then .error .lineZero
    else if column == 0 then .error .columnZero
    else .ok (line, column)

def parse (input : Text) : Except LocationError Location := do
  let s := trim input
  if s.isEmpty then .error .empty
  else
    match splitFile? s with
    | none => .error .noPosition
    | some (file, position) =>
      if position.head? == some '-' then .error .negativeLine
      else
        let (line, column) ← parsePosition position
        .ok ⟨file, line, column⟩

end Location

end VbOutline
