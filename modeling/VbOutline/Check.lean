import VbOutline.Check.Blocks
import VbOutline.Check.Symbols

/-!
# Validation of a document

One pass over the lines runs the checks of single lines and of blocks; the checks of the outline
follow. The diagnostics are then ordered by where they start, those that start at the same place in
the order in which they were found.
-/

namespace VbOutline

open Text

namespace Check

structure Options where
  maxLineLength : Nat
  /-- The codes whose diagnostics are left out. -/
  disabled : List Text
  deriving DecidableEq, Repr

def Options.standard : Options := ⟨120, []⟩

def Options.isEnabled (o : Options) (code : String) : Bool :=
  !o.disabled.any fun c ↦ eqAscii c code.toList

/-- The tracker after one more line. -/
def track (t : Tracker) (line : SourceLine) : Tracker := (t.step line).1

/-- What the checks of single lines and of blocks find at a line to which the tracker has come. -/
def atLine (limit : Nat) (t : Tracker) (line : SourceLine) : List Diagnostic :=
  Check.line limit t.surroundings line ++ (t.step line).2

/-- The findings of the pass over the lines, in the order of the lines. -/
def walk (limit : Nat) (lines : List SourceLine) : List Diagnostic :=
  (states track .start lines).flatMap (fun (t, line) ↦ atLine limit t line) ++
    (lines.foldl track .start).finish

/-- All findings in the order in which the checks come to them. -/
def findings (limit : Nat) (text : Text) (others : List DocumentOutline) : List Diagnostic :=
  let lines := SourceLine.readAll (lines text)
  let forest := Outline.ofLines lines
  walk limit lines ++ unusedVariables lines forest ++
    missingMembers forest others ++ duplicates forest others

/-- Orders diagnostics by their start and keeps the order of those that start together. -/
def sortByStart (ds : List Diagnostic) : List Diagnostic :=
  ds.mergeSort fun a b ↦ a.range.start.le b.range.start

/-- The diagnostics of a text beside the outlines of other documents. -/
def validate (o : Options) (text : Text) (others : List DocumentOutline) : List Diagnostic :=
  sortByStart ((findings o.maxLineLength text others).filter fun d ↦ o.isEnabled d.code)

/-- The diagnostics of a document beside all documents of its workspace. -/
def validateAmong (o : Options) (outlines : List DocumentOutline) (d : Document) :
    List Diagnostic :=
  validate o d.text (DocumentOutline.others outlines d.uri)

end Check

end VbOutline
