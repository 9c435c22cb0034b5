import VbOutline.Diagnostic
import VbOutline.Line.Number
import VbOutline.Source.SourceLine

/-!
# Checks of a single line

Length, open work and numbers are checked on every line, also on one that continues a statement.
The other checks look at the statement that begins on the line.
-/

namespace VbOutline.Check

open Text Line

/-- Where a line stands: directly inside an enumeration, or anywhere inside a method. -/
structure Surroundings where
  inEnum : Bool
  inMethod : Bool

def length (limit : Nat) (line : SourceLine) : List Diagnostic :=
  let n := line.raw.length
  if n ≤ limit then [] else [⟨.onLine line.index limit n, .lineTooLong n limit⟩]

/-- Open work runs from its marker to the end of the comment. -/
def todo (line : SourceLine) : List Diagnostic :=
  match (comment? line.raw).bind findTodo? with
  | some (before, marker, after) =>
    let note := trimEnd (marker ++ after)
    [⟨line.span (byteSize line.code + 1 + byteSize before) (byteSize note), .todoComment note⟩]
  | none => []

/-- Zero and one, with any type suffix, need no name. -/
def isPlainNumber (literal : Text) : Bool :=
  let digits := dropEndWhile Char.isAlpha literal
  digits == ['0'] || digits == ['1']

def magicNumbers (line : SourceLine) : List Diagnostic :=
  ((numbers (maskStrings line.code)).filter fun n ↦ !isPlainNumber n.2).map fun n ↦
    ⟨line.span n.1 (byteSize n.2), .magicNumber n.2⟩

/-- A name that begins with a capital and is not all capitals. -/
def isPascalCase (name : Text) : Bool := name.head?.any isUpper && name.any isLower

def declarator (around : Surroundings) (line : SourceLine) (d : Declaration) (x : Declarator) :
    List Diagnostic :=
  let span := line.span x.offset (byteSize x.name)
  if d.isConst then
    if x.hasInitializer then [] else [⟨span, .uninitializedConst x.name⟩]
  else
    (if (d.isDim || d.hasModifier "Static") && x.effectiveType.isNone && !x.hasInitializer then
      [⟨span, .untypedVariable x.name⟩] else []) ++
    (if d.isDim && around.inMethod && isPascalCase x.name then
      [⟨span, .namingConvention x.name⟩] else [])

def returnType (line : SourceLine) (h : Header) : List Diagnostic :=
  if (h.block == .function || h.block == .property) && h.returnType.isNone && !h.continued then
    [⟨line.span h.nameOffset (byteSize h.name), .missingReturnType h.block h.name⟩]
  else []

def condition (line : SourceLine) (c : ControlStart) : List Diagnostic :=
  if c.block == .ifThen && !c.hasThen && !isContinued line.code then
    [⟨line.codeSpan, .missingThen⟩]
  else []

def statement (around : Surroundings) (line : SourceLine) : List Diagnostic :=
  match line.statement with
  | some (.control c) => condition line c
  | some (.declaration d) => d.declarators.flatMap (declarator around line d)
  | some (.header h) => returnType line h
  | _ => []

/-- Numbers may stand in enumerations and in the declarations of constants. -/
def mayHaveNumbers (around : Surroundings) (line : SourceLine) : Bool :=
  around.inEnum || match line.statement with
    | some (.declaration d) => d.isConst
    | _ => false

/-- All checks of one line. -/
def line (limit : Nat) (around : Surroundings) (line : SourceLine) : List Diagnostic :=
  length limit line ++ todo line ++
    (if mayHaveNumbers around line then [] else magicNumbers line) ++ statement around line

end VbOutline.Check
