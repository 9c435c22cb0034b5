import VbOutline.Statement.Accessor
import VbOutline.Statement.Declaration

/-!
# Statements

A line of code is read as one statement. Readings are tried in a fixed order: a closing statement,
a header, a region marker, an import, an implements clause, a control statement, a branch, a
declaration. A line that is none of these is a plain statement. Statement separators are not looked
at.
-/

namespace VbOutline

open Text Line

/-- The start of a control block or a property accessor. -/
structure ControlStart where
  block : Block
  /-- Whether an `If` has a `Then`. -/
  hasThen : Bool
  /-- Whether a statement follows `Then`, so that no block is opened. -/
  singleLine : Bool
  deriving DecidableEq, Repr

/-- The separators of the parts of a control block. -/
inductive Branch where
  | elseIf
  | otherwise
  | caseOf
  | catchError
  | finallyDo
  deriving DecidableEq, Repr

def Branch.keyword : Branch → String
  | elseIf => "ElseIf"
  | otherwise => "Else"
  | caseOf => "Case"
  | catchError => "Catch"
  | finallyDo => "Finally"

structure BlockEnd where
  block : Block
  /-- The statement in its usual spelling. -/
  statement : String
  deriving DecidableEq, Repr

/-- A name in a line and its byte offset. -/
structure PlacedName where
  name : Text
  offset : Nat
  deriving DecidableEq, Repr

inductive Statement where
  | blank
  | blockEnd (close : BlockEnd)
  | header (header : Header)
  | region (name : PlacedName)
  /-- An import; `isAlias` tells whether the name is an alias for the imported one. -/
  | imports (name : PlacedName) (isAlias : Bool)
  | implements (names : List PlacedName)
  | control (start : ControlStart)
  | branch (branch : Branch)
  | declaration (declaration : Declaration)
  | plain
  deriving DecidableEq, Repr

/-- The text after a word and white space at its beginning. -/
def afterSpacedWord? (word : String) (s : Text) : Option Text :=
  if isKeyword word (leadingChunk s) && !(afterChunk s).isEmpty then
    some (trimStart (afterChunk s))
  else none

namespace BlockEnd

/-- Blocks that are closed by `End` and their keyword. -/
def endWords : List String :=
  ["sub", "function", "class", "module", "property", "structure", "interface", "enum",
    "namespace", "get", "set", "if", "while", "select", "try", "with", "using", "synclock"]

def region? : Text → Option BlockEnd
  | '#' :: rest =>
    if (afterSpacedWord? "end" rest).any (startsWithKeyword ["region"]) then
      some ⟨.region, "#End Region"⟩
    else none
  | _ => none

def worded? (text : Text) : Option BlockEnd :=
  ((afterSpacedWord? "end" text).bind (keyword? endWords)).bind fun (word, _) ↦
    (Block.ofWord? word).map fun block ↦ ⟨block, "End " ++ block.keyword⟩

/-- The loops that are closed by a word of their own. -/
def short? (text : Text) : Option BlockEnd :=
  (keyword? ["next", "loop", "wend"] text).bind fun (word, _) ↦
    (Block.ofWord? word).map fun
      | .forNext => ⟨.forNext, "Next"⟩
      | .doLoop => ⟨.doLoop, "Loop"⟩
      | block => ⟨block, "Wend"⟩

/-- Reads a trimmed line as a closing statement. -/
def parse? (text : Text) : Option BlockEnd :=
  (region? text).or ((worded? text).or (short? text))

end BlockEnd

namespace ControlStart

def words : List String :=
  ["if", "for", "while", "do", "select", "try", "with", "using", "synclock"]

/-- Reads a trimmed line that begins with `If`. -/
def ofIf (text : Text) : ControlStart :=
  match findWord? (isKeyword "then") (maskStrings text) with
  | some (_, _, after) =>
    let body := trim after
    ⟨.ifThen, true, !body.isEmpty && body != ['_']⟩
  | none => ⟨.ifThen, false, false⟩

/-- Reads a trimmed line as the start of an accessor or a control block. -/
def parse? (text : Text) : Option ControlStart :=
  match (accessorWord? text).or ((keyword? words text).map (·.1)) with
  | some word =>
    (Block.ofWord? word).map fun
      | .ifThen => ofIf text
      | block => ⟨block, false, false⟩
  | none => none

end ControlStart

namespace Branch

/-- Reads a trimmed line as a branch. A word that is a branch keyword only up to case folding counts
as `ElseIf`. -/
def parse? (text : Text) : Option Branch :=
  (keyword? ["elseif", "else", "case", "catch", "finally"] text).map fun (word, _) ↦
    let word := asciiLower word
    if (afterSpacedWord? "else" text).any (startsWithKeyword ["if"]) then elseIf
    else if word == "else".toList then otherwise
    else if word == "case".toList then caseOf
    else if word == "catch".toList then catchError
    else if word == "finally".toList then finallyDo
    else elseIf

end Branch

namespace Statement

/-- Reads a trimmed line as a region marker. A region without a quoted name is named `Region`, at
the marker itself. -/
def region? (text : Text) : Option PlacedName :=
  match text with
  | '#' :: marker =>
    (keyword? ["region"] marker).map fun (_, rest) ↦
      match trimStart rest with
      | '"' :: quoted =>
        match splitFirst? '"' quoted with
        | some (name, _) => ⟨name, offsetOf text quoted⟩
        | none => ⟨"Region".toList, 0⟩
      | _ => ⟨"Region".toList, 0⟩
  | _ => none

/-- The alias at the beginning of an import, if a name follows its equals sign. -/
def importAlias? (s : Text) : Option Text :=
  if s.head?.any isNameStart then
    match trimStart (s.drop (leadingWord s).length) with
    | '=' :: rest => if (trimStart rest).head?.any isNameStart then some (leadingWord s) else none
    | _ => none
  else none

/-- Reads a trimmed line as an import. -/
def imports? (text : Text) : Option (PlacedName × Bool) :=
  match afterSpacedWord? "imports" text with
  | some rest =>
    match importAlias? rest with
    | some name => some (⟨name, offsetOf text rest⟩, true)
    | none =>
      if rest.head?.any isNameStart then
        some (⟨rest.takeWhile fun c ↦ isWordChar c || c == '.', offsetOf text rest⟩, false)
      else none
  | none => none

/-- Reads a trimmed line as an implements clause. -/
def implements? (text : Text) : Option (List PlacedName) :=
  match afterSpacedWord? "implements" text with
  | some rest =>
    let offset := offsetOf text rest
    if rest.isEmpty || rest.contains '\n' then none
    else
      some ((splitTopLevel rest).filterMap fun (start, piece) ↦
        let name := trim (dropUnderscores (trim piece))
        if name.isEmpty then none
        else some ⟨name, offset + start + indentOf piece⟩)
  | none => none

def shift (indent : Nat) (p : PlacedName) : PlacedName :=
  { p with offset := indent + p.offset }

/-- Reads a line of code, from which the comment has been stripped. Offsets refer to this line. -/
def parse (code : Text) : Statement :=
  let text := trim code
  let indent := indentOf code
  if text.isEmpty then blank
  else if let some close := BlockEnd.parse? text then blockEnd close
  else if let some h := Header.parse? code then header h
  else if let some name := region? text then region (shift indent name)
  else if let some (name, isAlias) := imports? text then imports (shift indent name) isAlias
  else if let some names := implements? text then implements (names.map (shift indent))
  else if let some start := ControlStart.parse? text then control start
  else if let some b := Branch.parse? text then branch b
  else if let some d := Declaration.parse? code then declaration d
  else plain

/-- Reads a line inside an enumeration as one of its members. Case plays no part in it. -/
def enumMember? (code : Text) : Option PlacedName :=
  let text := trim code
  if text.head?.any isPlainStart then
    let name := leadingWord text
    let read : Option PlacedName := some ⟨name, indentOf code⟩
    if isReserved name then none
    else
      match trimStart (text.drop name.length) with
      | [] => read
      | '=' :: value => if value.contains '\n' then none else read
      | _ => none
  else none

end Statement

end VbOutline
