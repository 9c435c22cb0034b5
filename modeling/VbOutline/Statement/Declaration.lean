import VbOutline.Line.Bracket

/-!
# Variable and constant declarations

A declaration is a line such as `Dim a, b As String, c = 5`: modifiers and a list of declarators.
A name without a type and without an initial value takes the type of the nearest name to its right
that has one. A declaration that is introduced by access modifiers only is one if some name has a
type or an initial value; otherwise the line is something else.
-/

namespace VbOutline

open Text Line

structure Declarator where
  name : Text
  offset : Nat
  /-- The type written at this name. -/
  ownType : Option Text
  /-- The type that the name has in the end. -/
  effectiveType : Option Text
  hasInitializer : Bool
  deriving DecidableEq, Repr

structure Declaration where
  modifiers : List Text
  declarators : List Declarator
  deriving DecidableEq, Repr

/-- The clause `As T` or `As New T`. -/
structure TypeClause where
  constructs : Bool
  type : Text

namespace TypeClause

/-- Cuts constructor arguments off a type. They begin at the last opening parenthesis, unless that
one opens a list of type arguments. -/
def withoutArguments (type : Text) : Text :=
  let shown := trim type
  match splitLast? '(' shown with
  | some (before, inner) =>
    if shown.getLast? == some ')' && !isGenericGroup inner then trimEnd before else shown
  | none => shown

/-- The name of the type, without an initializer clause and without constructor arguments. -/
def typeName (t : TypeClause) : Text :=
  let type := cutBefore ["with", "from"] t.type
  trim (if t.constructs then withoutArguments type else type)

/-- Reads the text after the word `As`. -/
def ofText (s : Text) : TypeClause :=
  if isKeyword "new" (leadingChunk s) && !(afterChunk s).isEmpty then
    ⟨true, trimStart (afterChunk s)⟩
  else ⟨false, s⟩

/-- Passes over array bounds at the beginning of a text; they must be closed. -/
def afterBounds? : Text → Option Text
  | '(' :: inside => (splitFirst? ')' inside).map (·.2)
  | s => some s

def afterNullable : Text → Text
  | '?' :: rest => rest
  | s => s

/-- Reads what follows a declared name: bounds, a mark for nullable types, and a type clause. The
outer `none` stands for text that is none of these. -/
def parse? (s : Text) : Option (Option TypeClause) :=
  match afterBounds? (trimStart s) with
  | none => none
  | some rest =>
    let rest := trimStart (afterNullable rest)
    if rest.isEmpty then some none
    else if isKeyword "as" (leadingChunk rest) && !(afterChunk rest).isEmpty then
      some (some (ofText (trimStart (afterChunk rest))))
    else none

end TypeClause

namespace Declarator

/-- Splits a trimmed declarator into its name and its type clause. The name is the longest one after
which the rest can be read, so where a word that ends in `As` is followed by a type, its end is
taken for the keyword. -/
def nameAndType? (head : Text) : Option (Text × Option TypeClause) :=
  if head.head?.any isNameStart then
    let word := leadingWord head
    match TypeClause.parse? (head.drop word.length) with
    | some clause => some (word, clause)
    | none =>
      let stem := word.take (word.length - 2)
      if stem.isEmpty then none
      else (TypeClause.parse? (head.drop stem.length)).map (stem, ·)
  else none

/-- Reads one piece of a declaration that begins at byte `offset` of the line. -/
def ofPiece? (offset : Nat) (piece : Text) : Option Declarator :=
  let assigned := beforeAssignment? piece
  match nameAndType? (trim (assigned.getD piece)) with
  | some (name, clause) =>
    if isReserved name then none
    else
      some
        { name
          offset := offset + indentOf piece
          ownType := clause.map TypeClause.typeName
          effectiveType := none
          hasInitializer := assigned.isSome }
  | none => none

/-- Gives each name its type: its own one or, without initial value, the next one to the right,
which is held beside the names already done. -/
def shareTypes (ds : List Declarator) : List Declarator :=
  (ds.foldr (fun d (next, done) ↦
    let shared := if d.hasInitializer then none else next
    (d.ownType.or next, { d with effectiveType := d.ownType.or shared } :: done)) (none, [])).2

end Declarator

namespace Declaration

def modifierWords : List String :=
  ["dim", "const", "static", "public", "private", "protected", "friend", "shared", "readonly",
    "withevents", "shadows"]

def hasModifier (d : Declaration) (modifier : String) : Bool :=
  d.modifiers.any fun m ↦ eqAscii m modifier.toList

def isConst (d : Declaration) : Bool := d.hasModifier "Const"

def isDim (d : Declaration) : Bool := d.hasModifier "Dim"

/-- Whether a keyword alone makes the line a declaration. -/
def isExplicit (d : Declaration) : Bool :=
  d.isDim || d.isConst || d.hasModifier "Static"

/-- Reads the declaration on a line of code. -/
def parse? (code : Text) : Option Declaration :=
  let text := trim code
  let (modifiers, body) := takeModifiers modifierWords text
  if modifiers.isEmpty || body.contains '\n' then none
  else
    let offset := indentOf code + offsetOf text body
    match (splitTopLevel body).mapM fun (start, piece) ↦ Declarator.ofPiece? (offset + start) piece with
    | some declarators =>
      let declaration : Declaration := ⟨modifiers, declarators⟩
      if declaration.isExplicit || declarators.any fun d ↦ d.ownType.isSome || d.hasInitializer then
        some { declaration with declarators := Declarator.shareTypes declarators }
      else none
    | none => none

end Declaration

end VbOutline
