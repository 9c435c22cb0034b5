import VbOutline.Statement.Block
import VbOutline.Line.Bracket
import VbOutline.Line.Comment

/-!
# Declaration headers

A header is a line such as `Public Function Pick(Of T)(items As List(Of T)) As T`: modifiers, a
declaring keyword, a dotted name, and after it library clauses, a group of type parameters, a group
of parameters and a return type, all of them optional. A parameter list that is not closed goes on
in the next line; only the part in this line is kept.

Offsets are byte offsets in the whole line.
-/

namespace VbOutline

open Text Line

structure Header where
  block : Block
  modifiers : List Text
  name : Text
  nameOffset : Nat
  /-- The type parameters without parentheses, such as `Of T`. -/
  typeParams : Option Text
  /-- The parameters without parentheses. -/
  params : Option Text
  /-- Where the parameters begin, or the end of the name if there are none. -/
  paramsOffset : Nat
  returnType : Option Text
  /-- Whether the line ends with the continuation marker. -/
  continued : Bool
  deriving DecidableEq, Repr

namespace Header

def modifierWords : List String :=
  ["public", "private", "protected", "friend", "shared", "overrides", "overridable", "overloads",
    "notoverridable", "mustoverride", "mustinherit", "notinheritable", "partial", "shadows",
    "readonly", "writeonly", "default", "static", "async", "iterator", "widening", "narrowing",
    "declare", "delegate", "ansi", "unicode", "auto"]

def blockWords : List String :=
  ["sub", "function", "class", "module", "property", "structure", "interface", "enum",
    "namespace"]

/-- The rest of a dotted name: word characters, and points before a further part. -/
def dottedTail : Text → Text
  | [] => []
  | c :: rest =>
    if isWordChar c || (c == '.' && rest.head?.any isNameStart) then c :: dottedTail rest else []

/-- The dotted name at the beginning of a text. -/
def dottedName? : Text → Option Text
  | [] => none
  | c :: rest => if isNameStart c then some (c :: dottedTail rest) else none

/-- The text after a clause such as `Lib "user32"` at its beginning. -/
def afterLibraryClause? (s : Text) : Option Text :=
  if isOneOf ["lib", "alias"] (leadingChunk s) then
    match trimStart (afterChunk s) with
    | '"' :: quoted => (splitFirst? '"' quoted).map fun (_, rest) ↦ trimStart rest
    | _ => none
  else none

theorem length_afterLibraryClause?_lt {s rest : Text} (h : afterLibraryClause? s = some rest) :
    rest.length < s.length := by
  unfold afterLibraryClause? at h
  split at h
  · split at h
    · next quoted hquoted =>
      obtain ⟨⟨before, tail⟩, hsplit, rfl⟩ := Option.map_eq_some_iff.1 h
      have h1 : (trimStart tail).length ≤ tail.length := length_dropWhile_le _ tail
      have h2 := length_splitFirst?_lt hsplit
      have h3 : (trimStart (afterChunk s)).length ≤ (afterChunk s).length :=
        length_dropWhile_le _ _
      have h4 : (afterChunk s).length ≤ s.length := length_dropWhile_le _ s
      rw [hquoted, List.length_cons] at h3
      simp only
      omega
    · simp at h
  · simp at h

/-- Passes over the library clauses after a name. -/
def skipLibraryClauses (s : Text) : Text :=
  match _h : afterLibraryClause? (trimStart s) with
  | some rest => skipLibraryClauses rest
  | none => s
termination_by s.length
decreasing_by
  have h1 := length_afterLibraryClause?_lt _h
  have h2 : (trimStart s).length ≤ s.length := length_dropWhile_le _ s
  omega

/-- The parenthesised groups after a name. -/
structure Groups where
  typeParams : Option Text
  params : Option Text
  /-- The line from the beginning of the parameters on. -/
  paramsTail : Text
  /-- The line after the groups. -/
  rest : Text

/-- Reads up to `n` groups. The first one holds type parameters if it begins with `Of`; a later one,
or one of another form, holds parameters. An unclosed group takes the rest of the line. -/
def readGroups : Nat → Groups → Groups
  | 0, g => g
  | n + 1, g =>
    match trimStart g.rest with
    | '(' :: inside =>
      match takeGroup? ('(' :: inside) with
      | some (inner, after) =>
        if g.typeParams.isNone && g.params.isNone && isGenericGroup inner then
          readGroups n { g with typeParams := some (trim inner), rest := after }
        else
          readGroups n { g with params := some (trim inner), paramsTail := inside, rest := after }
      | none =>
        { g with
          params := some (trim (dropUnderscores (trimEnd inside)))
          paramsTail := inside
          rest := [] }
    | _ => g

/-- The type after `As`, up to a clause that may follow it. -/
def returnType? (tail : Text) : Option Text :=
  match stripKeyword? "as " (trim tail) with
  | some after =>
    let shown := cutBefore ["implements", "handles"] (trimStart after)
    let shown := trim (dropUnderscores (trimEnd shown))
    if shown.isEmpty then none else some shown
  | none => none

/-- Reads the header on a line of code. -/
def parse? (code : Text) : Option Header :=
  let indent := indentOf code
  let text := trim code
  let (modifiers, declared) := takeModifiers modifierWords text
  if isOneOf blockWords (leadingChunk declared) then
    match Block.ofWord? (leadingChunk declared), dottedName? (trimStart (afterChunk declared)) with
    | some block, some name =>
      let named := trimStart (afterChunk declared)
      let rest := named.drop name.length
      let groups := readGroups 2 ⟨none, none, rest, skipLibraryClauses rest⟩
      some
        { block
          modifiers
          name
          nameOffset := indent + offsetOf text named
          typeParams := groups.typeParams
          params := groups.params
          paramsOffset := indent + offsetOf text groups.paramsTail
          returnType := returnType? groups.rest
          continued := isContinued text }
    | _, _ => none
  else none

def hasModifier (h : Header) (modifier : String) : Bool :=
  h.modifiers.any fun m ↦ eqAscii m modifier.toList

/-- Members that are declared without a body. -/
def isBodyless (h : Header) : Bool :=
  h.hasModifier "MustOverride" || h.hasModifier "Declare" || h.hasModifier "Delegate"

/-- The signature in short, as an outline shows it. -/
def detail (h : Header) : Text :=
  let generic : Text := match h.typeParams with
    | some p => '(' :: p ++ [')']
    | none => []
  let signature : Text := match h.block with
    | .sub | .function | .property =>
      '(' :: h.params.getD [] ++ ')' :: (match h.returnType with
        | some t => " As ".toList ++ t
        | none => [])
    | _ => []
  h.block.keyword.toList ++ generic ++ signature

end Header

end VbOutline
