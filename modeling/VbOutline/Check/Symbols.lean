import VbOutline.Diagnostic
import VbOutline.Scope

/-!
# Checks of the outline

Local variables that are not used, members of interfaces that are not implemented, and definitions
that another document has as well.
-/

namespace VbOutline.Check

open Text Line

/-- The lines of a method. -/
def linesOf (lines : Array SourceLine) (method : Entry) : Array SourceLine :=
  lines.extract method.range.start.line (method.range.stop.line + 1)

/-- Whether the name of a local variable occurs in the lines of its method, its own line apart. -/
def isUsed (body : Array SourceLine) (declared : Entry) : Bool :=
  body.any fun line ↦
    line.index != declared.range.start.line && containsWord line.code declared.name

def unusedVariables (lines : List SourceLine) (forest : List Symbol) : List Diagnostic :=
  let lines := lines.toArray
  ((Symbol.flatten forest).filter (·.kind.isMethodLike)).flatMap fun method ↦
    let body := linesOf lines method.toEntry
    (method.children.filter fun v ↦ v.isLocalVariable && !isUsed body v.toEntry).map fun v ↦
      ⟨v.selection, .unusedVariable v.name⟩

/-- The first interface of that name, in the document itself or in the others, given the top-level
definitions of each. -/
def findInterface? (definitions : List (List Symbol)) (name : Text) : Option Symbol :=
  definitions.findSome? fun symbols ↦
    symbols.find? fun s ↦ s.kind == .interfaceType && s.isNamed name

def hasMember (members : List Symbol) (required : Symbol) : Bool :=
  members.any fun m ↦ m.kind == required.kind && m.isNamed required.name

/-- The members of the marked interface that the type lacks. -/
def missingAt (definitions : List (List Symbol)) (owner mark : Symbol) : List Diagnostic :=
  match findInterface? definitions (unqualified (baseTypeName mark.name)) with
  | some interface =>
    let members := owner.members
    (interface.members.filter fun m ↦ m.kind.isMethodLike && !hasMember members m).map
      fun m ↦ ⟨mark.selection, .missingMember owner.name m.name interface.name⟩
  | none => []

def missingMembers (forest : List Symbol) (others : List DocumentOutline) : List Diagnostic :=
  let definitions := (forest :: others.map (·.symbols)).map Scope.topLevelSymbols
  ((Symbol.flatten forest).filter fun s ↦ s.kind == .classType || s.kind == .structType).flatMap
    fun owner ↦ (owner.children.filter (·.isImplements)).flatMap (missingAt definitions owner)

/-- The first other document with a top-level definition of the same kind and name, given the
top-level definitions of each. -/
def duplicateOf? (others : List (String × List Symbol)) (s : Symbol) : Option String :=
  (others.find? fun o ↦ o.2.any fun t ↦ t.kind == s.kind && t.isNamed s.name).map (·.1)

def duplicates (forest : List Symbol) (others : List DocumentOutline) : List Diagnostic :=
  let others := others.map fun o ↦ (o.uri, Scope.topLevelSymbols o.symbols)
  (Scope.topLevelSymbols forest).filterMap fun s ↦
    (duplicateOf? others s).map fun uri ↦
      ⟨s.selection, .duplicateDeclaration s.kind s.name uri⟩

end VbOutline.Check
