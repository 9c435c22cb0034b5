import VbOutline.Text.LetterCase

/-!
# Kinds of symbols

Regions and namespaces have the same kind: they group declarations without being one, and look-ups
see through them.
-/

namespace VbOutline

inductive SymbolKind where
  | method
  | function
  | classType
  | moduleType
  | property
  | interfaceType
  | enumType
  | structType
  | variableKind
  | constant
  | field
  | package
  | container
  | enumMember
  deriving DecidableEq, Repr

namespace SymbolKind

def all : List SymbolKind :=
  [method, function, classType, moduleType, property, interfaceType, enumType, structType,
    variableKind, constant, field, package, container, enumMember]

def name : SymbolKind → String
  | method => "method"
  | function => "function"
  | classType => "class"
  | moduleType => "module"
  | property => "property"
  | interfaceType => "interface"
  | enumType => "enum"
  | structType => "structure"
  | variableKind => "variable"
  | constant => "constant"
  | field => "field"
  | package => "package"
  | container => "namespace"
  | enumMember => "enum_member"

/-- Second names under which a kind may be asked for. -/
def synonyms : List (String × SymbolKind) :=
  [("sub", method), ("struct", structType), ("const", constant), ("imports", package),
    ("region", container), ("enummember", enumMember)]

/-- Reads the name of a kind in any case. -/
def ofName? (s : Text) : Option SymbolKind :=
  let word := Text.lower s
  (all.find? fun k ↦ k.name.toList == word).or
    ((synonyms.find? fun p ↦ p.1.toList == word).map (·.2))

def unknownMessage (s : Text) : String :=
  "Unknown symbol kind: '" ++ String.ofList s ++ "'. Valid: " ++ ", ".intercalate (all.map name)

/-- The number of the kind in the Language Server Protocol. -/
def protocolNumber : SymbolKind → Nat
  | moduleType => 2
  | container => 3
  | package => 4
  | classType => 5
  | method => 6
  | property => 7
  | field => 8
  | enumType => 10
  | interfaceType => 11
  | function => 12
  | variableKind => 13
  | constant => 14
  | enumMember => 22
  | structType => 23

/-- Kinds that other files can refer to. -/
def isDefinition : SymbolKind → Bool
  | classType | moduleType | interfaceType | enumType | structType | method | function => true
  | _ => false

/-- Kinds that have local variables. -/
def isMethodLike : SymbolKind → Bool
  | method | function | property => true
  | _ => false

def isType : SymbolKind → Bool
  | classType | moduleType | structType | interfaceType | enumType => true
  | _ => false

def isContainer : SymbolKind → Bool
  | container => true
  | _ => false

end SymbolKind

end VbOutline
