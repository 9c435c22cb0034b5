import VbOutline.Outline
import VbOutline.Source.Document
import VbOutline.Symbol.Node

/-!
# Scopes and look-up

Names are looked up from the innermost scope at a position outwards, then among the roots, then
among the top-level definitions of the document, then among those of the other documents in their
order. Comparison of names ignores ASCII case.
-/

namespace VbOutline

open Text

/-- The outline of a document, by the document's URI. -/
structure DocumentOutline where
  uri : String
  symbols : List Symbol
  deriving Repr

def DocumentOutline.ofDocument (d : Document) : DocumentOutline := ⟨d.uri, Outline.ofText d.text⟩

/-- The outlines of all documents but the one with the given URI. -/
def DocumentOutline.others (outlines : List DocumentOutline) (uri : String) :
    List DocumentOutline :=
  outlines.filter fun o ↦ o.uri != uri

namespace Scope

/-- A node and the document it belongs to. -/
structure Found where
  uri : String
  node : Node
  deriving Repr

mutual

/-- The node at `place` or below it whose name is at the position. Only symbols whose lines contain
the position are searched. -/
def nameAt (p : Position) (place : Place) : Symbol → Option Node
  | ⟨entry, children⟩ =>
    if entry.selection.contains p then some ⟨place, ⟨entry, children⟩⟩
    else if entry.range.contains p then nameIn p place 0 children
    else none

def nameIn (p : Position) (place : Place) (i : Nat) : List Symbol → Option Node
  | [] => none
  | s :: rest => (nameAt p (place ++ [i]) s).or (nameIn p place (i + 1) rest)

end

/-- The node whose name is at the position, depth first. -/
def definitionAt? (forest : List Symbol) (p : Position) : Option Node := nameIn p [] 0 forest

mutual

/-- The scopes around the position inside a symbol. -/
def scopesInside (p : Position) (place : Place) : Symbol → List Node
  | ⟨_, children⟩ => scopesIn p place 0 children

/-- The scopes around the position, the outermost one first; of the symbols on one level the first
one that fits is entered. -/
def scopesIn (p : Position) (place : Place) (i : Nat) : List Symbol → List Node
  | [] => []
  | s :: rest =>
    if s.opensScope && s.range.contains p then
      ⟨place ++ [i], s⟩ :: scopesInside p (place ++ [i]) s
    else scopesIn p place (i + 1) rest

end

/-- The scopes around the position, the innermost one first. -/
def chain (forest : List Symbol) (p : Position) : List Node := (scopesIn p [] 0 forest).reverse

def named (name : Text) (n : Node) : Bool := n.symbol.isNamed name

/-- The first symbol of that name in a scope around the position or among the roots. -/
def lookup? (forest : List Symbol) (name : Text) (p : Position) : Option Node :=
  ((chain forest p).findSome? fun scope ↦ scope.children.find? (named name)).or
    ((Node.roots forest).find? (named name))

mutual

/-- The definition at `place`, or those inside it if it is a container. -/
def definitionsAt (place : Place) : Symbol → List Node
  | ⟨entry, children⟩ =>
    if entry.kind.isContainer then definitionsIn place 0 children
    else if entry.isDefinition then [⟨place, ⟨entry, children⟩⟩]
    else []

def definitionsIn (place : Place) (i : Nat) : List Symbol → List Node
  | [] => []
  | s :: rest => definitionsAt (place ++ [i]) s ++ definitionsIn place (i + 1) rest

end

/-- The definitions at the top of a forest, inside containers too. -/
def topLevel (forest : List Symbol) : List Node := definitionsIn [] 0 forest

def topLevelSymbols (forest : List Symbol) : List Symbol := (topLevel forest).map (·.symbol)

/-- The first top-level definition of that name. -/
def lookupGlobal? (forest : List Symbol) (name : Text) : Option Node :=
  (topLevel forest).find? (named name)

/-- The first top-level definition of that name in the other documents. -/
def lookupAcross? (others : List DocumentOutline) (name : Text) : Option Found :=
  others.findSome? fun o ↦ (lookupGlobal? o.symbols name).map (⟨o.uri, ·⟩)

/-- What the identifier at the position stands for. The mark of an implemented interface stands for
the interface, never for itself. -/
def resolveAt? (d : Document) (forest : List Symbol) (others : List DocumentOutline)
    (p : Position) : Option Found :=
  match (definitionAt? forest p).filter fun n ↦ !n.symbol.isImplements with
  | some node => some ⟨d.uri, node⟩
  | none =>
    match d.wordAt p with
    | none => none
    | some (word, _) =>
      let inScope := (lookup? forest word p).filter fun n ↦ !n.symbol.isImplements
      match inScope.or (lookupGlobal? forest word) with
      | some node => some ⟨d.uri, node⟩
      | none => lookupAcross? others word

/-- Whether a symbol is a class or structure that is marked as implementing the interface. -/
def implementsInterface (interface : Text) (s : Symbol) : Bool :=
  (s.kind == .classType || s.kind == .structType) &&
    s.children.any fun c ↦ c.isImplements && eqAscii (unqualified c.name) interface

/-- The types that are marked as implementing an interface, with their documents. -/
def implementations (outlines : List DocumentOutline) (interface : Text) :
    List (String × Symbol) :=
  let name := unqualified (baseTypeName interface)
  outlines.flatMap fun o ↦
    ((Symbol.flatten o.symbols).filter (implementsInterface name)).map (o.uri, ·)

/-- What implements the symbol at the position: the implementing types of an interface, or for a
direct member of an interface the symbols of its kind and name anywhere inside those types. -/
def implementationsAt (d : Document) (forest : List Symbol) (others : List DocumentOutline)
    (p : Position) : List (String × Entry) :=
  let outlines := ⟨d.uri, forest⟩ :: others
  match resolveAt? d forest others p with
  | none => []
  | some target =>
    let symbol := target.node.symbol
    if symbol.kind == .interfaceType then
      (implementations outlines symbol.name).map fun (uri, s) ↦ (uri, s.toEntry)
    else
      let owner := (outlines.find? fun o ↦ o.uri == target.uri).bind fun o ↦
        Node.parentOf? o.symbols (some target.node.place)
      match owner with
      | some interface =>
        if interface.kind == .interfaceType then
          (implementations outlines interface.name).flatMap fun (uri, s) ↦
            ((Symbol.flatten s.children).filter fun m ↦
              m.kind == symbol.kind && m.isNamed symbol.name).map fun m ↦ (uri, m.toEntry)
        else []
      | none => []

end Scope

end VbOutline
