import VbOutline.Source.SourceLine
import VbOutline.Statement.Argument
import VbOutline.Symbol.Basic
import VbOutline.Text.Lines

/-!
# Outlines

The outline of a document is the forest of its symbols, built in one pass over the source lines with
a stack of open blocks. A symbol goes into the innermost open block; a block that is closed goes
into the block around it. A closing statement that does not fit the innermost block is ignored, and
blocks that are still open at the end of the document end with its last line. Control blocks and
accessors are not on the stack.

The pass may also write the symbols into a table and leave it to a second pass to put the forest
together from there, as `SymbolTable` does. Here blocks become trees as they are closed.
-/

namespace VbOutline

open Text Line

/-- A block that has not been closed yet. -/
structure OpenBlock where
  block : Block
  /-- The symbol that opened the block, with its arguments inside it. -/
  symbol : Symbol
  /-- The symbols inside the block, the latest one first. -/
  inner : List Symbol
  deriving Repr

namespace OpenBlock

/-- The symbol of the block when it ends at `stop`. -/
def close (b : OpenBlock) (stop : Position) : Symbol :=
  { b.symbol with
    range := ⟨b.symbol.range.start, stop⟩
    children := b.symbol.children ++ b.inner.reverse }

end OpenBlock

/-- The state of the pass. -/
structure Outline where
  /-- The open blocks, the innermost one first. -/
  stack : List OpenBlock
  /-- The symbols outside all open blocks, the latest one first. -/
  roots : List Symbol
  deriving Repr

namespace Outline

def start : Outline := ⟨[], []⟩

/-- The innermost open block that is not a region. -/
def enclosing (o : Outline) : Option Block :=
  (o.stack.find? fun b ↦ b.block != .region).map (·.block)

def add (o : Outline) (s : Symbol) : Outline :=
  match o.stack with
  | [] => { o with roots := s :: o.roots }
  | b :: rest => { o with stack := { b with inner := s :: b.inner } :: rest }

def push (o : Outline) (block : Block) (s : Symbol) : Outline :=
  { o with stack := ⟨block, s, []⟩ :: o.stack }

/-- Closes the innermost block if it is of the given kind. -/
def close (o : Outline) (block : Block) (stop : Position) : Outline :=
  match o.stack with
  | [] => o
  | b :: rest => if b.block == block then add { o with stack := rest } (b.close stop) else o

/-- The entry of a name on a line. -/
def entry (line : SourceLine) (name : Text) (offset : Nat) (kind : SymbolKind) (detail : Text) :
    Entry :=
  let first := columnOf line.raw offset
  { name
    kind
    detail
    range := line.whole
    selection := .onLine line.index first (first + name.length) }

def leaf (line : SourceLine) (name : Text) (offset : Nat) (kind : SymbolKind) (detail : Text) :
    Symbol :=
  ⟨entry line name offset kind detail, []⟩

/-- The symbols of the arguments of a header. -/
def arguments (line : SourceLine) (h : Header) : List Symbol :=
  match h.params with
  | some params =>
    (Argument.parse params h.paramsOffset).map fun a ↦
      leaf line a.name a.offset .variableKind (Entry.argumentMark ++ a.signature)
  | none => []

def declare (o : Outline) (line : SourceLine) (h : Header) : Outline :=
  match h.block.symbolKind? with
  | some kind =>
    let symbol : Symbol := ⟨entry line h.name h.nameOffset kind h.detail, arguments line h⟩
    if h.opensBlock (o.enclosing == some .interfaceType) line.next then o.push h.block symbol
    else o.add symbol
  | none => o

/-- The kind of a declared name that is not a constant. -/
def variableKind : Option Block → SymbolKind
  | some .classType | some .moduleType | some .structType | some .interfaceType => .field
  | _ => .variableKind

/-- The symbols of a declaration inside the given block. -/
def declared (line : SourceLine) (enclosing : Option Block) (d : Declaration) : List Symbol :=
  let kind := if d.isConst then .constant else variableKind enclosing
  d.declarators.map fun x ↦
    leaf line x.name x.offset kind (x.effectiveType.getD "Object".toList)

def implemented (line : SourceLine) (names : List PlacedName) : List Symbol :=
  names.map fun p ↦
    leaf line (baseTypeName p.name) p.offset .interfaceType (Entry.implementsMark ++ p.name)

/-- The member that a line is inside an enumeration. -/
def enumMember (line : SourceLine) (enclosing : Option Block) : List Symbol :=
  if enclosing == some .enumType then
    match Statement.enumMember? line.code with
    | some p => [leaf line p.name p.offset .enumMember (trim line.code)]
    | none => []
  else []

/-- The outline after one more line. -/
def step (o : Outline) (line : SourceLine) : Outline :=
  match line.statement with
  | none => o
  | some (.blockEnd e) => o.close e.block line.stop
  | some (.header h) => o.declare line h
  | some (.region p) =>
    o.push .region (leaf line p.name p.offset .container Block.region.keyword.toList)
  | some (.imports p _) => o.add (leaf line p.name p.offset .package "Imports".toList)
  | some (.implements names) => (implemented line names).foldl add o
  | some (.declaration d) => (declared line o.enclosing d).foldl add o
  | some _ => (enumMember line o.enclosing).foldl add o

/-- Closes all open blocks at `stop`. -/
def closeAll (stop : Position) : List OpenBlock → List Symbol → List Symbol
  | [], roots => roots.reverse
  | [b], roots => (b.close stop :: roots).reverse
  | b :: outer :: rest, roots =>
    closeAll stop ({ outer with inner := b.close stop :: outer.inner } :: rest) roots
termination_by stack _ => stack.length

/-- The end of the last line. -/
def endOf (lines : List SourceLine) : Position :=
  (lines.getLast?.map SourceLine.stop).getD ⟨0, 0⟩

def finish (o : Outline) (lines : List SourceLine) : List Symbol :=
  closeAll (endOf lines) o.stack o.roots

/-- The outline of a document given by its lines. -/
def ofLines (lines : List SourceLine) : List Symbol :=
  (lines.foldl step start).finish lines

/-- The outline of a document. -/
def ofText (text : Text) : List Symbol := ofLines (SourceLine.readAll (lines text))

end Outline

end VbOutline
