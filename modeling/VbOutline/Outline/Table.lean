import VbOutline.Outline

/-!
# The symbol table

The symbols of an outline can also be kept in a table while the lines are read. A symbol gets the
next row, and the number of the row is listed in the row of the innermost open block, in the row of
the header if the symbol is an argument, or among the roots. No symbol is moved before the last line
has been read. Then the forest is assembled from the rows, the last one first: the symbols that a row
lists are taken out of their slots, and what has been put together goes into the slot of the row.
-/

namespace VbOutline

open Text

/-- What a pass over the lines does with the symbols and blocks it meets, whatever it keeps them
in. -/
structure Pass (σ : Type) where
  /-- The innermost open block that is not a region. -/
  enclosing : σ → Option Block
  add : σ → Symbol → σ
  push : σ → Block → Symbol → σ
  /-- Closes the innermost block if it is of the given kind. -/
  close : σ → Block → Position → σ

namespace Pass

variable {σ : Type}

def declare (p : Pass σ) (x : σ) (line : SourceLine) (h : Header) : σ :=
  match h.block.symbolKind? with
  | some kind =>
    let symbol : Symbol :=
      ⟨Outline.entry line h.name h.nameOffset kind h.detail, Outline.arguments line h⟩
    if h.opensBlock (p.enclosing x == some .interfaceType) line.next then p.push x h.block symbol
    else p.add x symbol
  | none => x

/-- One more line. -/
def step (p : Pass σ) (x : σ) (line : SourceLine) : σ :=
  match line.statement with
  | none => x
  | some (.blockEnd e) => p.close x e.block line.stop
  | some (.header h) => p.declare x line h
  | some (.region y) =>
    p.push x .region (Outline.leaf line y.name y.offset .container Block.region.keyword.toList)
  | some (.imports y _) => p.add x (Outline.leaf line y.name y.offset .package "Imports".toList)
  | some (.implements names) => (Outline.implemented line names).foldl p.add x
  | some (.declaration d) => (Outline.declared line (p.enclosing x) d).foldl p.add x
  | some _ => (Outline.enumMember line (p.enclosing x)).foldl p.add x

end Pass

/-- A row of the table. -/
structure SymbolRow where
  entry : Entry
  /-- The numbers of the rows inside this one. -/
  children : List Nat
  deriving DecidableEq, Repr

structure SymbolTable where
  /-- The first row has number 0. -/
  rows : List SymbolRow
  /-- The numbers of the rows outside all blocks. -/
  roots : List Nat
  /-- The open blocks with the numbers of their rows, the innermost one first. -/
  frames : List (Block × Nat)
  deriving DecidableEq, Repr

namespace SymbolTable

def start : SymbolTable := ⟨[], [], []⟩

def enclosing (t : SymbolTable) : Option Block :=
  (t.frames.find? fun f ↦ f.1 != .region).map (·.1)

/-- Moves the end of the range in row `n`. -/
def endAt (stop : Position) (rows : List SymbolRow) (n : Nat) : List SymbolRow :=
  rows.modify n fun row ↦ { row with entry := row.entry.endingAt stop }

/-- Lists the row `child` in row `n`. -/
def attach (child : Nat) (rows : List SymbolRow) (n : Nat) : List SymbolRow :=
  rows.modify n fun row ↦ { row with children := row.children ++ [child] }

/-- A new row inside row `n`. -/
def enterIn (n : Nat) (t : SymbolTable) (entry : Entry) : SymbolTable :=
  { t with rows := attach t.rows.length (t.rows ++ [⟨entry, []⟩]) n }

/-- A new row inside the innermost open block. -/
def enter (t : SymbolTable) (entry : Entry) : SymbolTable :=
  match t.frames with
  | [] => { t with rows := t.rows ++ [⟨entry, []⟩], roots := t.roots ++ [t.rows.length] }
  | frame :: _ => t.enterIn frame.2 entry

/-- A new row for a symbol, and inside it one for each of its arguments. -/
def add (t : SymbolTable) (s : Symbol) : SymbolTable :=
  let n := t.rows.length
  s.children.foldl (fun entered a ↦ entered.enterIn n a.toEntry) (t.enter s.toEntry)

/-- Opens a block with a new row. Until the block is closed its range ends at `last`. -/
def push (last : Position) (t : SymbolTable) (block : Block) (s : Symbol) : SymbolTable :=
  let entered := t.add s
  { entered with
    rows := endAt last entered.rows t.rows.length
    frames := (block, t.rows.length) :: entered.frames }

def close (t : SymbolTable) (block : Block) (stop : Position) : SymbolTable :=
  match t.frames with
  | [] => t
  | frame :: rest =>
    if frame.1 == block then { t with rows := endAt stop t.rows frame.2, frames := rest } else t

/-- The pass over lines of which the last one ends at `last`. -/
def pass (last : Position) : Pass SymbolTable := ⟨enclosing, add, push last, close⟩

/-- Ends all blocks that are still open. -/
def finish (t : SymbolTable) (stop : Position) : SymbolTable :=
  { t with rows := t.frames.foldl (fun rows frame ↦ endAt stop rows frame.2) t.rows, frames := [] }

def ofLines (lines : List SourceLine) : SymbolTable :=
  (lines.foldl (pass (Outline.endOf lines)).step start).finish (Outline.endOf lines)

def ofText (text : Text) : SymbolTable := ofLines (SourceLine.readAll (lines text))

/-- Takes the symbols with the given numbers out of their slots. A slot that is empty gives none. -/
def take : List Nat → List (Option Symbol) → List Symbol × List (Option Symbol)
  | [], slots => ([], slots)
  | n :: rest, slots =>
    let (more, left) := take rest (slots.set n none)
    (slots[n]?.join.toList ++ more, left)

/-- Puts row `n` together and the symbol into its slot. -/
def build (row : SymbolRow) (n : Nat) (slots : List (Option Symbol)) : List (Option Symbol) :=
  let (children, left) := take row.children slots
  left.set n (some ⟨row.entry, children⟩)

/-- The slots after all rows have been put together, the last one first. -/
def built (t : SymbolTable) : List (Option Symbol) :=
  t.rows.zipIdx.foldr (fun (row, n) slots ↦ build row n slots) (List.replicate t.rows.length none)

/-- The forest of the table. -/
def assemble (t : SymbolTable) : List Symbol := (take t.roots t.built).1

end SymbolTable

end VbOutline
