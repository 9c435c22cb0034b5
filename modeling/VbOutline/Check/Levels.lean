import VbOutline.Check.Blocks

/-!
# Marks of the levels

Which levels of open blocks cannot be reached, written down in one row of marks. The mark of a
level stands in the row at the number of blocks around the level, so the mark of the innermost level
is found by the number of open blocks. The row grows where a mark is set behind its end, and what is
left of it when a block is closed is cut off.
-/

namespace VbOutline.Check

open Text Line

structure Levels where
  /-- The kinds of the open blocks, the innermost one first. -/
  blocks : List Block
  /-- Whether the rest of a level cannot be reached, the level outside all blocks first. -/
  marks : List Bool
  deriving Repr, DecidableEq

namespace Levels

def start : Levels := ⟨[], [false]⟩

/-- The number of open blocks. -/
def depth (l : Levels) : Nat := l.blocks.length

/-- The innermost open block that is not a region. -/
def enclosing (l : Levels) : Option Block := l.blocks.find? (· != .region)

/-- Whether the current level cannot be reached. -/
def atDeadEnd (l : Levels) : Bool := l.marks.getD l.depth false

/-- Sets the mark of a level. Levels that have no mark yet are reachable. -/
def mark (l : Levels) (depth : Nat) (dead : Bool) : Levels :=
  { l with marks := (l.marks.rightpad (depth + 1) false).set depth dead }

/-- Neither the current level nor the one inside the new block is marked. -/
def push (l : Levels) (block : Block) : Levels :=
  { l.mark l.depth false with blocks := block :: l.blocks }.mark (l.depth + 1) false

def close (l : Levels) (e : BlockEnd) : Levels :=
  match l.blocks with
  | [] => l
  | block :: rest =>
    if block == e.block then mark ⟨rest, l.marks.take (rest.length + 1)⟩ rest.length false else l

def branch (l : Levels) : Levels :=
  match l.blocks with
  | [] => l
  | block :: _ => if block.isControl then l.mark l.depth false else l

/-- A statement that opens no block; `leaves` tells whether it leaves its block. -/
def simple (l : Levels) (line : SourceLine) (leaves : Bool) : Levels × List Diagnostic :=
  (if leaves then l.mark l.depth true else l,
    if l.atDeadEnd then [⟨line.codeSpan, .unreachableCode⟩] else [])

/-- The levels after one more line, and what is reported as unreachable at it. -/
def step (l : Levels) (line : SourceLine) : Levels × List Diagnostic :=
  match line.statement with
  | none | some .blank => (l, [])
  | some (.blockEnd e) => (l.close e, [])
  | some (.header h) =>
    (if h.opensBlock (l.enclosing == some .interfaceType) line.next then l.push h.block else l, [])
  | some (.region _) => (l.push .region, [])
  | some (.control c) => if c.singleLine then l.simple line false else (l.push c.block, [])
  | some (.branch _) => (l.branch, [])
  | some .plain => l.simple line (isTerminator (trim line.code))
  | some (.imports _ _) | some (.implements _) | some (.declaration _) => l.simple line false

end Levels

end VbOutline.Check
