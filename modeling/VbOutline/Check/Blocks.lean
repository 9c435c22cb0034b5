import VbOutline.Check.Line

/-!
# Checks of the blocks

The open blocks are kept on a stack, control blocks and accessors among them. A closing statement
that does not fit the innermost block is reported and otherwise ignored. A control block consists
of segments: the part before its first branch, and one part for each branch. A segment without
content is reported when it ends. After a statement that leaves its block the statements that follow
on the same level are reported as unreachable.
-/

namespace VbOutline.Check

open Text Line

/-- A part of a block, from its start or from a branch on. -/
structure Segment where
  label : String
  isBranch : Bool
  line : SourceLine
  hasContent : Bool
  /-- Whether the segment may be empty, as the one before the first case of a selection. -/
  isExempt : Bool
  deriving Repr

structure Frame where
  block : Block
  /-- Whether the block or one around it has executable code as its body. -/
  inMethod : Bool
  line : SourceLine
  segment : Segment
  /-- Whether the rest of the current segment cannot be reached. -/
  isDead : Bool
  deriving Repr

structure Tracker where
  /-- The open blocks, the innermost one first. -/
  stack : List Frame
  /-- Whether the rest of the document outside all blocks cannot be reached. -/
  isDead : Bool
  deriving Repr

namespace Tracker

def start : Tracker := ⟨[], false⟩

/-- The innermost open block that is not a region. -/
def enclosing (t : Tracker) : Option Block :=
  (t.stack.find? fun f ↦ f.block != .region).map (·.block)

def inMethod (t : Tracker) : Bool := t.stack.head?.any (·.inMethod)

def surroundings (t : Tracker) : Surroundings where
  inEnum := t.enclosing == some .enumType
  inMethod := t.inMethod

/-- Whether the current level cannot be reached. -/
def atDeadEnd (t : Tracker) : Bool :=
  match t.stack with
  | [] => t.isDead
  | frame :: _ => frame.isDead

/-- Marks the current level as reachable or not. -/
def setDead (t : Tracker) (dead : Bool) : Tracker :=
  match t.stack with
  | [] => { t with isDead := dead }
  | frame :: rest => { t with stack := { frame with isDead := dead } :: rest }

def markContent (t : Tracker) : Tracker :=
  match t.stack with
  | [] => t
  | frame :: rest =>
    { t with stack := { frame with segment := { frame.segment with hasContent := true } } :: rest }

def push (t : Tracker) (block : Block) (line : SourceLine) : Tracker :=
  let t := t.setDead false
  let segment : Segment := ⟨block.keyword, false, line, false, block == .selectCase⟩
  { t with stack := ⟨block, block.isMethodLike || t.inMethod, line, segment, false⟩ :: t.stack }

def emptySegment (frame : Frame) : List Diagnostic :=
  let segment := frame.segment
  if frame.block.isControl && !segment.hasContent && !segment.isExempt then
    [⟨segment.line.codeSpan, .emptyBlock segment.label segment.isBranch⟩]
  else []

def close (t : Tracker) (line : SourceLine) (e : BlockEnd) : Tracker × List Diagnostic :=
  match t.stack with
  | [] => (t, [⟨line.codeSpan, .unexpectedClosing e.statement⟩])
  | frame :: rest =>
    if frame.block == e.block then (setDead { t with stack := rest } false, emptySegment frame)
    else
      (t, [⟨line.codeSpan, .mismatchedBlock frame.block (frame.line.index + 1) e.statement⟩])

def branch (t : Tracker) (line : SourceLine) (b : Branch) : Tracker × List Diagnostic :=
  match t.stack with
  | [] => (t, [])
  | frame :: rest =>
    if frame.block.isControl then
      let next : Frame :=
        { frame with segment := ⟨b.keyword, true, line, false, false⟩, isDead := false }
      ({ t with stack := next :: rest }, emptySegment frame)
    else (t, [])

/-- A statement that opens no block; `leaves` tells whether it leaves its block. -/
def simple (t : Tracker) (line : SourceLine) (leaves : Bool) : Tracker × List Diagnostic :=
  let t := t.markContent
  (if leaves then t.setDead true else t,
    if t.atDeadEnd then [⟨line.codeSpan, .unreachableCode⟩] else [])

/-- The tracker after one more line, and what is reported at it. -/
def step (t : Tracker) (line : SourceLine) : Tracker × List Diagnostic :=
  match line.statement with
  | none | some .blank => (t, [])
  | some (.blockEnd e) => t.close line e
  | some (.header h) =>
    let t := t.markContent
    (if h.opensBlock (t.enclosing == some .interfaceType) line.next then t.push h.block line else t,
      [])
  | some (.region _) => (t.push .region line, [])
  | some (.control c) =>
    if c.singleLine then t.simple line false else (t.markContent.push c.block line, [])
  | some (.branch b) => t.branch line b
  | some .plain => t.simple line (isTerminator (trim line.code))
  | some (.imports _ _) | some (.implements _) | some (.declaration _) => t.simple line false

/-- Reports the blocks that are still open, the outermost one first. -/
def finish (t : Tracker) : List Diagnostic :=
  t.stack.reverse.map fun frame ↦
    ⟨frame.line.codeSpan, .missingClosing frame.block (frame.line.index + 1)⟩

end Tracker

end VbOutline.Check
