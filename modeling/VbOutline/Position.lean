/-!
# Positions and ranges

A position counts lines and characters from zero. Ranges include both of their ends, so that a
cursor right after a name is still on it.

Lines and characters are kept in 32 bits each. The position of an offset is computed in that width,
where a count starts again at zero; in all other places a position is the number of lines and
characters itself. What is said there of positions and ranges is about texts with fewer than `2 ^ 32`
lines and fewer than `2 ^ 32` characters on each of them.
-/

namespace VbOutline

structure Position where
  line : Nat
  character : Nat
  deriving DecidableEq, Repr, Inhabited

namespace Position

/-- Order by line, then by character. -/
def le (a b : Position) : Bool :=
  a.line < b.line || (a.line == b.line && a.character ≤ b.character)

/-- What 32 bits keep of the line and of the character. -/
def wrapped (p : Position) : Position := ⟨p.line % UInt32.size, p.character % UInt32.size⟩

/-- The position that a user counts from one; zero is read as one. -/
def ofDisplay (line column : Nat) : Position := ⟨line - 1, column - 1⟩

/-- Line and column counted from one. -/
def toDisplay (p : Position) : Nat × Nat := (p.line + 1, p.character + 1)

end Position

structure Range where
  start : Position
  stop : Position
  deriving DecidableEq, Repr, Inhabited

namespace Range

def onLine (line first last : Nat) : Range := ⟨⟨line, first⟩, ⟨line, last⟩⟩

def contains (r : Range) (p : Position) : Bool := r.start.le p && p.le r.stop

def containsRange (r inner : Range) : Bool := r.start.le inner.start && inner.stop.le r.stop

end Range

end VbOutline
