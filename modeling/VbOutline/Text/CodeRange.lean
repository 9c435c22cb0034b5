/-!
# Tables of code points

A character class beyond ASCII is a table of code-point ranges in ascending order, which is searched
as a tree; a class that takes every second code point, as upper case does in several scripts, is a
table of runs with a step.
-/

namespace VbOutline.Text

structure CodeRange where
  first : Nat
  last : Nat

def CodeRange.holds (r : CodeRange) (n : Nat) : Bool :=
  r.first ≤ n && n ≤ r.last

/-- A set of code points as a search tree of ranges. -/
inductive CodeSet where
  | empty
  | node (below : CodeSet) (range : CodeRange) (above : CodeSet)

namespace CodeSet

def contains : CodeSet → Nat → Bool
  | empty, _ => false
  | node below range above, n =>
    if n < range.first then below.contains n
    else n ≤ range.last || above.contains n

/-- A tree of at most the given depth with the first ranges of a table, and the other ranges. -/
def fill : Nat → List CodeRange → CodeSet × List CodeRange
  | 0, ranges => (empty, ranges)
  | depth + 1, ranges =>
    match fill depth ranges with
    | (below, []) => (below, [])
    | (below, range :: rest) =>
      let (above, rest) := fill depth rest
      (node below range above, rest)

/-- The set of the code points in a table whose ranges ascend. -/
def ofRanges (ranges : List CodeRange) : CodeSet :=
  (fill (ranges.length.log2 + 1) ranges).1

end CodeSet

/-- The code points `first`, `first + step`, … up to `last`. -/
structure CodeRun where
  first : Nat
  last : Nat
  step : Nat

def CodeRun.holds (r : CodeRun) (n : Nat) : Bool :=
  r.first ≤ n && n ≤ r.last && (n - r.first) % r.step == 0

def inRuns (runs : List CodeRun) (c : Char) : Bool :=
  runs.any fun r ↦ r.holds c.toNat

/-- A run of code points that all lie at the same distance from their lower-case form. -/
structure CaseShift where
  run : CodeRun
  shift : Int

end VbOutline.Text
