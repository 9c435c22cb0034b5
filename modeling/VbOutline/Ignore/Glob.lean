import VbOutline.Text.Utf8

/-!
# Patterns for paths

In a pattern a star stands for any run of bytes other than slashes, a question mark for one such
byte, brackets for one of several bytes, and braces for one of several patterns. Two stars between
slashes, or at one end of the pattern beside a slash, stand for any number of directories. A
backslash takes the next character as it is. Any other character stands for the bytes of its UTF-8
form, and so does a bracket that is never closed.

A pattern is matched piece by piece. What counts of a path is only which of its positions can be
reached, so a path with `n` bytes costs at most `n` steps for each piece.
-/

namespace VbOutline.Glob

open Text

inductive Piece where
  | byte (b : UInt8)
  | anyByte
  | anyRun
  | oneOf (negated : Bool) (ranges : List (UInt8 × UInt8))
  /-- Any directories before the rest of the path. -/
  | leadingDirectories
  /-- A slash, or any directories between two slashes. -/
  | innerDirectories
  /-- A slash and everything after it. -/
  | trailingDirectories
  /-- One of several patterns; without any it stands for nothing. -/
  | anyOf (branches : List (List Piece))
  deriving Repr

/-- The result of reading the inside of brackets. -/
inductive ClassReading where
  /-- The ranges, last one first, and what follows the closing bracket. -/
  | closed (ranges : List (Char × Char)) (rest : Text)
  | unclosed
  /-- A range runs backwards. -/
  | invalid

/-- Extends the last range up to a character; the ranges are held last one first. -/
def extendRange? (ranges : List (Char × Char)) (c : Char) : Option (List (Char × Char)) :=
  match ranges with
  | [] => none
  | (low, _) :: rest => if c < low then none else some ((low, c) :: rest)

/-- The ranges up to the closing bracket, and what follows it. A bracket or a hyphen at the beginning
and a hyphen at the end stand for themselves. -/
def readClass (isFirst inRange : Bool) (ranges : List (Char × Char)) : Text → ClassReading
  | [] => .unclosed
  | c :: rest =>
    if c == ']' && !isFirst then .closed (if inRange then ('-', '-') :: ranges else ranges) rest
    else if c == '-' && !isFirst && !inRange then readClass false true ranges rest
    else if inRange then
      match extendRange? ranges c with
      | some extended => readClass false false extended rest
      | none => .invalid
    else readClass false false ((c, c) :: ranges) rest

def single (b : UInt8) : UInt8 × UInt8 := (b, b)

/-- The bytes that a range of characters stands for: those of the two characters, and the bytes
between the last one of the lower character and the first one of the upper character. -/
def byteRanges (low high : Char) : List (UInt8 × UInt8) :=
  let lows := String.utf8EncodeChar low
  if low == high then lows.map single
  else
    match lows.getLast?, String.utf8EncodeChar high with
    | some last, first :: rest => lows.dropLast.map single ++ (last, first) :: rest.map single
    | _, _ => []

def oneOfRanges (negated : Bool) (ranges : List (Char × Char)) : Piece :=
  .oneOf negated (ranges.flatMap fun (low, high) ↦ byteRanges low high)

/-! ## Reading a pattern -/

/-- Braces that are not closed yet. -/
structure OpenBraces where
  /-- The branches that are read, last one first. -/
  branches : List (List Piece)
  /-- What stands before the braces in their own branch, last piece first. -/
  before : List Piece

/-- How far a pattern is read. -/
structure Reader where
  /-- The pieces of the current branch, last one first. -/
  read : List Piece
  /-- The open braces around it, the innermost ones first. -/
  braces : List OpenBraces
  /-- The character before the rest of the pattern. -/
  previous : Option Char
  /-- Whether a bracket may be closed later on. -/
  hasClasses : Bool

namespace Reader

def start : Reader := ⟨[], [], none, true⟩

def push (r : Reader) (previous : Char) (piece : Piece) : Reader :=
  { r with read := piece :: r.read, previous := some previous }

/-- A character that stands for itself. -/
def pushChar (r : Reader) (c : Char) : Reader :=
  { r with read := ((String.utf8EncodeChar c).map Piece.byte).reverse ++ r.read, previous := some c }

def openBraces (r : Reader) : Reader :=
  { r with read := [], braces := ⟨[], r.read⟩ :: r.braces, previous := some '\x7b' }

/-- A comma ends a branch; outside braces it stands for itself. -/
def endBranch (r : Reader) : Reader :=
  match r.braces with
  | [] => r.pushChar ','
  | b :: outer =>
    { r with
      read := []
      braces := { b with branches := r.read.reverse :: b.branches } :: outer
      previous := some ',' }

/-- Whether a branch stands for nothing. -/
def isVoid (branch : List Piece) : Bool :=
  branch.all fun
    | .anyOf [] => true
    | _ => false

/-- Closes braces, of which there have to be some, and leaves out the branches that stand for
nothing. -/
def closeBraces? (r : Reader) : Option Reader :=
  match r.braces with
  | [] => none
  | b :: outer =>
    let branches := (r.read.reverse :: b.branches).reverse.filter fun branch ↦ !isVoid branch
    some { r with read := .anyOf branches :: b.before, braces := outer, previous := some '\x7d' }

/-- Two stars take the place of the slash before them; where that slash is already part of other
such stars, these count. -/
def pushDirectories (r : Reader) (previous : Char) (piece : Piece) : Reader :=
  let read := match r.read with
    | .leadingDirectories :: _ | .trailingDirectories :: _ => r.read
    | _ :: rest => piece :: rest
    | [] => [piece]
  { r with read, previous := some previous }

/-- Whether two stars may stand for directories after what is read. -/
def beginsPart (r : Reader) : Bool :=
  r.previous == some '/' ||
    (!r.braces.isEmpty && (r.previous == some ',' || r.previous == some '\x7b'))

/-- Reads on after two stars. -/
def doubleStar (r : Reader) (rest : Text) : Reader × Text :=
  let runs := (r.push '*' .anyRun).push '*' .anyRun
  if r.read.isEmpty then
    match rest with
    | [] => (r.push '*' .leadingDirectories, [])
    | '/' :: tail => (r.push '/' .leadingDirectories, tail)
    | _ => (runs, rest)
  else if r.beginsPart then
    match rest with
    | [] => (r.pushDirectories '*' .trailingDirectories, [])
    | '/' :: tail => (r.pushDirectories '/' .innerDirectories, tail)
    | c :: _ =>
      if !r.braces.isEmpty && (c == ',' || c == '\x7d') then
        (r.pushDirectories '*' .trailingDirectories, rest)
      else (runs, rest)
  else (runs, rest)

/-- Reads on after an opening bracket. -/
def brackets? (r : Reader) (rest : Text) : Option (Reader × Text) :=
  let negated := rest.head?.any fun c ↦ c == '!' || c == '^'
  match readClass true false [] (if negated then rest.drop 1 else rest) with
  | .closed ranges tail => some (r.push ']' (oneOfRanges negated ranges), tail)
  | .unclosed => some ({ r.pushChar '[' with hasClasses := false }, rest)
  | .invalid => none

/-- Reads the rest of a pattern; `fuel` bounds the number of steps. -/
def readFrom (fuel : Nat) (r : Reader) (s : Text) : Option Reader :=
  match fuel with
  | 0 => none
  | fuel + 1 =>
    match s with
    | [] => some r
    | '*' :: '*' :: rest =>
      let (r, rest) := r.doubleStar rest
      readFrom fuel r rest
    | '\\' :: rest =>
      match rest with
      | c :: rest => readFrom fuel (r.pushChar c) rest
      | [] => none
    | c :: rest =>
      if c == '*' then readFrom fuel (r.push '*' .anyRun) rest
      else if c == '?' then readFrom fuel (r.push '?' .anyByte) rest
      else if c == '[' && r.hasClasses then
        (r.brackets? rest).bind fun (r, rest) ↦ readFrom fuel r rest
      else if c == '\x7b' then readFrom fuel r.openBraces rest
      else if c == '\x7d' then r.closeBraces?.bind fun r ↦ readFrom fuel r rest
      else if c == ',' then readFrom fuel r.endBranch rest
      else readFrom fuel (r.pushChar c) rest

end Reader

/-- The pieces of a pattern. Braces that are not closed or not opened, a range that runs backwards
and a backslash at the end make it invalid. -/
def pieces? (s : Text) : Option (List Piece) :=
  (Reader.readFrom (s.length + 1) .start s).bind fun r ↦
    if r.braces.isEmpty then some r.read.reverse else none

/-! ## Matching -/

/-- For each position of a path, from the one before its first byte to the one after its last byte,
whether it is reached. -/
abbrev Marks := List Bool

def slash : UInt8 := 0x2F

namespace Marks

/-- Only the first position of a path is reached. -/
def start (path : List UInt8) : Marks := true :: path.map fun _ ↦ false

/-- What is reached after one byte that satisfies `p`. -/
def advance (p : UInt8 → Bool) (path : List UInt8) (marks : Marks) : Marks :=
  false :: List.zipWith (fun b m ↦ m && p b) path marks

def union (a b : Marks) : Marks := List.zipWith (· || ·) a b

/-- What is reached after any number of bytes that satisfy `p`; `before` tells whether this can go
on from the position before the first one. -/
def runFrom (p : UInt8 → Bool) (before : Bool) : List UInt8 → Marks → Marks
  | b :: path, m :: marks =>
    let here := m || before
    here :: runFrom p (here && p b) path marks
  | _, marks => marks.map (· || before)

def run (p : UInt8 → Bool) (path : List UInt8) (marks : Marks) : Marks := runFrom p false path marks

/-- What is reached after anything that ends with a slash. -/
def pastSlash (path : List UInt8) (marks : Marks) : Marks :=
  advance (· == slash) path (run (fun _ ↦ true) path marks)

end Marks

open Marks

def inRanges (ranges : List (UInt8 × UInt8)) (b : UInt8) : Bool :=
  ranges.any fun (low, high) ↦ low ≤ b && b ≤ high

mutual

/-- The positions of a path that are reached after a piece. -/
def Piece.reach (path : List UInt8) : Piece → Marks → Marks
  | .byte b, marks => advance (· == b) path marks
  | .anyByte, marks => advance (· != slash) path marks
  | .anyRun, marks => run (· != slash) path marks
  | .oneOf negated ranges, marks => advance (fun b ↦ inRanges ranges b != negated) path marks
  | .leadingDirectories, marks => union marks (pastSlash path marks)
  | .innerDirectories, marks =>
    let inside := advance (· == slash) path marks
    union inside (pastSlash path inside)
  | .trailingDirectories, marks => run (fun _ ↦ true) path (advance (· == slash) path marks)
  | .anyOf [], marks => marks
  | .anyOf (branch :: branches), marks =>
    union (reachAll path branch marks) (reachAny path branches marks)

/-- The positions that are reached after all pieces. -/
def reachAll (path : List UInt8) : List Piece → Marks → Marks
  | [], marks => marks
  | piece :: rest, marks => reachAll path rest (piece.reach path marks)

/-- The positions that are reached after one of several patterns. -/
def reachAny (path : List UInt8) : List (List Piece) → Marks → Marks
  | [], marks => marks.map fun _ ↦ false
  | branch :: branches, marks => union (reachAll path branch marks) (reachAny path branches marks)

end

/-- Whether a pattern matches a whole path; directories with nothing after them match everything. -/
def isMatch (pieces : List Piece) (path : Text) : Bool :=
  match pieces with
  | [.leadingDirectories] => true
  | _ =>
    let bytes := toBytes path
    (reachAll bytes pieces (start bytes)).getLast?.getD false

end VbOutline.Glob
