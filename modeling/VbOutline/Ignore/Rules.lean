import VbOutline.FileTree
import VbOutline.Ignore.Glob
import VbOutline.Text.Lines

/-!
# Ignore files

Each line of an ignore file is a rule: a pattern, possibly after an exclamation mark, which takes
back what other rules ignore, and possibly before a slash, after which it speaks of directories
only. A pattern with a slash at its beginning or inside is matched with the whole path as seen from
the directory of the file; any other one is matched with the end of the path. Lines that are blank,
comments or no valid patterns say nothing. The last rule that matches counts.
-/

namespace VbOutline.Ignore

open Text

structure Rule where
  pieces : List Glob.Piece
  takesBack : Bool
  onlyDirectories : Bool
  deriving Repr

inductive Verdict where
  | ignored
  | kept
  deriving DecidableEq, Repr

/-! ## Reading rules -/

/-- The pattern of a rule without its marks: the pattern as written, and whether it is bound to the
directory of the file. -/
def anchor (pattern : Text) (isAnchored : Bool) : Text :=
  let whole :=
    if isAnchored || pattern.contains '/' || pattern == ['*', '*'] then pattern
    else '*' :: '*' :: '/' :: pattern
  if endsWith whole ['/', '*', '*'] then whole ++ ['/', '*'] else whole

/-- Takes off the slash at the end, and a backslash before it. -/
def dropEndSlash (pattern : Text) : Text :=
  let rest := pattern.dropLast
  if rest.getLast? == some '\\' then rest.dropLast else rest

def ruleOf? (takesBack isAnchored : Bool) (pattern : Text) : Option Rule :=
  let onlyDirectories := pattern.getLast? == some '/'
  let pattern := if onlyDirectories then dropEndSlash pattern else pattern
  (Glob.pieces? (anchor pattern isAnchored)).map fun pieces ↦ ⟨pieces, takesBack, onlyDirectories⟩

/-- The rule on a line. -/
def rule? (line : Text) : Option Rule :=
  let line := if endsWith line ['\\', ' '] then line else trimEnd line
  match line with
  | [] => none
  | '#' :: _ => none
  | '\\' :: '!' :: rest => ruleOf? false false ('!' :: rest)
  | '\\' :: '#' :: rest => ruleOf? false false ('#' :: rest)
  | '!' :: '/' :: rest => ruleOf? true true rest
  | '!' :: rest => ruleOf? true false rest
  | '/' :: rest => ruleOf? false true rest
  | rest => ruleOf? false false rest

/-- The lines of a file up to the first one that is not text. -/
def linesOf (content : ByteArray) : List Text :=
  let parts := content.toList.splitBy fun a _ ↦ a != 10
  let decoded := parts.map fun part ↦ FileTree.decode? (ByteArray.mk part.toArray)
  (decoded.takeWhile Option.isSome).filterMap fun line ↦
    line.map fun s ↦ if s.getLast? == some '\n' then dropReturn s.dropLast else s

/-- Drops byte order marks at the beginning of the first line. -/
def dropMark : List Text → List Text
  | [] => []
  | first :: rest => first.dropWhile (· == '\uFEFF') :: rest

def rulesOf (content : ByteArray) : List Rule := (dropMark (linesOf content)).filterMap rule?

/-- The rules in the file at a path; there are none if it cannot be read. -/
def rulesAt (tree : FileTree) (path : Text) : List Rule :=
  match tree.find? path with
  | some (.file content) => rulesOf content
  | _ => []

/-! ## Verdicts -/

def Rule.applies (r : Rule) (path : Text) (isDirectory : Bool) : Bool :=
  (!r.onlyDirectories || isDirectory) && Glob.isMatch r.pieces path

/-- The verdict of the last rule that applies to a path. -/
def verdict? (rules : List Rule) (path : Text) (isDirectory : Bool) : Option Verdict :=
  (rules.reverse.find? fun r ↦ r.applies path isDirectory).map fun r ↦
    if r.takesBack then .kept else .ignored

/-- The directories above a path, nearest first, down to the empty path. -/
def directoriesAbove (parts : List Text) : List (List Text) :=
  match parts with
  | [] => []
  | part :: rest => (directoriesAbove rest).map (part :: ·) ++ [[]]

/-- The verdict on a path, or else on the nearest directory above it that has one. -/
def verdictAbove? (rules : List Rule) (path : Text) (isDirectory : Bool) : Option Verdict :=
  (verdict? rules path isDirectory).or
    ((directoriesAbove (splitAll '/' path)).findSome? fun parts ↦
      verdict? rules (Path.joinParts (Path.dropIdleEnd parts)) true)

end VbOutline.Ignore
