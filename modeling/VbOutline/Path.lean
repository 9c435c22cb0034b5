import VbOutline.Text.LetterCase

/-!
# Paths of files

A path is a text whose parts are divided by slashes. Empty parts and parts that are a single point
say nothing, except for a point at the beginning of a relative path. Comparing paths means comparing
their steps.
-/

namespace VbOutline.Path

open Text

/-- One step on a path. -/
inductive Step where
  | root
  | here
  | up
  | name (name : Text)
  deriving DecidableEq, Repr

def isAbsolute (path : Text) : Bool := path.head? == some '/'

def isIdle (part : Text) : Bool := part.isEmpty || part == ['.']

def stepOf (part : Text) : Step := if part == ['.', '.'] then .up else .name part

/-- The steps before the parts that follow, and these parts. -/
def split (path : Text) : List Step × List Text :=
  let parts := splitAll '/' path
  if isAbsolute path then ([.root], parts.drop 1)
  else if parts.head? == some ['.'] then ([.here], parts.drop 1)
  else ([], parts)

def bodySteps (parts : List Text) : List Step :=
  (parts.filter fun part ↦ !isIdle part).map stepOf

def steps (path : Text) : List Step :=
  (split path).1 ++ bodySteps (split path).2

/-- The names on a path, from which steps of other kinds are left out. -/
def names (path : Text) : List Text :=
  (steps path).filterMap fun
    | .name n => some n
    | _ => none

/-- Appends a path to a directory; an absolute path replaces it. -/
def join (directory path : Text) : Text :=
  if isAbsolute path || directory.isEmpty then path
  else if directory.getLast? == some '/' then directory ++ path
  else directory ++ '/' :: path

/-- Drops the first `n` parts that say something. -/
def dropSteps : Nat → List Text → List Text
  | 0, parts => parts
  | _ + 1, [] => []
  | n + 1, part :: rest => if isIdle part then dropSteps (n + 1) rest else dropSteps n rest

def joinParts (parts : List Text) : Text := List.intercalate ['/'] parts

/-- Leaves out the parts at the end that say nothing. -/
def dropIdleEnd (parts : List Text) : List Text := (parts.reverse.dropWhile isIdle).reverse

def startsWith (path base : Text) : Bool := (steps base).isPrefixOf (steps path)

/-- The rest of a path below `base`. -/
def below? (path base : Text) : Option Text :=
  if startsWith path base then
    let (lead, parts) := split path
    let body := dropIdleEnd parts
    match (steps base).length with
    | 0 =>
      some (match lead with
        | .root :: _ => '/' :: joinParts body
        | .here :: _ => joinParts (['.'] :: body)
        | _ => joinParts body)
    | n => some (joinParts ((dropSteps (n - lead.length) body).dropWhile isIdle))
  else none

/-- The path as seen from `base`, if it is below it; otherwise the path itself. -/
def relativeTo (base path : Text) : Text := (below? path base).getD path

/-- The last step of a path, if it is a name. -/
def fileName? (path : Text) : Option Text :=
  match (steps path).getLast? with
  | some (.name n) => some n
  | _ => none

/-- The part of a file name after its last point; a point at its beginning does not count. -/
def extension? (path : Text) : Option Text :=
  (fileName? path).bind fun name ↦
    (splitLast? '.' name).bind fun (stem, extension) ↦
      if stem.isEmpty then none else some extension

/-- An absolute path with the given names. -/
def ofNames (names : List Text) : Text := '/' :: joinParts names

/-- Order by steps, names by their bytes. -/
def nameLe (a b : Text) : Bool := (String.ofList a) ≤ (String.ofList b)

def namesLe : List Text → List Text → Bool
  | [], _ => true
  | _ :: _, [] => false
  | a :: as, b :: bs => if a == b then namesLe as bs else nameLe a b

end VbOutline.Path
