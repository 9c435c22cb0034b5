import VbOutline.Workspace.Filter

/-!
# The walk through a workspace

A walk visits the files below the root of a workspace. It leaves out what the ignore files on the
way say and, unless they speak of it, what has a name that begins with a point.

There are four kinds of ignore files, and an earlier kind goes before a later one: `.ignore` in a
directory, `.gitignore` in a directory, `.git/info/exclude` in a directory, and the user's own file.
Of one kind, the file of the nearest directory goes first; the directories above the root count as
well. If version control does not count, only the first kind does.
-/

namespace VbOutline

open Text

/-- The rules of a directory whose place has `depth` names. -/
structure LocalRules where
  depth : Nat
  rules : List Ignore.Rule
  deriving Repr

/-- The ignore files on the way to a place, those of each kind nearest first. -/
structure RulesOnTheWay where
  plain : List LocalRules
  shared : List LocalRules
  unshared : List LocalRules
  user : List LocalRules
  deriving Repr

namespace RulesOnTheWay

/-- The rules in the file at a place below a directory. -/
def rulesBelow (directory : FileTree) (place : List String) : List Ignore.Rule :=
  match directory.get? (place.map String.toList) with
  | some (.file content) => Ignore.rulesOf content
  | _ => []

/-- The way goes on into the directory at a place. -/
def enter (usesGitignore : Bool) (r : RulesOnTheWay) (place : List Text) (directory : FileTree) :
    RulesOnTheWay :=
  let rules (names : List String) : LocalRules := ⟨place.length, rulesBelow directory names⟩
  let plain := rules [".ignore"] :: r.plain
  if usesGitignore then
    { r with
      plain
      shared := rules [".gitignore"] :: r.shared
      unshared := rules [".git", "info", "exclude"] :: r.unshared }
  else { r with plain }

/-- All rules, those that go first at the beginning. -/
def inOrder (r : RulesOnTheWay) : List LocalRules := r.plain ++ r.shared ++ r.unshared ++ r.user

end RulesOnTheWay

namespace FileFilter

/-- The ignore files on the way from the top of the tree to the directory above the root, and the
user's. -/
def rulesAbove (f : FileFilter) (tree : FileTree) (root : List Text) : RulesOnTheWay :=
  let user : List LocalRules :=
    if f.usesGitignore then [⟨root.length, Ignore.userRules tree f.user f.root⟩] else []
  (List.range root.length).foldl (fun r n ↦
    let place := root.take n
    r.enter f.usesGitignore place ((tree.get? place).getD .empty)) ⟨[], [], [], user⟩

/-- Whether the walk leaves out what stands at a place. -/
def leavesOut (rules : List LocalRules) (place : List Text) (isDirectory : Bool) : Bool :=
  let verdict := rules.findSome? fun l ↦
    Ignore.verdict? l.rules (Path.joinParts (place.drop l.depth)) isDirectory
  match verdict with
  | some .ignored => true
  | some .kept => false
  | none => place.getLast?.any fun name ↦ name.head? == some '.'

mutual

/-- The places of the files that the walk visits. -/
def walk (usesGitignore : Bool) (way : RulesOnTheWay) (place : List Text) :
    FileTree → List (List Text)
  | .file _ => [place]
  | .directory entries =>
    walkEntries usesGitignore (way.enter usesGitignore place (.directory entries)) place entries

def walkEntries (usesGitignore : Bool) (way : RulesOnTheWay) (place : List Text) :
    List (Text × FileTree) → List (List Text)
  | [] => []
  | (name, tree) :: rest =>
    (if leavesOut way.inOrder (place ++ [name]) tree.isDirectory then []
      else walk usesGitignore way (place ++ [name]) tree) ++
      walkEntries usesGitignore way place rest

end

/-- The path of a place that has the given names below the root. -/
def pathOf (f : FileFilter) (place : List Text) : Text := Path.join f.root (Path.joinParts place)

/-- The paths of the source files, in the order of their steps. -/
def discover (f : FileFilter) (tree : FileTree) : List Text :=
  match tree.resolve f.root with
  | .error _ => []
  | .ok root =>
    match tree.get? root with
    | some (.directory entries) =>
      let visited := walk f.usesGitignore (f.rulesAbove tree root) root (.directory entries)
      let places := (visited.map fun place ↦ place.drop root.length).filter fun place ↦
        f.isSource (f.pathOf place) && !f.ignoresBelow (Path.joinParts place) false
      (places.mergeSort Path.namesLe).map f.pathOf
    | _ => []

end FileFilter

end VbOutline
