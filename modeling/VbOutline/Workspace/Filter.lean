import VbOutline.Ignore.UserRules

/-!
# Files that count

Which files of a workspace count: those with an extension of source files that neither their names
nor the rules of the whole workspace ignore. These rules are the project's own ignore file and the
one of version control, both at the root.
-/

namespace VbOutline

open Text

/-- Which files of a workspace count. -/
structure FileFilter where
  /-- The path of the workspace. -/
  root : Text
  user : UserPaths
  /-- Whether the ignore files of version control count. -/
  usesGitignore : Bool
  /-- Names that are ignored wherever they stand. -/
  ignoredNames : List Text
  /-- Extensions of source files, without the point. -/
  extensions : List Text
  /-- The rules of the project. -/
  projectRules : List Ignore.Rule
  /-- The rules of version control at the root. -/
  gitRules : List Ignore.Rule
  deriving Repr

namespace FileFilter

/-- The directory of the project's own files. -/
def projectDirectory : Text := ".simplevb".toList

def gitignoreName : Text := ".gitignore".toList

/-- Names that are ignored under any configuration. -/
def alwaysIgnored : List Text :=
  [".git", ".svn", ".hg", ".vs", ".idea", ".vscode"].map String.toList

/-- Sets up a filter with the ignore files that are there now. -/
def create (tree : FileTree) (user : UserPaths) (root : Text) (usesGitignore : Bool)
    (ignoredNames extensions : List Text) : FileFilter where
  root
  user
  usesGitignore
  ignoredNames
  extensions
  projectRules :=
    Ignore.rulesAt tree (Path.join (Path.join root projectDirectory) "ignore".toList)
  gitRules := if usesGitignore then Ignore.rulesAt tree (Path.join root gitignoreName) else []

def isSource (f : FileFilter) (path : Text) : Bool :=
  (Path.extension? path).any fun e ↦ f.extensions.any fun allowed ↦ eqAscii allowed e

def isIgnoredName (f : FileFilter) (name : Text) : Bool :=
  alwaysIgnored.contains name || f.ignoredNames.any fun n ↦ eqAscii n name

/-- Whether a path below the root is ignored; the project has the first word. -/
def ignoresBelow (f : FileFilter) (path : Text) (isDirectory : Bool) : Bool :=
  (Path.names path).any f.isIgnoredName ||
    (Ignore.verdictAbove? f.projectRules path isDirectory).or
      (Ignore.verdictAbove? f.gitRules path isDirectory) == some .ignored

/-- Whether a path is ignored. No path outside the root is. -/
def isIgnored (f : FileFilter) (tree : FileTree) (path : Text) : Bool :=
  (Path.below? path f.root).any fun rest ↦ f.ignoresBelow rest (tree.isDirectoryAt path)

def isIncluded (f : FileFilter) (tree : FileTree) (path : Text) : Bool := !f.isIgnored tree path

end FileFilter

end VbOutline
