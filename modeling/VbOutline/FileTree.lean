import VbOutline.Entries
import VbOutline.Path

/-!
# Files in a tree

A file system is a tree whose leaves are files. A place in it is the list of names from the root.
A path is followed step by step: every step but the last has to lead to a directory, also if an
empty step or a point comes next, and a step up from the root stays there. A name has at most 255
bytes, and a path no zero byte.
-/

namespace VbOutline

open Text

/-- Why a file cannot be reached or used. -/
inductive FileError where
  | notFound
  | alreadyExists
  | notDirectory
  | isDirectory
  | nameTooLong
  | zeroByte
  | notUtf8
  deriving DecidableEq, Repr

def FileError.message : FileError → String
  | notFound => "No such file or directory (os error 2)"
  | alreadyExists => "File exists (os error 17)"
  | notDirectory => "Not a directory (os error 20)"
  | isDirectory => "Is a directory (os error 21)"
  | nameTooLong => "File name too long (os error 36)"
  | zeroByte => "file name contained an unexpected NUL byte"
  | notUtf8 => "stream did not contain valid UTF-8"

inductive FileTree where
  | file (content : ByteArray)
  | directory (entries : List (Text × FileTree))

namespace FileTree

def empty : FileTree := directory []

def isDirectory : FileTree → Bool
  | file _ => false
  | directory _ => true

def entries : FileTree → Entries FileTree
  | file _ => []
  | directory es => es

/-- What stands at a place. -/
def get? : FileTree → List Text → Option FileTree
  | t, [] => some t
  | t, name :: rest => (t.entries.lookup? name).bind fun inner ↦ get? inner rest

/-- Puts a tree at a place; directories that are missing on the way are made. -/
def put (new : FileTree) : FileTree → List Text → FileTree
  | _, [] => new
  | t, name :: rest =>
    directory (t.entries.put name (put new ((t.entries.lookup? name).getD empty) rest))

/-- Takes away what stands at a place. -/
def remove : FileTree → List Text → FileTree
  | _, [] => empty
  | t, [name] => directory (t.entries.drop name)
  | t, name :: rest =>
    match t.entries.lookup? name with
    | some inner => directory (t.entries.put name (remove inner rest))
    | none => t

/-! ## Paths -/

/-- The largest number of bytes in a name. -/
def maxNameSize : Nat := 255

/-- Follows the parts of a path from the place whose names, last one first, are `trail`. -/
def follow (t : FileTree) (trail : List Text) : List Text → Except FileError (List Text)
  | [] => .ok trail
  | part :: rest =>
    match t.get? trail.reverse with
    | none => .error .notFound
    | some (file _) => .error .notDirectory
    | some (directory es) =>
      if Path.isIdle part then follow t trail rest
      else if part == ['.', '.'] then follow t (trail.drop 1) rest
      else if byteSize part > maxNameSize then .error .nameTooLong
      else if (Entries.lookup? es part).isSome then follow t (part :: trail) rest
      else .error .notFound

/-- The place that an absolute path leads to. -/
def resolve (t : FileTree) (path : Text) : Except FileError (List Text) :=
  if path.any fun c ↦ c.toNat == 0 then .error .zeroByte
  else (follow t [] ((splitAll '/' path).drop 1)).map List.reverse

def find? (t : FileTree) (path : Text) : Option FileTree :=
  match t.resolve path with
  | .ok place => t.get? place
  | .error _ => none

def pathExists (t : FileTree) (path : Text) : Bool := (t.find? path).isSome

def isDirectoryAt (t : FileTree) (path : Text) : Bool := (t.find? path).any isDirectory

/-! ## Contents -/

def contentAt (t : FileTree) (place : List Text) : Except FileError ByteArray :=
  match t.get? place with
  | some (file content) => .ok content
  | some (directory _) => .error .isDirectory
  | none => .error .notFound

/-- The text of bytes in UTF-8. -/
def decode? (content : ByteArray) : Option Text := (String.fromUTF8? content).map String.toList

def encode (text : Text) : ByteArray := (String.ofList text).toUTF8

def readText (t : FileTree) (path : Text) : Except FileError Text := do
  let content ← t.contentAt (← t.resolve path)
  match decode? content with
  | some text => .ok text
  | none => .error .notUtf8

/-- Makes the directories that lead to a place. -/
def makeDirectories (t : FileTree) (trail : List Text) : List Text → Except FileError FileTree
  | [] => .ok t
  | name :: rest =>
    let place := trail ++ [name]
    match t.get? place with
    | some (directory _) => makeDirectories t place rest
    | some (file _) => .error (if rest.isEmpty then .alreadyExists else .notDirectory)
    | none => makeDirectories (put empty t place) place rest

/-- Writes a file and makes the directories above it. -/
def writeText (t : FileTree) (place : List Text) (text : Text) : Except FileError FileTree := do
  let t ← makeDirectories t [] place.dropLast
  match t.get? place with
  | some (directory _) => .error .isDirectory
  | _ => .ok (put (file (encode text)) t place)

end FileTree

end VbOutline
