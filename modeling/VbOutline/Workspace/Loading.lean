import VbOutline.Source.Document
import VbOutline.Text.Decimal
import VbOutline.Uri
import VbOutline.Workspace.Walk

/-!
# Loading source files

A source file is loaded as a document if it has an extension of source files, is not too large and
is text. Loading all files leaves out those that cannot be loaded.
-/

namespace VbOutline

open Text

structure Workspace where
  filter : FileFilter
  /-- The largest size of a source file, in bytes. -/
  maxFileSize : Nat
  deriving Repr

/-- Why a file is not loaded. -/
inductive LoadError where
  | notFound (path : Text)
  | notSource (path : Text) (extensions : List Text)
  | tooLarge (path : Text) (megabytes limit : Nat)
  | notUtf8 (path : Text)
  | file (error : FileError)
  deriving DecidableEq, Repr

namespace LoadError

def message : LoadError → String
  | notFound path => "File not found: " ++ String.ofList path
  | notSource path extensions =>
    "Not a source file (expected one of: " ++
      ", ".intercalate (extensions.map fun e ↦ "." ++ String.ofList e) ++ "): " ++
      String.ofList path
  | tooLarge path megabytes limit =>
    "File too large (" ++ decimalString megabytes ++ "MB > " ++ decimalString limit ++
      "MB limit): " ++ String.ofList path
  | notUtf8 path => "File is not valid UTF-8: " ++ String.ofList path
  | file error => error.message

/-- Whether a file with this error may be passed over without a word. -/
def isSkippable : LoadError → Bool
  | notSource .. | tooLarge .. | notUtf8 _ => true
  | _ => false

end LoadError

def megabyte : Nat := 1024 * 1024

def Document.ofFile (path : Text) (text : Text) : Document :=
  ⟨String.ofList (Uri.ofPath path), text⟩

/-- The path of a document. -/
def Document.path (d : Document) : Text := Uri.toPath d.uri.toList

namespace Workspace

/-- Loads the file at a path. -/
def load (w : Workspace) (tree : FileTree) (path : Text) : Except LoadError Document :=
  match tree.resolve path with
  | .error .notFound => .error (.notFound path)
  | .error e => .error (.file e)
  | .ok place =>
    let path := Path.ofNames place
    if !w.filter.isSource path then .error (.notSource path w.filter.extensions)
    else
      match tree.contentAt place with
      | .error e => .error (.file e)
      | .ok content =>
        if content.size > w.maxFileSize then
          .error (.tooLarge path (content.size / megabyte) (w.maxFileSize / megabyte))
        else
          match FileTree.decode? content with
          | some text => .ok (.ofFile path text)
          | none => .error (.notUtf8 path)

/-- Loads the source files that can be loaded, in the order of their paths. -/
def loadAll (w : Workspace) (tree : FileTree) : List Document :=
  (w.filter.discover tree).filterMap fun path ↦ (w.load tree path).toOption

end Workspace

end VbOutline
