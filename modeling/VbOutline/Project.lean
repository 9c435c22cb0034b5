import VbOutline.Config.Loading
import VbOutline.Json.Report

/-!
# Projects

A project is a workspace with its configuration. The questions that can be put to it are about one
file, seen beside all other source files of the workspace, or about all of them. Every question
loads the files anew.
-/

namespace VbOutline

open Text

/-- The same location with the place of its file, which has to be below the root. -/
def Location.resolveIn (l : Location) (tree : FileTree) (root : Text) :
    Except LocationError Location :=
  let file := Path.join root l.file
  match tree.resolve file with
  | .error _ => .error (.notFound file)
  | .ok place =>
    let path := Path.ofNames place
    if Path.startsWith path root then .ok { l with file := path } else .error (.outside l.file)

structure Project where
  root : Text
  env : Environment
  config : Config
  format : Format
  workspace : Workspace
  deriving Repr

/-- Why a question has no answer. -/
inductive QueryError where
  | notLoaded (error : LoadError)
  /-- The document has no such line. -/
  | noSuchPosition (path : Text) (position : Position)
  deriving DecidableEq, Repr

def QueryError.message : QueryError → String
  | notLoaded error => error.message
  | noSuchPosition path position =>
    let (line, column) := position.toDisplay
    "Invalid position " ++ decimalString line ++ ":" ++ decimalString column ++ " in " ++
      String.ofList path

namespace Project

/-- Opens the project at a path. A configuration with an error counts as none, and a format that is
not known as the one over several lines. -/
def create (tree : FileTree) (env : Environment) (root : Text) : Project :=
  let config := (Config.load tree env root false).toOption.getD {}
  { root, env, config
    format := (Format.ofName? config.output.format).getD .pretty
    workspace := config.openWorkspace tree env.user root }

/-- A document beside the outlines of the other source files. -/
structure View where
  document : Document
  others : List DocumentOutline
  deriving Repr

namespace View

def forest (v : View) : List Symbol := Outline.ofText v.document.text

def requireLine (v : View) (p : Position) : Except QueryError Unit :=
  if p.line < v.document.lineCount then .ok () else .error (.noSuchPosition v.document.path p)

end View

def load (p : Project) (tree : FileTree) (path : Text) : Except QueryError Document :=
  match p.workspace.load tree path with
  | .ok d => .ok d
  | .error e => .error (.notLoaded e)

/-- The outlines of all source files but one. -/
def outlinesBeside (p : Project) (tree : FileTree) (uri : String) : List DocumentOutline :=
  ((p.workspace.loadAll tree).filter fun d ↦ d.uri != uri).map DocumentOutline.ofDocument

def view (p : Project) (tree : FileTree) (path : Text) : Except QueryError View := do
  let document ← p.load tree path
  .ok ⟨document, p.outlinesBeside tree document.uri⟩

def symbols (p : Project) (tree : FileTree) (path : Text) : Except QueryError (List Symbol) := do
  let document ← p.load tree path
  .ok (Outline.ofText document.text)

def diagnostics (p : Project) (tree : FileTree) (path : Text) :
    Except QueryError (List Diagnostic) := do
  let v ← p.view tree path
  .ok (Check.validate p.config.checkOptions v.document.text v.others)

/-- What the identifier at a position stands for, and where. -/
def definition (p : Project) (tree : FileTree) (path : Text) (position : Position) :
    Except QueryError (Option Scope.Found) := do
  let v ← p.view tree path
  v.requireLine position
  .ok (Scope.resolveAt? v.document v.forest v.others position)

def implementations (p : Project) (tree : FileTree) (path : Text) (position : Position) :
    Except QueryError (List (String × Entry)) := do
  let v ← p.view tree path
  v.requireLine position
  .ok (Scope.implementationsAt v.document v.forest v.others position)

/-- The diagnostics of all source files, with their paths. -/
def checkAll (p : Project) (tree : FileTree) : List (Text × List Diagnostic) :=
  let documents := p.workspace.loadAll tree
  let outlines := documents.map DocumentOutline.ofDocument
  documents.map fun d ↦ (d.path, Check.validateAmong p.config.checkOptions outlines d)

end Project

end VbOutline
