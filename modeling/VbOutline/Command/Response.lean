import VbOutline.Command.Basic
import VbOutline.Project

/-!
# Responses

What each command answers. A command line can also be refused by the command itself, because of a
location or a kind of symbol that cannot be read; that is no response.
-/

namespace VbOutline

open Text

inductive Response where
  | success (fields : List (String × Json))
  | failure (message : String)
  deriving Repr

namespace Response

def toJson : Response → Json
  | success fields => .obj (fields ++ [("success", .bool true)])
  | failure message => .obj [("success", .bool false), ("error", .string message)]

/-- The response to a question that may have no answer. -/
def ofQuery {α : Type} (answer : α → List (String × Json)) : Except QueryError α → Response
  | .ok a => success (answer a)
  | .error e => failure e.message

/-- The kinds with the given names, blank names left out; no kinds at all mean that every kind is
wanted. -/
def kindsOf (names : List Text) : Except String (Option (List SymbolKind)) :=
  let names := (names.map trim).filter fun n ↦ !n.isEmpty
  match names.find? fun n ↦ (SymbolKind.ofName? n).isNone with
  | some n => .error (SymbolKind.unknownMessage n)
  | none => .ok (if names.isEmpty then none else some (names.filterMap SymbolKind.ofName?))

/-- The location that a text stands for, inside the project. -/
def locate (p : Project) (tree : FileTree) (text : Text) : Except String Location :=
  match Location.parse text with
  | .error e => .error e.message
  | .ok l =>
    match l.resolveIn tree p.root with
    | .error e => .error e.message
    | .ok l => .ok l

/-- The symbols to show; those with a text in their names are shown without what is inside them. -/
def shownSymbols (kinds : Option (List SymbolKind)) (name : Option Text) (depth : Option Nat)
    (forest : List Symbol) : List Json :=
  let forest := match kinds with
    | some kinds => Symbol.filterKinds kinds forest
    | none => forest
  match name with
  | some name =>
    Report.symbols (some 0) ((Symbol.flatten forest).filter fun s ↦ s.nameContains name)
  | none => Report.symbols depth forest

def symbols (p : Project) (tree : FileTree) (file : Text) (kinds : Option (List Text))
    (name : Option Text) (depth : Option Nat) : Except String Response := do
  let kinds ← match kinds with
    | some names => kindsOf names
    | none => .ok none
  let path := Path.join p.root file
  .ok (ofQuery (fun forest ↦
    let shown := shownSymbols kinds name depth forest
    [("file", .str (Path.relativeTo p.root path)), ("count", .num shown.length),
      ("symbols", .arr shown)]) (p.symbols tree path))

def diagnostics (p : Project) (tree : FileTree) (file : Text) (filter : DiagnosticFilter) :
    Response :=
  let path := Path.join p.root file
  ofQuery (fun ds ↦ Report.diagnosticsFields (Path.relativeTo p.root path) (filter.apply ds))
    (p.diagnostics tree path)

/-- How many diagnostics have a severity. -/
def countOf (severity : Severity) (reports : List (Text × List Diagnostic)) : Nat :=
  (reports.flatMap fun r ↦ r.2).countP fun d ↦ d.severity == severity

/-- The diagnostics of all files that have any after filtering. -/
def check (p : Project) (tree : FileTree) (filter : DiagnosticFilter) : Response :=
  let reports := ((p.checkAll tree).map fun (path, ds) ↦ (path, filter.apply ds)).filter
    fun r ↦ !r.2.isEmpty
  success [("errors", .num (countOf .error reports)), ("warnings", .num (countOf .warning reports)),
    ("files", .list (fun (path, ds) ↦ Report.diagnostics (Path.relativeTo p.root path) ds) reports)]

def definition (p : Project) (tree : FileTree) (location : Text) : Except String Response := do
  let l ← locate p tree location
  .ok (ofQuery (fun found ↦
    match found with
    | some f => [("definition", Report.found p.root f.uri f.node.symbol.toEntry)]
    | none => [("message", .string "No definition found")]) (p.definition tree l.file l.position))

def implementations (p : Project) (tree : FileTree) (location : Text) (limit : Option Nat) :
    Except String Response := do
  let l ← locate p tree location
  .ok (ofQuery (fun found ↦
    let shown := match limit with
      | some n => found.take n
      | none => found
    [("count", .num shown.length),
      ("implementations", .list (fun (uri, e) ↦ Report.found p.root uri e) shown)])
    (p.implementations tree l.file l.position))

/-! ## Configuration -/

def showConfig (p : Project) (tree : FileTree) (isGlobal : Bool) : Response :=
  match Config.load tree p.env p.root isGlobal with
  | .ok c =>
    success [("level", .string (if isGlobal then "global" else "merged")), ("config", c.toJson)]
  | .error e => failure e.message

/-- Where a configuration is kept. -/
def levelName (isGlobal : Bool) : String := if isGlobal then "global" else "project"

def configPath (p : Project) (tree : FileTree) (isGlobal : Bool) : Response :=
  let path := Config.pathOf p.env p.root isGlobal
  success [("level", .string (levelName isGlobal)),
    ("path", .str (Path.relativeTo p.root path)), ("exists", .bool (tree.pathExists path))]

/-- Writes a configuration file; the files change only if that succeeds. -/
def initConfig (p : Project) (tree : FileTree) (isGlobal overwrites : Bool) : Response × FileTree :=
  let path := Config.pathOf p.env p.root isGlobal
  match Config.init tree path overwrites with
  | .ok tree =>
    (success [("status", .string "created"), ("path", .str (Path.relativeTo p.root path)),
      ("level", .string (levelName isGlobal))], tree)
  | .error e => (failure e.message, tree)

end Response

end VbOutline
