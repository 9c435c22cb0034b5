import VbOutline.Json.Protocol
import VbOutline.Location
import VbOutline.Scope
import VbOutline.Uri

/-!
# Reports

The shapes in which commands answer: lines and columns count from one, and files are shown as seen
from the project root.
-/

namespace VbOutline.Report

open Text

def detailField (detail : Text) : List (String × Json) :=
  if detail.isEmpty then [] else [("detail", .str detail)]

mutual

/-- A symbol with at most `depth` levels of symbols inside it. -/
def symbol (depth : Option Nat) : Symbol → Json
  | ⟨e, children⟩ =>
    let (line, column) := e.selection.start.toDisplay
    .obj ([("name", .str e.name), ("kind", .string e.kind.name)] ++ detailField e.detail ++
      [("line", .num line), ("column", .num column), ("end_line", .num (e.range.stop.line + 1))] ++
      if depth == some 0 || children.isEmpty then []
      else [("children", .arr (symbols (depth.map (· - 1)) children))])

def symbols (depth : Option Nat) : List Symbol → List Json
  | [] => []
  | s :: rest => symbol depth s :: symbols depth rest

end

def location (root : Text) (l : Location) : Json :=
  .obj [("file", .str (Path.relativeTo root l.file)), ("line", .num l.line),
    ("column", .num l.column)]

/-- A symbol found in the document with the given URI. -/
def found (root : Text) (uri : String) (e : Entry) : Json :=
  .obj ([("name", .str e.name), ("kind", .string e.kind.name)] ++ detailField e.detail ++
    [("location", location root (.ofPosition (Uri.toPath uri.toList) e.selection.start))])

def diagnostic (d : Diagnostic) : Json :=
  let (line, column) := d.range.start.toDisplay
  let (endLine, endColumn) := d.range.stop.toDisplay
  .obj ([("severity", .string d.severity.name), ("message", .string d.finding.message),
    ("line", .num line), ("column", .num column), ("end_line", .num endLine),
    ("end_column", .num endColumn), ("code", .string d.code)] ++
    (if d.finding.isUnnecessary then [("tags", .arr [.string "unnecessary"])] else []) ++
    Json.field? "data" (d.finding.data?.map Protocol.fixData))

def diagnosticsFields (file : Text) (ds : List Diagnostic) : List (String × Json) :=
  [("file", .str file), ("count", .num ds.length), ("diagnostics", .list diagnostic ds)]

/-- The diagnostics of one file. -/
def diagnostics (file : Text) (ds : List Diagnostic) : Json := .obj (diagnosticsFields file ds)

end VbOutline.Report

namespace VbOutline

open Text

/-- Which diagnostics to show; `none` shows all of them. -/
structure DiagnosticFilter where
  severities : Option (List Severity)
  codes : Option (List Text)
  deriving DecidableEq, Repr

namespace DiagnosticFilter

def keeps (f : DiagnosticFilter) (d : Diagnostic) : Bool :=
  f.severities.all (fun ss ↦ ss.contains d.severity) &&
    f.codes.all fun cs ↦ cs.any fun c ↦ eqAscii c d.code.toList

def apply (f : DiagnosticFilter) (ds : List Diagnostic) : List Diagnostic := ds.filter f.keeps

end DiagnosticFilter

/-- How answers are laid out. -/
inductive Format where
  | pretty
  | compact
  deriving DecidableEq, Repr

namespace Format

def names : List (String × Format) :=
  [("json", pretty), ("pretty", pretty), ("compact", compact), ("jsonl", compact)]

def name : Format → String
  | pretty => "json"
  | compact => "compact"

/-- Reads the name of a format in any case. -/
def ofName? (s : Text) : Option Format :=
  (names.find? fun p ↦ p.1.toList == lower s).map (·.2)

def unknownMessage (s : Text) : String :=
  "Unknown output format: '" ++ String.ofList s ++ "'. Valid: json, compact"

/-- The text of an answer, its keys in alphabetical order. -/
def render (f : Format) (v : Json) : Text :=
  match f with
  | pretty => v.sortKeys.pretty ++ ['\n']
  | compact => v.sortKeys.compact ++ ['\n']

end Format

end VbOutline
