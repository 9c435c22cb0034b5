import VbOutline.Diagnostic
import VbOutline.Json.Basic
import VbOutline.Symbol.Basic

/-!
# The shapes of the Language Server Protocol

Positions count from zero, and severities and tags are numbers.
-/

namespace VbOutline.Protocol

open Text

def position (p : Position) : Json := .obj [("line", .num p.line), ("character", .num p.character)]

def range (r : Range) : Json := .obj [("start", position r.start), ("end", position r.stop)]

def entryFields (e : Entry) : List (String × Json) :=
  [("name", .str e.name), ("kind", .string e.kind.name), ("detail", .str e.detail),
    ("range", range e.range), ("selectionRange", range e.selection)]

def entry (e : Entry) : Json := .obj (entryFields e)

mutual

def symbol : Symbol → Json
  | ⟨e, children⟩ =>
    .obj (entryFields e ++ if children.isEmpty then [] else [("children", .arr (symbols children))])

def symbols : List Symbol → List Json
  | [] => []
  | s :: rest => symbol s :: symbols rest

end

def fixData : FixData → Json
  | .magicNumber literal => .obj [("magicNumber", .str literal)]
  | .unusedVariable name => .obj [("unusedVariable", .str name)]
  | .missingMember member interface =>
    .obj [("interfaceName", .str interface), ("missingMember", .str member)]
  | .duplicateOf uri => .obj [("duplicateOf", .string uri)]

/-- A diagnostic with its fields in the order in which they are published. -/
def diagnostic (d : Diagnostic) : Json :=
  .obj ([("range", range d.range), ("severity", .num d.severity.protocolNumber),
    ("message", .string d.finding.message), ("source", .string Diagnostic.source),
    ("code", .string d.code)] ++
    (if d.finding.isUnnecessary then [("tags", .arr [.num 1])] else []) ++
    Json.field? "data" (d.finding.data?.map fixData))

def diagnostics (ds : List Diagnostic) : Json := .list diagnostic ds

end VbOutline.Protocol
