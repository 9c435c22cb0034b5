import VbOutline.Json.Report
import VbOutline.Publisher
import VbOutline.Workspace.Loading

/-!
# Watching a workspace

A watch scans the workspace at fixed intervals, first at time zero. If any document is new or has
another text than in the scan before, or if one is gone, then all documents are scheduled for
validation, because a change in one of them can change the diagnostics of another. A document that
is gone is closed.
-/

namespace VbOutline

open Text

/-- The documents of the last scan, and the diagnostics that are scheduled. -/
structure Watch where
  publisher : Publisher
  seen : List Document
  deriving Repr

namespace Watch

def start (options : Check.Options) (delay : Nat) : Watch := ⟨.start options delay, []⟩

/-- The documents of the last scan that are no longer there. -/
def gone (w : Watch) (documents : List Document) : List Document :=
  w.seen.filter fun d ↦ !documents.any fun e ↦ e.uri == d.uri

/-- Whether a document was there in the last scan with the same text. -/
def isKnown (w : Watch) (d : Document) : Bool := w.seen.any fun e ↦ e.uri == d.uri && e.text == d.text

def closeAll (p : Publisher) : List Document → Publisher × List Publication
  | [] => (p, [])
  | d :: rest =>
    let closed := p.close d.uri
    let more := closeAll closed.1 rest
    (more.1, closed.2 :: more.2)

def changeAll (p : Publisher) (now : Nat) (outlines : List DocumentOutline) :
    List Document → Publisher
  | [] => p
  | d :: rest =>
    changeAll (p.change now d.uri ⟨d.text, DocumentOutline.others outlines d.uri⟩) now outlines rest

/-- Looks at the documents that are there now. -/
def rescan (w : Watch) (now : Nat) (documents : List Document) : Watch × List Publication :=
  let gone := w.gone documents
  let closed := closeAll w.publisher gone
  if gone.isEmpty && documents.all w.isKnown then ({ w with publisher := closed.1 }, closed.2)
  else
    let outlines := documents.map DocumentOutline.ofDocument
    (⟨changeAll closed.1 now outlines documents, documents⟩, closed.2)

/-- Validates what is due. -/
def run (w : Watch) (now : Nat) : Watch × List Publication :=
  let ran := w.publisher.run now
  ({ w with publisher := ran.1 }, ran.2)

end Watch

/-- A watch that scans a workspace on its own. -/
structure Watcher where
  root : Text
  workspace : Workspace
  watch : Watch
  /-- The time between two scans. -/
  interval : Nat
  interval_pos : 0 < interval
  nextScan : Nat
  deriving Repr

namespace Watcher

/-- Scans whenever it is time up to `now`, and validates what is due until then. What is due at the
time of a scan comes before it. -/
def advance (w : Watcher) (tree : FileTree) (now : Nat) : Watcher × List Publication :=
  if w.nextScan ≤ now then
    let ran := w.watch.run w.nextScan
    let scanned := ran.1.rescan w.nextScan (w.workspace.loadAll tree)
    let later := advance { w with watch := scanned.1, nextScan := w.nextScan + w.interval } tree now
    (later.1, ran.2 ++ scanned.2 ++ later.2)
  else
    let ran := w.watch.run now
    ({ w with watch := ran.1 }, ran.2)
termination_by now + 1 - w.nextScan
decreasing_by
  have := w.interval_pos
  omega

/-- When something is to be done next. -/
def nextEvent (w : Watcher) : Nat :=
  match w.watch.publisher.jobs.nextDue? with
  | some due => min due w.nextScan
  | none => w.nextScan

/-- The line that announces the diagnostics of a document. -/
def line (w : Watcher) (p : Publication) : Text :=
  (Json.obj [("file", .str (Path.relativeTo w.root (Uri.toPath p.uri.toList))),
    ("count", .num p.diagnostics.length), ("uri", .string p.uri),
    ("diagnostics", Protocol.diagnostics p.diagnostics)]).compact

end Watcher

end VbOutline
