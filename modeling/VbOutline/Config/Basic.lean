import VbOutline.Check
import VbOutline.Json.Basic
import VbOutline.Workspace.Loading

/-!
# Configuration

What a project may configure, the values that hold when nothing is configured, and the two forms in
which a configuration is shown: as JSON, and as the TOML text that a new configuration file holds.
-/

namespace VbOutline

open Text

structure WorkspaceConfig where
  /-- Extensions of source files, without the point. -/
  extensions : List Text := ["vb".toList]
  /-- Names of files and directories that are ignored. -/
  ignoredPaths : List Text := ["bin", "obj", "packages", ".vs", ".simplevb"].map String.toList
  /-- The largest size of a source file; zero sets no limit. -/
  maxFileSizeMb : Nat := 2
  deriving DecidableEq, Repr

structure ValidationConfig where
  maxLineLength : Nat := 120
  /-- Codes of diagnostics that are not wanted. -/
  disabled : List Text := []
  deriving DecidableEq, Repr

/-- When diagnostics are brought up to date, in milliseconds. -/
structure DiagnosticsConfig where
  debounceMs : Nat := 300
  pollIntervalMs : Nat := 500
  deriving DecidableEq, Repr

structure OutputConfig where
  format : Text := "json".toList
  deriving DecidableEq, Repr

structure Config where
  workspace : WorkspaceConfig := {}
  validation : ValidationConfig := {}
  diagnostics : DiagnosticsConfig := {}
  output : OutputConfig := {}
  deriving DecidableEq, Repr

namespace Config

/-! ## Settings that follow from a configuration -/

/-- The largest size of a source file in bytes. -/
def maxFileSize (c : Config) : Nat :=
  if c.workspace.maxFileSizeMb == 0 then bound64 - 1 else c.workspace.maxFileSizeMb * megabyte

/-- The time between two scans, which is never shorter than 50 milliseconds. -/
def pollInterval (c : Config) : Nat := max c.diagnostics.pollIntervalMs 50

theorem pollInterval_pos (c : Config) : 0 < c.pollInterval := by
  simp only [pollInterval]
  omega

def checkOptions (c : Config) : Check.Options := ⟨c.validation.maxLineLength, c.validation.disabled⟩

/-- The workspace at a path, with the ignore files that are there now. -/
def openWorkspace (c : Config) (tree : FileTree) (user : UserPaths) (root : Text) : Workspace where
  filter := .create tree user root true c.workspace.ignoredPaths c.workspace.extensions
  maxFileSize := c.maxFileSize

/-! ## Written forms -/

def toJson (c : Config) : Json :=
  .obj [("workspace", .obj [("extensions", .list .str c.workspace.extensions),
      ("ignored_paths", .list .str c.workspace.ignoredPaths),
      ("max_file_size_mb", .num c.workspace.maxFileSizeMb)]),
    ("validation", .obj [("max_line_length", .num c.validation.maxLineLength),
      ("disabled", .list .str c.validation.disabled)]),
    ("diagnostics", .obj [("debounce_ms", .num c.diagnostics.debounceMs),
      ("poll_interval_ms", .num c.diagnostics.pollIntervalMs)]),
    ("output", .obj [("format", .str c.output.format)])]

/-- A string in quotes; the standard values need no escapes. -/
def quote (s : Text) : String := "\"" ++ String.ofList s ++ "\""

/-- A list of strings: on one line up to one string, otherwise one string on each line. -/
def listText (items : List Text) : String :=
  if items.length ≤ 1 then "[" ++ ", ".intercalate (items.map quote) ++ "]"
  else "[\n" ++ String.join (items.map fun s ↦ "    " ++ quote s ++ ",\n") ++ "]"

def sectionText (name : String) (fields : List (String × String)) : String :=
  "[" ++ name ++ "]\n" ++ String.join (fields.map fun (key, value) ↦ key ++ " = " ++ value ++ "\n")

/-- The text of a configuration file. -/
def toText (c : Config) : Text :=
  ("\n".intercalate
    [sectionText "workspace" [("extensions", listText c.workspace.extensions),
        ("ignored_paths", listText c.workspace.ignoredPaths),
        ("max_file_size_mb", decimalString c.workspace.maxFileSizeMb)],
      sectionText "validation" [("max_line_length", decimalString c.validation.maxLineLength),
        ("disabled", listText c.validation.disabled)],
      sectionText "diagnostics" [("debounce_ms", decimalString c.diagnostics.debounceMs),
        ("poll_interval_ms", decimalString c.diagnostics.pollIntervalMs)],
      sectionText "output" [("format", quote c.output.format)]]).toList

end Config

end VbOutline
