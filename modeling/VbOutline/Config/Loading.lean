import VbOutline.Config.Basic
import VbOutline.Toml.Document

/-!
# Loading the configuration

The configuration of a project is laid over the one of the user, key by key, and variables of the
environment have the last word. Keys that are not known are passed over; a value of the wrong kind
is an error.

A section is written as a table. It may also be written as an array of the values of its fields in
their order, of which some at the end may be missing.
-/

namespace VbOutline

open Text

/-- What a program is told by its environment. -/
structure Environment where
  user : UserPaths
  outputFormat : Option Text
  maxLineLength : Option Text
  debounceMs : Option Text
  deriving DecidableEq, Repr

/-- The path of the user's configuration file. -/
def Environment.globalConfig (env : Environment) : Text :=
  Path.join env.user.config "simplevb/config.toml".toList

inductive ConfigError where
  /-- The file at a path is no TOML document. -/
  | malformed (path : Text)
  /-- A value has the wrong kind. -/
  | wrongKind
  | invalidValue (key message : String)
  | alreadyExists (path : Text)
  | file (error : FileError)
  deriving DecidableEq, Repr

namespace ConfigError

/-- How a message about the form of a configuration begins. -/
def formMessage : String := "Config parse error: "

def message : ConfigError → String
  | malformed path => formMessage ++ String.ofList path ++ ": not a TOML document"
  | wrongKind => formMessage ++ "a value has the wrong type"
  | invalidValue key message => "Invalid value for '" ++ key ++ "': " ++ message
  | alreadyExists path =>
    "Config already exists: " ++ String.ofList path ++ ". Use --force to overwrite"
  | file error => error.message

end ConfigError

/-! ## From TOML -/

namespace Toml

/-- A string; a moment counts as the string that it is written as. -/
def text? : Toml → Option Text
  | string s => some s
  | moment s => some s
  | _ => none

def texts? : Toml → Option (List Text)
  | array items => items.mapM text?
  | _ => none

/-- A number below a bound. -/
def natural? (bound : Nat) : Toml → Option Nat
  | integer n => if 0 ≤ n && n < bound then some n.toNat else none
  | _ => none

/-- The values of the fields of a section, as far as they are set. -/
def fields? (keys : List String) : Toml → Option (List (Option Toml))
  | table entries => some (keys.map fun key ↦ Entries.lookup? entries key.toList)
  | array items =>
    if items.length ≤ keys.length then
      some (items.map some ++ List.replicate (keys.length - items.length) none)
    else none
  | _ => none

/-- Reads a field that has a value if it is not set. -/
def fieldOr {α : Type} (default : α) (read : Toml → Option α) : Option Toml → Option α
  | some v => read v
  | none => some default

end Toml

namespace Config

open Toml

def workspaceOf? (value : Toml) : Option WorkspaceConfig := do
  match ← value.fields? ["extensions", "ignored_paths", "max_file_size_mb"] with
  | [extensions, ignoredPaths, maxFileSizeMb] =>
    let standard : WorkspaceConfig := {}
    some ⟨← fieldOr standard.extensions texts? extensions,
      ← fieldOr standard.ignoredPaths texts? ignoredPaths,
      ← fieldOr standard.maxFileSizeMb (natural? bound32) maxFileSizeMb⟩
  | _ => none

def validationOf? (value : Toml) : Option ValidationConfig := do
  match ← value.fields? ["max_line_length", "disabled"] with
  | [maxLineLength, disabled] =>
    let standard : ValidationConfig := {}
    some ⟨← fieldOr standard.maxLineLength (natural? bound64) maxLineLength,
      ← fieldOr standard.disabled texts? disabled⟩
  | _ => none

def diagnosticsOf? (value : Toml) : Option DiagnosticsConfig := do
  match ← value.fields? ["debounce_ms", "poll_interval_ms"] with
  | [debounceMs, pollIntervalMs] =>
    let standard : DiagnosticsConfig := {}
    some ⟨← fieldOr standard.debounceMs (natural? bound64) debounceMs,
      ← fieldOr standard.pollIntervalMs (natural? bound64) pollIntervalMs⟩
  | _ => none

def outputOf? (value : Toml) : Option OutputConfig := do
  match ← value.fields? ["format"] with
  | [format] =>
    let standard : OutputConfig := {}
    some ⟨← fieldOr standard.format text? format⟩
  | _ => none

/-- The configuration in a table. -/
def ofTable? (t : Toml.Table) : Option Config := do
  some ⟨← fieldOr {} workspaceOf? (t.lookup? "workspace".toList),
    ← fieldOr {} validationOf? (t.lookup? "validation".toList),
    ← fieldOr {} diagnosticsOf? (t.lookup? "diagnostics".toList),
    ← fieldOr {} outputOf? (t.lookup? "output".toList)⟩

/-! ## From files and the environment -/

/-- The table in the file at a path; a file that is not there holds nothing. -/
def readTable (tree : FileTree) (path : Text) : Except ConfigError Toml.Table :=
  if tree.pathExists path then
    match tree.readText path with
    | .error e => .error (.file e)
    | .ok text =>
      match Toml.parse? text with
      | some t => .ok t
      | none => .error (.malformed path)
  else .ok []

/-- Reads a number that the environment may set. -/
def fromVariable (key expected : String) (value : Option Text) (otherwise : Nat) :
    Except ConfigError Nat :=
  match value with
  | none => .ok otherwise
  | some text =>
    match unsigned? bound64 text with
    | some n => .ok n
    | none =>
      .error (.invalidValue key ("expected " ++ expected ++ ", got '" ++ String.ofList text ++ "'"))

/-- The configuration after the environment has had its word. -/
def overriddenBy (c : Config) (env : Environment) : Except ConfigError Config := do
  let maxLineLength ← fromVariable "SIMPLEVB_MAX_LINE_LENGTH" "a positive integer" env.maxLineLength
    c.validation.maxLineLength
  let debounceMs ← fromVariable "SIMPLEVB_DEBOUNCE_MS" "milliseconds" env.debounceMs
    c.diagnostics.debounceMs
  .ok { c with
    validation := { c.validation with maxLineLength }
    diagnostics := { c.diagnostics with debounceMs }
    output := ⟨env.outputFormat.getD c.output.format⟩ }

/-- Refuses values that make no sense. -/
def checked (c : Config) : Except ConfigError Config :=
  if c.validation.maxLineLength == 0 then
    .error (.invalidValue "validation.max_line_length" "must be positive")
  else if c.workspace.extensions.isEmpty then
    .error (.invalidValue "workspace.extensions" "at least one extension is required")
  else .ok c

def projectPath (root : Text) : Text :=
  Path.join (Path.join root FileFilter.projectDirectory) "config.toml".toList

/-- The path of the user's configuration file, or of the project's. -/
def pathOf (env : Environment) (root : Text) (isGlobal : Bool) : Text :=
  if isGlobal then env.globalConfig else projectPath root

/-- Loads the user's configuration and, unless only that is wanted, the project's over it. -/
def load (tree : FileTree) (env : Environment) (root : Text) (isGlobal : Bool) :
    Except ConfigError Config := do
  let below ← readTable tree env.globalConfig
  let above ← if isGlobal then .ok [] else readTable tree (projectPath root)
  match ofTable? (Toml.merge below above) with
  | none => .error .wrongKind
  | some c => (← c.overriddenBy env).checked

/-- Writes a configuration file with the standard values. -/
def init (tree : FileTree) (path : Text) (overwrites : Bool) : Except ConfigError FileTree :=
  if tree.pathExists path && !overwrites then .error (.alreadyExists path)
  else
    match tree.writeText (Path.names path) ({} : Config).toText with
    | .ok tree => .ok tree
    | .error e => .error (.file e)

end Config

end VbOutline
