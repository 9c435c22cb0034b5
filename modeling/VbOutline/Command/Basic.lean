import VbOutline.Command.Arguments

/-!
# Commands

The commands of the program, the options that they take, and the command that a command line stands
for.
-/

namespace VbOutline

open Text

inductive Command where
  /-- The symbols of a file: of certain kinds, with a certain text in their names, or down to a
  certain level. -/
  | symbols (file : Text) (kinds : Option (List Text)) (name : Option Text) (depth : Option Nat)
  | diagnostics (file : Text) (filter : DiagnosticFilter)
  | check (filter : DiagnosticFilter)
  | definition (location : Text)
  | implementations (location : Text) (limit : Option Nat)
  | watch (debounceMs : Option Nat)
  | initConfig (isGlobal overwrites : Bool)
  | showConfig (isGlobal : Bool)
  | configPath (isGlobal : Bool)
  deriving DecidableEq, Repr

/-- A command with the format that is asked for. -/
structure Invocation where
  format : Option Format
  command : Command
  deriving DecidableEq, Repr

namespace Command

def programName : String := "simplevb"

def programVersion : String := "0.4.0"

/-! ## What the commands take -/

def formatOption : OptionSpec := ⟨"format", none, .value .format⟩

def globalFlag : OptionSpec := ⟨"global", none, .flag⟩

def filterOptions : List OptionSpec :=
  [⟨"severity", some 's', .values .severity⟩, ⟨"code", none, .values .text⟩]

/-- A command that needs no other command; all of them take a format. -/
def leaf (name : String) (options : List OptionSpec) (argument : Option OptionSpec) : CommandSpec :=
  .mk name (formatOption :: options) argument []

def file : OptionSpec := ⟨"file", none, .value .path⟩

def location : OptionSpec := ⟨"location", none, .value .text⟩

def grammar : CommandSpec :=
  .mk programName [formatOption] none
    [leaf "symbols" [⟨"kind", none, .values .text⟩, ⟨"name", some 'n', .value .text⟩,
        ⟨"depth", some 'd', .value .level⟩] (some file),
      leaf "diagnostics" filterOptions (some file),
      leaf "check" filterOptions none,
      leaf "definition" [] (some location),
      leaf "implementations" [⟨"limit", none, .value .number⟩] (some location),
      leaf "watch" [⟨"debounce-ms", none, .value .number⟩] none,
      .mk "config" [formatOption] none
        [leaf "init" [globalFlag, ⟨"force", some 'f', .flag⟩] none,
          leaf "show" [globalFlag] none,
          leaf "path" [globalFlag] none]]

/-! ## From a command line -/

def filterOf (m : Matches) : DiagnosticFilter where
  severities := (m.all? "severity").map fun names ↦ names.filterMap Severity.ofName?
  codes := m.all? "code"

def ofMatches? (m : Matches) : Option Command :=
  let file := (m.one? "file").getD []
  let location := (m.one? "location").getD []
  match m.names with
  | [_, "symbols"] =>
    some (.symbols file (m.all? "kind") (m.one? "name") ((m.one? "depth").bind levelOf?))
  | [_, "diagnostics"] => some (.diagnostics file (filterOf m))
  | [_, "check"] => some (.check (filterOf m))
  | [_, "definition"] => some (.definition location)
  | [_, "implementations"] =>
    some (.implementations location ((m.one? "limit").bind (unsigned? bound64)))
  | [_, "watch"] => some (.watch ((m.one? "debounce-ms").bind (unsigned? bound64)))
  | [_, "config", "init"] => some (.initConfig (m.has "global") (m.has "force"))
  | [_, "config", "show"] => some (.showConfig (m.has "global"))
  | [_, "config", "path"] => some (.configPath (m.has "global"))
  | _ => none

end Command

/-- Reads a command line without the name of the program. -/
def Invocation.parse (args : List Text) : Except UsageError Invocation := do
  let m ← readArguments Command.programName Command.grammar {} args
  match Command.ofMatches? m with
  | some command => .ok ⟨(m.one? "format").bind Format.ofName?, command⟩
  | none => .error .missingCommand

end VbOutline
