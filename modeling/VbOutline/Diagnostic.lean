import VbOutline.Position
import VbOutline.Statement.Block
import VbOutline.Text.Decimal

/-!
# Diagnostics

A finding is what a check has to say about a range of a document. Its code, severity, wording and
the data for a quick fix follow from it.
-/

namespace VbOutline

open Text

inductive Severity where
  | error
  | warning
  | information
  | hint
  deriving DecidableEq, Repr

namespace Severity

def name : Severity → String
  | error => "error"
  | warning => "warning"
  | information => "info"
  | hint => "hint"

/-- The number of the severity in the Language Server Protocol. -/
def protocolNumber : Severity → Nat
  | error => 1
  | warning => 2
  | information => 3
  | hint => 4

/-- The severity with a number of the Language Server Protocol; an unknown number is a hint. -/
def ofProtocolNumber (n : Int) : Severity :=
  if n == 1 then error else if n == 2 then warning else if n == 3 then information else hint

/-- The names under which a severity may be asked for. -/
def names : List (String × Severity) :=
  [("error", error), ("e", error), ("warning", warning), ("warn", warning), ("w", warning),
    ("info", information), ("information", information), ("i", information), ("hint", hint),
    ("h", hint)]

/-- Reads the name of a severity in any case. -/
def ofName? (s : Text) : Option Severity :=
  (names.find? fun p ↦ p.1.toList == lower s).map (·.2)

def unknownMessage (s : Text) : String :=
  "Unknown severity: '" ++ String.ofList s ++ "'. Valid: error, warning, info, hint"

end Severity

inductive Finding where
  | missingThen
  | untypedVariable (name : Text)
  | uninitializedConst (name : Text)
  | lineTooLong (length limit : Nat)
  | todoComment (note : Text)
  | magicNumber (literal : Text)
  | missingReturnType (block : Block) (name : Text)
  | namingConvention (name : Text)
  /-- A closing statement that does not fit the open block, which began at the given line. -/
  | mismatchedBlock (block : Block) (line : Nat) (found : String)
  | unexpectedClosing (found : String)
  | missingClosing (block : Block) (line : Nat)
  | unreachableCode
  | emptyBlock (label : String) (isBranch : Bool)
  | unusedVariable (name : Text)
  | missingMember (owner member interface : Text)
  | duplicateDeclaration (kind : SymbolKind) (name : Text) (uri : String)
  deriving DecidableEq, Repr

/-- What a quick fix needs to know. -/
inductive FixData where
  | magicNumber (literal : Text)
  | unusedVariable (name : Text)
  | missingMember (member interface : Text)
  | duplicateOf (uri : String)
  deriving DecidableEq, Repr

namespace Finding

def code : Finding → String
  | missingThen => "missing-then"
  | untypedVariable _ => "untyped-variable"
  | uninitializedConst _ => "uninitialized-const"
  | lineTooLong _ _ => "line-too-long"
  | todoComment _ => "todo-comment"
  | magicNumber _ => "magic-number"
  | missingReturnType _ _ => "missing-return-type"
  | namingConvention _ => "naming-convention"
  | mismatchedBlock _ _ _ => "mismatched-block"
  | unexpectedClosing _ => "unexpected-closing"
  | missingClosing _ _ => "missing-closing"
  | unreachableCode => "unreachable-code"
  | emptyBlock _ _ => "empty-block"
  | unusedVariable _ => "unused-variable"
  | missingMember _ _ _ => "missing-member"
  | duplicateDeclaration _ _ _ => "duplicate-declaration"

def severity : Finding → Severity
  | missingThen | uninitializedConst _ | mismatchedBlock _ _ _ | unexpectedClosing _
  | missingClosing _ _ | missingMember _ _ _ | duplicateDeclaration _ _ _ => .error
  | untypedVariable _ | lineTooLong _ _ | missingReturnType _ _ | unreachableCode => .warning
  | todoComment _ | magicNumber _ | namingConvention _ | emptyBlock _ _ | unusedVariable _ =>
    .information

/-- Whether the finding is about code that can be removed. -/
def isUnnecessary : Finding → Bool
  | unreachableCode | unusedVariable _ => true
  | _ => false

def quote (s : String) : String := "'" ++ s ++ "'"

def quoteText (t : Text) : String := quote (String.ofList t)

def message : Finding → String
  | missingThen => "'If' statement is missing 'Then'"
  | untypedVariable name =>
    "Variable " ++ quoteText name ++ " is declared without a type ('As <Type>')"
  | uninitializedConst name => "Constant " ++ quoteText name ++ " must be initialized"
  | lineTooLong length limit =>
    "Line is " ++ decimalString length ++ " characters long (maximum " ++ decimalString limit ++ ")"
  | todoComment note => String.ofList note
  | magicNumber literal =>
    "Magic number " ++ String.ofList literal ++ "; consider a named constant"
  | missingReturnType block name =>
    block.keyword ++ " " ++ quoteText name ++ " is missing a return type ('As <Type>')"
  | namingConvention name => "Local variable " ++ quoteText name ++ " should be camelCase"
  | mismatchedBlock block line found =>
    "Mismatched block: expected " ++ quote block.closing ++ " to close " ++ quote block.keyword ++
      " opened at line " ++ decimalString line ++ ", found " ++ quote found
  | unexpectedClosing found => "Unexpected closing statement " ++ quote found
  | missingClosing block line =>
    "Missing closing statement " ++ quote block.closing ++ " for " ++ quote block.keyword ++
      " opened at line " ++ decimalString line
  | unreachableCode => "Unreachable code"
  | emptyBlock label isBranch =>
    "Empty " ++ quote label ++ (if isBranch then " branch" else " block")
  | unusedVariable name => "Variable " ++ quoteText name ++ " is declared but never used"
  | missingMember owner member interface =>
    quoteText owner ++ " does not implement " ++ quoteText member ++ " from interface " ++
      quoteText interface
  | duplicateDeclaration kind name uri =>
    "Duplicate declaration of " ++ kind.name ++ " " ++ quoteText name ++ " (also declared in " ++
      uri ++ ")"

def data? : Finding → Option FixData
  | magicNumber literal => some (.magicNumber literal)
  | unusedVariable name => some (.unusedVariable name)
  | missingMember _ member interface => some (.missingMember member interface)
  | duplicateDeclaration _ _ uri => some (.duplicateOf uri)
  | _ => none

end Finding

structure Diagnostic where
  range : Range
  finding : Finding
  deriving DecidableEq, Repr

namespace Diagnostic

/-- The name under which diagnostics are published. -/
def source : String := "SimpleVB"

def code (d : Diagnostic) : String := d.finding.code

def severity (d : Diagnostic) : Severity := d.finding.severity

end Diagnostic

end VbOutline
