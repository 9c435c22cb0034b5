import VbOutline.Json.Report

/-!
# Arguments of a command line

A command line is a row of arguments: names of commands, options with or without values, and other
arguments, of which a command takes at most one. After two hyphens alone, nothing is an option any
more. The value of an option stands after an equality sign or in the next argument, which must not
look like an option.

The values of an option are looked at when the next option or argument begins or the arguments end.
So an option that is not known is noticed before a bad value of the option before it.
-/

namespace VbOutline

open Text

/-- Why a command line is refused, or what it asks for instead of a command. -/
inductive UsageError where
  | unknownCommand
  | unknownArgument
  /-- An argument that the command needs is not there. -/
  | missingArgument
  | badValue
  /-- An option stands without its value, or a file without a name. -/
  | missingValue
  | repeatedOption
  /-- A value is given to an option that takes none. -/
  | unwantedValue
  /-- Options are given, but no command. -/
  | missingCommand
  /-- Nothing is given where a command is needed. -/
  | nothingGiven
  | help
  /-- The version of the program or command of that name is asked for. -/
  | version (name : String)
  deriving DecidableEq, Repr

inductive ValueKind where
  | text
  | path
  /-- A number of 32 bits; a zero may have a minus sign. -/
  | level
  /-- A number of 64 bits. -/
  | number
  | format
  | severity
  deriving DecidableEq, Repr

/-- Reads a number of levels. -/
def levelOf? (s : Text) : Option Nat :=
  match s with
  | '-' :: digits => (digits? digits).filter (· == 0)
  | _ => unsigned? bound32 s

/-- What is wrong with a value. -/
def ValueKind.fault? (kind : ValueKind) (s : Text) : Option UsageError :=
  let badUnless (isGood : Bool) : Option UsageError := if isGood then none else some .badValue
  match kind with
  | text => none
  | path => if s.isEmpty then some .missingValue else none
  | level => badUnless (levelOf? s).isSome
  | number => badUnless (unsigned? bound64 s).isSome
  | format => badUnless (Format.ofName? s).isSome
  | severity => badUnless (Severity.ofName? s).isSome

/-! ## Commands and their options -/

/-- What an option does. -/
inductive OptionRole where
  | flag
  | help
  | version
  | value (kind : ValueKind)
  /-- Values with commas between them, which add up if the option is given again. -/
  | values (kind : ValueKind)
  deriving DecidableEq, Repr

def OptionRole.takesValue : OptionRole → Bool
  | value _ | values _ => true
  | _ => false

structure OptionSpec where
  name : String
  short : Option Char
  role : OptionRole
  deriving DecidableEq, Repr

/-- What a command takes. A command with commands of its own needs one of them. -/
inductive CommandSpec where
  | mk (name : String) (options : List OptionSpec) (argument : Option OptionSpec)
    (commands : List CommandSpec)

namespace CommandSpec

def name : CommandSpec → String
  | mk name .. => name

/-- The options of a command; all commands have help and version. -/
def options : CommandSpec → List OptionSpec
  | mk _ options .. => options ++ [⟨"help", some 'h', .help⟩, ⟨"version", some 'V', .version⟩]

/-- The argument that a command needs. -/
def argument : CommandSpec → Option OptionSpec
  | mk _ _ argument _ => argument

def commands : CommandSpec → List CommandSpec
  | mk _ _ _ commands => commands

def command? (spec : CommandSpec) (arg : Text) : Option CommandSpec :=
  spec.commands.find? fun c ↦ c.name.toList == arg

/-- A command with commands of its own also has one that shows help. -/
def isHelp (spec : CommandSpec) (arg : Text) : Bool :=
  !spec.commands.isEmpty && arg == "help".toList

/-- The command that shows help; it has no commands of its own. -/
def helpCommand : CommandSpec := mk "help" [] none []

/-- What becomes of a request for help on the command that is reached by the given names. -/
def helpOn (spec : CommandSpec) : List Text → UsageError
  | [] => .help
  | arg :: rest =>
    if spec.isHelp arg then helpCommand.helpOn rest
    else
      match spec.command? arg with
      | some inner => inner.helpOn rest
      | none => .unknownCommand

def long? (spec : CommandSpec) (name : Text) : Option OptionSpec :=
  spec.options.find? fun o ↦ o.name.toList == name

def short? (spec : CommandSpec) (c : Char) : Option OptionSpec :=
  spec.options.find? fun o ↦ o.short == some c

end CommandSpec

/-! ## Reading -/

/-- Values under the names of options; the first entry of a name counts. -/
abbrev OptionValues := List (String × List Text)

/-- The names of the chosen command and the values of all options. -/
structure Matches where
  names : List String
  values : OptionValues
  deriving DecidableEq, Repr

namespace Matches

def all? (m : Matches) (name : String) : Option (List Text) := m.values.lookup name

def one? (m : Matches) (name : String) : Option Text := (m.all? name).bind List.head?

def has (m : Matches) (name : String) : Bool := (m.all? name).isSome

end Matches

/-- How far the arguments of a command are read. -/
structure Reading where
  values : OptionValues := []
  /-- An option or argument whose values are not yet looked at. -/
  pending : Option (OptionSpec × List Text) := none
  /-- Whether the next argument is the value of the pending option. -/
  isAwaiting : Bool := false
  hasArgument : Bool := false
  /-- Whether nothing is an option any more. -/
  isTrailing : Bool := false
  deriving DecidableEq, Repr

namespace Reading

def checkAll (kind : ValueKind) (given : List Text) : Except UsageError (List Text) :=
  match given.findSome? kind.fault? with
  | some e => .error e
  | none => .ok given

/-- Looks at the values that an option is given. `title` is the name of the command. -/
def store (title : String) (r : Reading) (o : OptionSpec) (given : List Text) :
    Except UsageError Reading :=
  let done (values : OptionValues) : Reading := { r with values, pending := none, isAwaiting := false }
  let earlier := r.values.lookup o.name
  match o.role with
  | .help => .error .help
  | .version => .error (.version title)
  | .flag => if earlier.isSome then .error .repeatedOption else .ok (done ((o.name, []) :: r.values))
  | .value kind =>
    if given.isEmpty then .error .missingValue
    else if earlier.isSome then .error .repeatedOption
    else do
      let given ← checkAll kind given
      .ok (done ((o.name, given) :: r.values))
  | .values kind =>
    if given.isEmpty then .error .missingValue
    else do
      let given ← checkAll kind (given.flatMap (splitAll ','))
      .ok (done ((o.name, earlier.getD [] ++ given) :: r.values))

/-- Looks at the values of the pending option. -/
def settle (title : String) (r : Reading) : Except UsageError Reading :=
  match r.pending with
  | some (o, given) => r.store title o given
  | none => .ok r

/-- Begins an option, with its value if that is attached. -/
def begin (title : String) (r : Reading) (o : OptionSpec) (attached : Option Text) :
    Except UsageError Reading := do
  let r ← r.settle title
  match attached with
  | some value => r.store title o [value]
  | none =>
    if o.role.takesValue then .ok { r with pending := some (o, []), isAwaiting := true }
    else r.store title o []

/-- An option with a long name, after its two hyphens. -/
def long (title : String) (spec : CommandSpec) (r : Reading) (s : Text) : Except UsageError Reading :=
  let (name, attached) := match splitFirst? '=' s with
    | some (name, value) => (name, some value)
    | none => (s, none)
  match spec.long? name with
  | none => .error .unknownArgument
  | some o =>
    if attached.isSome && !o.role.takesValue then .error .unwantedValue
    else r.begin title o attached

/-- Options with short names, after their hyphen. -/
def short (title : String) (spec : CommandSpec) (r : Reading) : Text → Except UsageError Reading
  | [] => .ok r
  | c :: rest =>
    match spec.short? c with
    | none => .error .unknownArgument
    | some o =>
      if o.role.takesValue then
        r.begin title o (match rest with
          | [] => none
          | '=' :: value => some value
          | _ => some rest)
      else do short title spec (← r.begin title o none) rest

/-- An argument that is no option. -/
def plain (title : String) (spec : CommandSpec) (r : Reading) (arg : Text) :
    Except UsageError Reading :=
  match spec.argument with
  | some o =>
    if r.hasArgument then .error .unknownArgument
    else do
      let r ← r.settle title
      .ok { r with pending := some (o, [arg]), hasArgument := true }
  | none =>
    let namesCommand := (spec.command? arg).isSome || spec.isHelp arg
    .error (if spec.commands.isEmpty || (r.isTrailing && namesCommand) then .unknownArgument
      else .unknownCommand)

/-- An argument that names no command. -/
def next (title : String) (spec : CommandSpec) (r : Reading) (arg : Text) :
    Except UsageError Reading :=
  match arg with
  | ['-', '-'] => .ok { r with isTrailing := true }
  | '-' :: '-' :: rest => r.long title spec rest
  | '-' :: c :: rest => r.short title spec (c :: rest)
  | _ =>
    match r.isAwaiting, r.pending with
    | true, some (o, _) => .ok { r with pending := some (o, [arg]), isAwaiting := false }
    | _, _ => r.plain title spec arg

/-- Checks at the end of the arguments that nothing is missing. -/
def finish (title : String) (spec : CommandSpec) (r : Reading) (inner : Option Matches) :
    Except UsageError Matches := do
  let r ← r.settle title
  match inner with
  | some m => .ok ⟨spec.name :: m.names, m.values ++ r.values⟩
  | none =>
    if !spec.commands.isEmpty then
      .error (if r.values.isEmpty then .nothingGiven else .missingCommand)
    else if spec.argument.isSome && !r.hasArgument then .error .missingArgument
    else .ok ⟨[spec.name], r.values⟩

end Reading

/-- Reads the arguments of a command. -/
def readArguments (title : String) (spec : CommandSpec) (r : Reading) :
    List Text → Except UsageError Matches
  | [] => r.finish title spec none
  | arg :: rest =>
    if r.isTrailing then do readArguments title spec (← r.plain title spec arg) rest
    else if !r.isAwaiting && spec.isHelp arg then .error (spec.helpOn rest)
    else
      match if r.isAwaiting then none else spec.command? arg with
      | some inner => do
        let m ← readArguments (title ++ "-" ++ inner.name) inner {} rest
        r.finish title spec (some m)
      | none => do readArguments title spec (← r.next title spec arg) rest

end VbOutline
