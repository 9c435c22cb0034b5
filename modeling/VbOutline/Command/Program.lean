import VbOutline.Command.Response
import VbOutline.Watch

/-!
# The program

What becomes of a command line: it is refused, answered, or begins a watch. Answers are printed in
the format that is asked for or configured; a command line that the command refuses is answered over
several lines in any case.
-/

namespace VbOutline

open Text

inductive Outcome where
  | misused (error : UsageError)
  /-- The command itself refuses its arguments. -/
  | refused (message : String)
  | answered (format : Format) (response : Response)
  | watching (watcher : Watcher)
  deriving Repr

namespace Outcome

/-- What is printed at once. -/
def printed : Outcome → Text
  | misused (.version name) => (name ++ " " ++ Command.programVersion ++ "\n").toList
  | misused _ => []
  | refused message => Format.pretty.render (Response.failure message).toJson
  | answered format response => format.render response.toJson
  | watching _ => []

def exitCode : Outcome → Nat
  | misused (.version _) | misused .help => 0
  | misused _ | refused _ => 2
  | answered .. | watching _ => 0

end Outcome

namespace Project

def watcher (p : Project) (debounceMs : Option Nat) : Watcher where
  root := p.root
  workspace := p.workspace
  watch := .start p.config.checkOptions (debounceMs.getD p.config.diagnostics.debounceMs)
  interval := p.config.pollInterval
  interval_pos := p.config.pollInterval_pos
  nextScan := 0

/-- Runs a command; only the command that writes a configuration file changes the files. -/
def run (p : Project) (tree : FileTree) (command : Command) : Outcome × FileTree :=
  let answer (response : Response) : Outcome := .answered p.format response
  let answerOr (response : Except String Response) : Outcome :=
    match response with
    | .ok response => answer response
    | .error message => .refused message
  match command with
  | .symbols file kinds name depth => (answerOr (Response.symbols p tree file kinds name depth), tree)
  | .diagnostics file filter => (answer (Response.diagnostics p tree file filter), tree)
  | .check filter => (answer (Response.check p tree filter), tree)
  | .definition location => (answerOr (Response.definition p tree location), tree)
  | .implementations location limit =>
    (answerOr (Response.implementations p tree location limit), tree)
  | .watch debounceMs => (.watching (p.watcher debounceMs), tree)
  | .showConfig isGlobal => (answer (Response.showConfig p tree isGlobal), tree)
  | .configPath isGlobal => (answer (Response.configPath p tree isGlobal), tree)
  | .initConfig isGlobal overwrites =>
    let (response, tree) := Response.initConfig p tree isGlobal overwrites
    (answer response, tree)

end Project

/-- Runs a command line in a directory. -/
def runProgram (tree : FileTree) (env : Environment) (root : Text) (args : List Text) :
    Outcome × FileTree :=
  match Invocation.parse args with
  | .error e => (.misused e, tree)
  | .ok invocation =>
    let p := Project.create tree env root
    { p with format := invocation.format.getD p.format }.run tree invocation.command

end VbOutline
