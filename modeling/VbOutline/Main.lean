import VbOutline.Command.Program

/-!
# The command line

The files below the current directory, the user's configuration file, the ignore files above and
the files that arguments name are read into a file tree. The program runs on the tree, and what it
has changed in the configuration files is written back.
-/

namespace VbOutline.Shell

open Text

/-- The directory of version control, of which only one ignore file is read. -/
def readExclude (path : String) : IO FileTree := do
  let content ← IO.FS.readBinFile (path ++ "/info/exclude")
  return .put (.file content) .empty (["info", "exclude"].map String.toList)

/-- Reads the files below a directory. Links to directories are not followed, and what cannot be
read is left out. -/
partial def readTree (path : String) : IO FileTree := do
  let mut entries : Array (Text × FileTree) := #[]
  for entry in ← (← IO.FS.realPath path).readDir do
    let name := entry.fileName.toList
    let inner := path ++ "/" ++ entry.fileName
    try
      match (← entry.path.symlinkMetadata).type with
      | .dir =>
        if name == ".git".toList then entries := entries.push (name, ← readExclude inner)
        else unless FileFilter.alwaysIgnored.contains name do
          entries := entries.push (name, ← readTree inner)
      | _ => entries := entries.push (name, .file (← IO.FS.readBinFile inner))
    catch _ => pure ()
  return .directory entries.toList

/-- Adds the file at a path to a tree, if there is one. -/
def addFile (tree : FileTree) (path : Text) : IO FileTree := do
  try
    let real := (← IO.FS.realPath (String.ofList path)).toString
    let content ← IO.FS.readBinFile real
    return .put (.file content) tree (Path.names real.toList)
  catch _ => return tree

/-- The files that an argument may name, by itself or with a position. -/
def filesNamedBy (root : Text) (arg : String) : List Text :=
  let atPosition := (Location.parse arg.toList).toOption.map fun l ↦ l.file
  (arg.toList :: atPosition.toList).map (Path.join root)

/-- The ignore files of the directories above a place. -/
def ignoreFilesAbove (place : List Text) : List Text :=
  (List.range place.length).flatMap fun n ↦
    [".ignore", ".gitignore", ".git/info/exclude"].map fun name ↦
      Path.join (Path.ofNames (place.take n)) name.toList

/-- The configuration files of version control. -/
def gitConfigs (user : UserPaths) : List Text :=
  Path.join user.config "git/config".toList ::
    user.home.toList.map fun home ↦ Path.join home ".gitconfig".toList

def addFiles (tree : FileTree) (paths : List Text) : IO FileTree :=
  paths.foldlM (fun tree path ↦ do
    if tree.pathExists path then return tree else addFile tree path) tree

def readFiles (env : Environment) (root : Text) (args : List String) : IO FileTree := do
  let below := FileTree.put (← readTree (String.ofList root)) .empty (Path.names root)
  let tree ← addFiles below (env.globalConfig :: gitConfigs env.user ++
    ignoreFilesAbove (Path.names root) ++ args.flatMap (filesNamedBy root))
  addFiles tree [Ignore.userFile tree env.user root]

/-- The directory of the user's configuration files. -/
def configHome : IO String := do
  match ← IO.getEnv "XDG_CONFIG_HOME", ← IO.getEnv "HOME" with
  | some directory, _ => return directory
  | none, some home => return home ++ "/.config"
  | none, none => return "."

def readEnvironment : IO Environment := do
  let get (key : String) : IO (Option Text) := return (← IO.getEnv key).map String.toList
  return {
    user := { home := ← get "HOME", config := (← configHome).toList }
    outputFormat := ← get "SIMPLEVB_OUTPUT_FORMAT"
    maxLineLength := ← get "SIMPLEVB_MAX_LINE_LENGTH"
    debounceMs := ← get "SIMPLEVB_DEBOUNCE_MS" }

/-- Writes a file if its text has changed. -/
def writeBack (before after : FileTree) (path : Text) : IO Unit := do
  let text? (tree : FileTree) : Option Text := (tree.readText path).toOption
  if text? before != text? after then
    if let some text := text? after then
      IO.FS.createDirAll (String.ofList (Path.ofNames (Path.names path).dropLast))
      IO.FS.writeBinFile (String.ofList path) (FileTree.encode text)

/-- Scans and prints until the program is stopped. -/
partial def watch (readNow : IO FileTree) (started : Nat) (w : Watcher) : IO Unit := do
  let now := (← IO.monoMsNow) - started
  let (w, sent) := w.advance (← readNow) now
  let out ← IO.getStdout
  for p in sent do
    out.putStrLn (String.ofList (w.line p))
  out.flush
  let pause := w.nextEvent - ((← IO.monoMsNow) - started)
  IO.sleep (UInt32.ofNat (max 1 (min pause 1000)))
  watch readNow started w

def usage : String :=
  "Usage: simplevb [--format FORMAT] COMMAND\n" ++
    "Commands: symbols, diagnostics, check, definition, implementations, watch, config"

end VbOutline.Shell

open VbOutline in
def main (args : List String) : IO UInt32 := do
  let root := (← IO.FS.realPath (← IO.currentDir)).toString.toList
  let env ← Shell.readEnvironment
  let before ← Shell.readFiles env root args
  let (outcome, after) := runProgram before env root (args.map String.toList)
  (← IO.getStdout).putStr (String.ofList outcome.printed)
  match outcome with
  | .misused (.version _) => pure ()
  | .misused _ => IO.eprintln Shell.usage
  | .watching w => Shell.watch (Shell.readFiles env root args) (← IO.monoMsNow) w
  | _ => [env.globalConfig, Config.projectPath root].forM (Shell.writeBack before after)
  return UInt32.ofNat outcome.exitCode
