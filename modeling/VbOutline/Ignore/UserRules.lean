import VbOutline.Ignore.Rules
import VbOutline.Text.LetterCase
import VbOutline.Text.Utf8

/-!
# The user's own ignore file

A user may have one more ignore file for all directories. The configuration of version control names
it by the key `excludesFile`, in the file of the home directory or else in the one of the
configuration directory; without such a name it is the file `git/ignore` of the latter.
-/

namespace VbOutline

open Text

/-- Where the user's own files are. -/
structure UserPaths where
  home : Option Text
  /-- The directory of the configuration files. -/
  config : Text
  deriving DecidableEq, Repr

namespace Ignore

/-- White space of ASCII, line ends included. -/
def isBlank (c : Char) : Bool := c == ' ' || (0x09 ≤ c.toNat && c.toNat ≤ 0x0D)

def skipBlanks (s : Text) : Text := s.dropWhile isBlank

/-- Whether a line ends after some white space. -/
def endsLine (s : Text) : Bool := (s.takeWhile isBlank).contains '\n' || (skipBlanks s).isEmpty

/-- Whether a line ends after some white space and possibly a quote. -/
def endsValue (s : Text) : Bool :=
  endsLine s ||
    match skipBlanks s with
    | '"' :: rest => endsLine rest
    | _ => false

/-- The shortest word at the beginning of a text after which a value may end; `word` is the part
already read, in reverse. -/
def valueFrom? (word : Text) : Text → Option Text
  | [] => none
  | c :: rest =>
    if isBlank c then none
    else if endsValue rest then some (c :: word).reverse
    else valueFrom? (c :: word) rest

/-- The value after an equals sign, possibly in quotes. -/
def value? (s : Text) : Option Text :=
  match skipBlanks s with
  | '"' :: rest => (valueFrom? [] (skipBlanks rest)).or (valueFrom? [] ('"' :: rest))
  | rest => valueFrom? [] rest

def excludesKey : Text := "excludesfile".toList

/-- The value of the key that names the ignore file, if the text begins with that key. -/
def excludesHere? (s : Text) : Option Text :=
  let s := skipBlanks s
  if eqAscii (s.take excludesKey.length) excludesKey then
    match skipBlanks (s.drop excludesKey.length) with
    | '=' :: rest => value? rest
    | _ => none
  else none

/-- The first value of the key on the lines of a text; `atStart` tells whether a line begins here. -/
def excludesFrom? (atStart : Bool) : Text → Option Text
  | [] => none
  | c :: rest =>
    (if atStart then excludesHere? (c :: rest) else none).or (excludesFrom? (c == '\n') rest)

/-- The ignore file that the configuration file at a path names. -/
def excludesIn? (tree : FileTree) (path : Text) : Option Text :=
  match tree.find? path with
  | some (.file content) => excludesFrom? true (ofBytesLossy content.toList)
  | _ => none

/-- The tilde stands for the home directory. -/
def expandHome (home : Option Text) (path : Text) : Text :=
  match home with
  | some directory => path.flatMap fun c ↦ if c == '~' then directory else [c]
  | none => path

/-- The path of the user's ignore file; a relative name is seen from `directory`. -/
def userFile (tree : FileTree) (user : UserPaths) (directory : Text) : Text :=
  let inHome := user.home.bind fun home ↦ excludesIn? tree (Path.join home ".gitconfig".toList)
  match inHome.or (excludesIn? tree (Path.join user.config "git/config".toList)) with
  | some path => Path.join directory (expandHome user.home path)
  | none => Path.join user.config "git/ignore".toList

def userRules (tree : FileTree) (user : UserPaths) (directory : Text) : List Rule :=
  rulesAt tree (userFile tree user directory)

end Ignore

end VbOutline
