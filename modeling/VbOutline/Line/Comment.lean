import VbOutline.Text.Basic
import VbOutline.Text.Scan

/-!
# Comments and string literals of a line

A comment runs from the first apostrophe outside a string literal to the end of the line. A quote
opens or closes a literal, so a doubled quote inside a literal closes and reopens it.
-/

namespace VbOutline.Line

open Text

/-- Whether a literal is open after a character. -/
def quoteStep (quoted : Bool) (c : Char) : Bool := quoted != (c == '"')

/-- The characters of a line, each with whether it comes inside a literal. -/
def withQuotes (line : Text) : List (Bool × Char) := states quoteStep false line

def beginsComment (p : Bool × Char) : Bool := p.2 == '\'' && !p.1

/-- The code of a line, without its comment. -/
def stripComment (line : Text) : Text :=
  ((withQuotes line).takeWhile fun p ↦ !beginsComment p).map (·.2)

/-- The text of the comment of a line. -/
def comment? (line : Text) : Option Text :=
  match (withQuotes line).dropWhile fun p ↦ !beginsComment p with
  | [] => none
  | _ :: rest => some (rest.map (·.2))

/-- Blanks out the inside of literals byte by byte, so that offsets stay valid. -/
def maskStrings (code : Text) : Text :=
  (withQuotes code).flatMap fun (quoted, c) ↦
    if quoted && c != '"' then List.replicate c.utf8Size ' ' else [c]

/-- Whether the code ends with the continuation marker, an underscore that stands alone. -/
def isContinued (code : Text) : Bool :=
  let shown := trimEnd code
  shown == ['_'] || endsWith shown [' ', '_'] || endsWith shown ['\t', '_']

/-- The first line of code in `lines`, trimmed; blank lines and comments do not count. -/
def firstCode? (lines : List Text) : Option Text :=
  lines.findSome? fun line ↦
    let code := trim (stripComment line)
    if code.isEmpty then none else some code

/-- The first line of code after the line with the given index. -/
def nextCode? (lines : List Text) (index : Nat) : Option Text :=
  firstCode? (lines.drop (index + 1))

end VbOutline.Line
