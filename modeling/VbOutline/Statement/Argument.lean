import VbOutline.Line.Bracket

/-!
# Arguments

The arguments of a parameter list: attributes and passing modifiers before a name are left out, and
a piece without a name is no argument.
-/

namespace VbOutline

open Text Line

structure Argument where
  name : Text
  offset : Nat
  /-- The argument from its name on, such as `x As Integer = 5`. -/
  signature : Text
  deriving DecidableEq, Repr

namespace Argument

/-- Passes over the attributes; there is no argument if one of them is not closed. -/
def skipAttributes (s : Text) : Option Text :=
  if s.head? == some '<' then
    match _h : splitFirst? '>' s with
    | some (_, rest) => skipAttributes (trimStart rest)
    | none => none
  else some s
termination_by s.length
decreasing_by
  have h1 := length_splitFirst?_lt _h
  have h2 : (trimStart rest).length ≤ rest.length := length_dropWhile_le _ rest
  omega

def isPassing (word : Text) : Bool :=
  ["ByVal", "ByRef", "Optional", "ParamArray"].any fun m ↦ eqAscii word m.toList

/-- Passes over the passing modifiers; the last word is never one. -/
def skipPassing (s : Text) : Text :=
  if _h : isPassing (leadingChunk s) = true ∧ afterChunk s ≠ [] then
    skipPassing (trimStart (afterChunk s))
  else s
termination_by s.length
decreasing_by exact length_trimStart_lt _h.2

/-- Reads one piece of a parameter list that begins at byte `offset` of the line. -/
def ofPiece? (offset : Nat) (piece : Text) : Option Argument :=
  match skipAttributes (trimStart piece) with
  | some declared =>
    let rest := skipPassing declared
    let name := rest.takeWhile isIdentChar
    if name.isEmpty || name.head?.any isAsciiDigit then none
    else
      some
        { name
          offset := offset + offsetOf piece rest
          signature := trimEnd (dropUnderscores (trimEnd rest)) }
  | none => none

/-- The arguments of a parameter list that begins at byte `offset` of the line. -/
def parse (params : Text) (offset : Nat) : List Argument :=
  (splitTopLevel params).filterMap fun (start, piece) ↦ ofPiece? (offset + start) piece

end Argument

end VbOutline
