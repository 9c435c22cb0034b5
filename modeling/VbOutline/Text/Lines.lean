import VbOutline.Text.Basic

/-!
# Lines of a text

A line ends at a line feed. A carriage return directly before that line feed belongs to the line
end; any other carriage return is text. What follows the last line feed is a line only if it is not
empty.
-/

namespace VbOutline.Text

/-- Drops one carriage return at the end. -/
def dropReturn (s : Text) : Text :=
  if s.getLast? == some '\r' then s.dropLast else s

def lines (s : Text) : List Text :=
  let parts := splitAll '\n' s
  let last := parts.getLast?.getD []
  parts.dropLast.map dropReturn ++ if last.isEmpty then [] else [last]

end VbOutline.Text
