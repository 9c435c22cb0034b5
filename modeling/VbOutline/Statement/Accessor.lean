import VbOutline.Statement.Header

/-!
# Property accessors

A property that is followed by an accessor has a body of its own; one that is not is implemented
automatically and closes at its header.
-/

namespace VbOutline

open Text Line

/-- The accessor keyword of a trimmed line that consists of an accessor: access modifiers, `Get` or
`Set`, and possibly a parameter list. -/
def accessorWord? (text : Text) : Option Text :=
  match keyword? ["get", "set"]
      (takeModifiers ["public", "private", "protected", "friend"] text).2 with
  | some (word, rest) =>
    match trimStart rest with
    | [] => some word
    | '(' :: tail => if tail.contains '\n' then none else some word
    | _ => none
  | none => none

def isAccessor (text : Text) : Bool := (accessorWord? text).isSome

namespace Header

/-- Whether the header opens a block that must be closed. Members of an interface and members
without a body open none, and a property opens one only if the next line of code is an accessor. -/
def opensBlock (h : Header) (insideInterface : Bool) (next : Option Text) : Bool :=
  match h.block with
  | .sub | .function => !insideInterface && !h.isBodyless
  | .property => !insideInterface && !h.isBodyless && next.any isAccessor
  | _ => true

end Header

end VbOutline
