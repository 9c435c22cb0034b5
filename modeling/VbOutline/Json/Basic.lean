import VbOutline.Text.Decimal

/-!
# JSON

The values that answers are made of, and their two layouts: on one line, or with two spaces of
indentation and an empty list or object closed at once. Only quotes, backslashes and control
characters are escaped.
-/

namespace VbOutline

open Text

inductive Json where
  | null
  | bool (value : Bool)
  | num (value : Nat)
  | str (value : Text)
  | arr (items : List Json)
  | obj (fields : List (String × Json))
  deriving Repr

namespace Json

def string (s : String) : Json := str s.toList

def list {α : Type} (f : α → Json) (xs : List α) : Json := arr (xs.map f)

/-- A field that is left out when it has no value. -/
def field? (key : String) (value : Option Json) : List (String × Json) :=
  match value with
  | some v => [(key, v)]
  | none => []

def lowerHex (n : Nat) : Char := ("0123456789abcdef".toList)[n]?.getD '0'

def escape (c : Char) : Text :=
  if c == '"' then ['\\', '"']
  else if c == '\\' then ['\\', '\\']
  else if c == '\n' then ['\\', 'n']
  else if c == '\r' then ['\\', 'r']
  else if c == '\t' then ['\\', 't']
  else if c.toNat == 8 then ['\\', 'b']
  else if c.toNat == 12 then ['\\', 'f']
  else if c.toNat < 32 then ['\\', 'u', '0', '0', lowerHex (c.toNat / 16), lowerHex (c.toNat % 16)]
  else [c]

/-- A string in quotes, before `rest`. -/
def quotedOnto (s rest : Text) : Text := '"' :: s.flatMap escape ++ '"' :: rest

/-- What stands before an item: a comma, unless it is the first one. -/
def comma (isFirst : Bool) (rest : Text) : Text := if isFirst then rest else ',' :: rest

mutual

/-- The value on one line, before `rest`. -/
def compactOnto : Json → Text → Text
  | null, rest => "null".toList ++ rest
  | bool true, rest => "true".toList ++ rest
  | bool false, rest => "false".toList ++ rest
  | num n, rest => decimal n ++ rest
  | str s, rest => quotedOnto s rest
  | arr items, rest => '[' :: compactItems true items (']' :: rest)
  | obj fields, rest => '\x7b' :: compactFields true fields ('\x7d' :: rest)

def compactItems (isFirst : Bool) : List Json → Text → Text
  | [], rest => rest
  | v :: more, rest => comma isFirst (compactOnto v (compactItems false more rest))

def compactFields (isFirst : Bool) : List (String × Json) → Text → Text
  | [], rest => rest
  | (key, v) :: more, rest =>
    comma isFirst
      (quotedOnto key.toList (':' :: compactOnto v (compactFields false more rest)))

end

/-- The value on one line. -/
def compact (v : Json) : Text := compactOnto v []

/-- A line end and the indentation of the next line. -/
def newline (indent : Nat) (rest : Text) : Text := '\n' :: (List.replicate (2 * indent) ' ' ++ rest)

mutual

/-- The value over several lines, before `rest`; its first line is indented by `indent` steps. -/
def prettyOnto (indent : Nat) : Json → Text → Text
  | null, rest => "null".toList ++ rest
  | bool true, rest => "true".toList ++ rest
  | bool false, rest => "false".toList ++ rest
  | num n, rest => decimal n ++ rest
  | str s, rest => quotedOnto s rest
  | arr [], rest => '[' :: ']' :: rest
  | arr (v :: more), rest =>
    '[' :: newline (indent + 1) (prettyOnto (indent + 1) v
      (prettyItems (indent + 1) more (newline indent (']' :: rest))))
  | obj [], rest => '\x7b' :: '\x7d' :: rest
  | obj ((key, v) :: more), rest =>
    '\x7b' :: newline (indent + 1) (quotedOnto key.toList (':' :: ' ' :: prettyOnto (indent + 1) v
      (prettyFields (indent + 1) more (newline indent ('\x7d' :: rest)))))

/-- Further items, each on a line of its own. -/
def prettyItems (indent : Nat) : List Json → Text → Text
  | [], rest => rest
  | v :: more, rest =>
    ',' :: newline indent (prettyOnto indent v (prettyItems indent more rest))

def prettyFields (indent : Nat) : List (String × Json) → Text → Text
  | [], rest => rest
  | (key, v) :: more, rest =>
    ',' :: newline indent (quotedOnto key.toList
      (':' :: ' ' :: prettyOnto indent v (prettyFields indent more rest)))

end

/-- The value over several lines. -/
def pretty (v : Json) : Text := prettyOnto 0 v []

mutual

/-- The value with the fields of all objects in the order of their keys. -/
def sortKeys : Json → Json
  | arr items => arr (sortAll items)
  | obj fields => obj ((sortFields fields).mergeSort fun a b ↦ a.1 ≤ b.1)
  | v => v

def sortAll : List Json → List Json
  | [] => []
  | v :: rest => sortKeys v :: sortAll rest

def sortFields : List (String × Json) → List (String × Json)
  | [] => []
  | (key, v) :: rest => (key, sortKeys v) :: sortFields rest

end

end Json

end VbOutline
