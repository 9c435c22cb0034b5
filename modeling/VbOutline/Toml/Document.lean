import VbOutline.Toml.MomentTable
import VbOutline.Toml.Scalar

/-!
# TOML documents

A document is a row of items: headers of tables, headers of tables in an array, and keys with
values. Items are put together one after the other. A table comes to be by its own header, on the
way to the header of a table inside it, or on the way of a dotted key, and these decide what may
still be added to it: a header may not define a table again, nor one that a dotted key has made, and
a dotted key may not add to a table that has a header.

Keys with too many parts are refused, and so are values too deep inside others. The fuel of the
readers is the length of the document, which no reader uses up.
-/

namespace VbOutline.Toml

open Text

def dropBlanks (s : Text) : Text := s.dropWhile isBlank

/-- Drops a comment, if there is one. -/
def dropComment (s : Text) : Text :=
  match s with
  | '#' :: rest => rest.dropWhile isPlain
  | _ => s

/-- Drops the end of a line: blanks, a comment, and a line end or the end of the text. -/
def endOfLine? (s : Text) : Option Text :=
  let rest := dropComment (dropBlanks s)
  if rest.isEmpty then some [] else lineEnd? rest

/-- Drops blanks, line ends and comments before line ends. -/
def dropGap (fuel : Nat) (s : Text) : Text :=
  match fuel with
  | 0 => s
  | fuel + 1 =>
    let s := dropBlanks s
    match lineEnd? (dropComment s) with
    | some rest => dropGap fuel rest
    | none => s

/-! ## Keys and values -/

def isBareKeyChar (c : Char) : Bool := c.isAlphanum || c == '_' || c == '-'

/-- Both the number of parts of a key and the depth of a value stay below this number. -/
def depthLimit : Nat := 80

def simpleKey? (fuel : Nat) (s : Text) : Option (Text × Text) :=
  match quoted? fuel s with
  | some key => some key
  | none =>
    let key := s.takeWhile isBareKeyChar
    if key.isEmpty then none else some (key, s.dropWhile isBareKeyChar)

/-- Keys with points between them, after those already read, which are held last one first. -/
def keysFrom? (fuel : Nat) (read : List Text) (s : Text) : Option (List Text × Text) :=
  match fuel with
  | 0 => none
  | fuel + 1 => do
    let (key, rest) ← simpleKey? fuel (dropBlanks s)
    match dropBlanks rest with
    | '.' :: rest => keysFrom? fuel (key :: read) rest
    | rest => some ((key :: read).reverse, rest)

/-- A path of keys with points between them, and the rest without blanks before it. -/
def keyPath? (fuel : Nat) (s : Text) : Option (List Text × Text) :=
  (keysFrom? fuel [] s).filter fun (path, _) ↦ path.length < depthLimit

/-- How a table came to be. -/
inductive Origin where
  | header
  | onTheWay
  | dotted
  deriving DecidableEq, Repr

/-- A value of a document that is still being put together. The tables of an array are held last one
first. -/
inductive Draft where
  | value (value : Toml)
  | table (origin : Origin) (entries : List (Text × Draft))
  | tables (elements : List (List (Text × Draft)))
  deriving Repr

/-- A table of a draft with its origin. -/
structure DraftTable where
  origin : Origin
  entries : Entries Draft
  deriving Repr

namespace DraftTable

def empty : DraftTable := ⟨.header, []⟩

/-- Changes the table at a path; tables that are missing on the way are made. -/
def modifyAt (isDotted : Bool) (change : DraftTable → Option DraftTable) :
    DraftTable → List Text → Option DraftTable
  | t, [] => change t
  | t, key :: path =>
    let become (draft : Draft) : DraftTable := { t with entries := t.entries.put key draft }
    match t.entries.lookup? key with
    | none =>
      (modifyAt isDotted change ⟨if isDotted then .dotted else .onTheWay, []⟩ path).map fun inner ↦
        become (.table inner.origin inner.entries)
    | some (.table origin entries) =>
      if isDotted && origin == .header then none
      else (modifyAt isDotted change ⟨origin, entries⟩ path).map fun inner ↦
        become (.table inner.origin inner.entries)
    | some (.tables (last :: earlier)) =>
      (modifyAt isDotted change ⟨.header, last⟩ path).map fun inner ↦
        become (.tables (inner.entries :: earlier))
    | some _ => none

/-- Sets a key that is not set. -/
def setNew (key : Text) (draft : Draft) (t : DraftTable) : Option DraftTable :=
  match t.entries.lookup? key with
  | none => some { t with entries := t.entries.put key draft }
  | some _ => none

/-- Sets a key at a path of keys, where only tables of dotted keys take dotted keys. -/
def assign (t : DraftTable) (path : List Text) (value : Toml) : Option DraftTable :=
  let above := path.dropLast
  t.modifyAt true (fun inner ↦
    if (inner.origin == .dotted) == above.isEmpty then none
    else setNew (path.getLast?.getD []) (.value value) inner) above

/-- Begins the table with a header. A table that came to be on the way to another one goes to the
end of the table around it. -/
def begin (t : DraftTable) (path : List Text) : Option DraftTable :=
  let key := path.getLast?.getD []
  t.modifyAt false (fun inner ↦
    match inner.entries.lookup? key with
    | some (.table .onTheWay entries) =>
      some { inner with entries := (inner.entries.drop key).put key (.table .header entries) }
    | _ => setNew key (.table .header []) inner) path.dropLast

/-- Begins a further table in an array. -/
def beginElement (t : DraftTable) (path : List Text) : Option DraftTable :=
  let key := path.getLast?.getD []
  t.modifyAt false (fun inner ↦
    match inner.entries.lookup? key with
    | some (.tables elements) =>
      some { inner with entries := inner.entries.put key (.tables ([] :: elements)) }
    | _ => setNew key (.tables [[]]) inner) path.dropLast

end DraftTable

mutual

def Draft.finish : Draft → Toml
  | .value v => v
  | .table _ entries => .table (finishEntries entries)
  | .tables elements => .array (finishElements elements).reverse

def finishEntries : List (Text × Draft) → List (Text × Toml)
  | [] => []
  | (key, draft) :: rest => (key, draft.finish) :: finishEntries rest

def finishElements : List (List (Text × Draft)) → List Toml
  | [] => []
  | entries :: rest => .table (finishEntries entries) :: finishElements rest

end

/-- The table of keys and values in braces. -/
def inlineTable? (pairs : List (List Text × Toml)) : Option Toml :=
  (pairs.foldl (fun (t : Option DraftTable) (path, value) ↦ t.bind fun t ↦ t.assign path value)
    (some .empty)).map fun t ↦ .table (finishEntries t.entries)

mutual

/-- A value that stands inside `depth` others. -/
def value? (fuel depth : Nat) (s : Text) : Option (Toml × Text) :=
  match fuel with
  | 0 => none
  | fuel + 1 =>
    match s with
    | '"' :: _ | '\'' :: _ => (string? fuel s).map fun (text, rest) ↦ (.string text, rest)
    | '[' :: rest =>
      if depth + 1 < depthLimit then
        (items? fuel (depth + 1) [] rest).map fun (items, rest) ↦ (.array items, rest)
      else none
    | '\x7b' :: rest =>
      if depth + 1 < depthLimit then do
        let (pairs, rest) ← pairs? fuel (depth + 1) [] rest
        some (← inlineTable? pairs, rest)
      else none
    | _ => scalar? s

/-- The values of an array after those already read, which are held last one first. -/
def items? (fuel depth : Nat) (read : List Toml) (s : Text) : Option (List Toml × Text) :=
  match fuel with
  | 0 => none
  | fuel + 1 =>
    match dropGap fuel s with
    | ']' :: rest => some (read.reverse, rest)
    | s => do
      let (item, rest) ← value? fuel depth s
      match dropGap fuel rest with
      | ',' :: rest => items? fuel depth (item :: read) rest
      | ']' :: rest => some ((item :: read).reverse, rest)
      | _ => none

/-- The keys and values in braces after those already read, which are held last one first. -/
def pairs? (fuel depth : Nat) (read : List (List Text × Toml)) (s : Text) :
    Option (List (List Text × Toml) × Text) :=
  match fuel with
  | 0 => none
  | fuel + 1 =>
    match read.isEmpty, dropBlanks s with
    | true, '\x7d' :: rest => some ([], rest)
    | _, s => do
      let (path, rest) ← keyPath? fuel s
      let (value, rest) ← value? fuel depth (dropBlanks (← after? '=' rest))
      match dropBlanks rest with
      | ',' :: rest => pairs? fuel depth ((path, value) :: read) rest
      | '\x7d' :: rest => some (((path, value) :: read).reverse, rest)
      | _ => none

end

/-! ## Items -/

inductive Item where
  | header (path : List Text)
  | element (path : List Text)
  | assignment (path : List Text) (value : Toml)
  deriving Repr

/-- An item, and what follows its line. -/
def item? (fuel : Nat) (s : Text) : Option (Item × Text) :=
  match s with
  | '[' :: '[' :: rest => do
    let (path, rest) ← keyPath? fuel rest
    let rest ← endOfLine? (← after? ']' (← after? ']' rest))
    some (.element path, rest)
  | '[' :: rest => do
    let (path, rest) ← keyPath? fuel rest
    let rest ← endOfLine? (← after? ']' rest)
    some (.header path, rest)
  | _ => do
    let (path, rest) ← keyPath? fuel s
    let (value, rest) ← value? fuel 0 (dropBlanks (← after? '=' rest))
    some (.assignment path value, ← endOfLine? rest)

/-- The items of a document after those already read, which are held last one first. -/
def itemsFrom (fuel : Nat) (read : List Item) (s : Text) : Option (List Item) :=
  match fuel with
  | 0 => none
  | fuel + 1 =>
    let s := dropBlanks s
    if s.isEmpty then some read.reverse
    else
      match endOfLine? s with
      | some rest => itemsFrom fuel read rest
      | none => (item? fuel s).bind fun (item, rest) ↦ itemsFrom fuel (item :: read) rest

/-- A document that is being put together, and the path of the table to which keys belong. -/
structure Assembly where
  root : DraftTable
  current : List Text
  deriving Repr

def Assembly.add (a : Assembly) : Item → Option Assembly
  | .header path => (a.root.begin path).map fun root ↦ ⟨root, path⟩
  | .element path => (a.root.beginElement path).map fun root ↦ ⟨root, path⟩
  | .assignment path value =>
    (a.root.modifyAt false (fun t ↦ t.assign path value) a.current).map fun root ↦
      { a with root }

def assemble (items : List Item) : Option Table :=
  (items.foldl (fun (a : Option Assembly) item ↦ a.bind fun a ↦ a.add item)
    (some ⟨.empty, []⟩)).map fun a ↦ finishEntries a.root.entries

/-- Reads a document. -/
def parse? (s : Text) : Option Table :=
  let s := if s.head? == some '\uFEFF' then s.drop 1 else s
  ((itemsFrom (s.length + 2) [] s).bind assemble).bind entriesWithMoments?

end VbOutline.Toml
