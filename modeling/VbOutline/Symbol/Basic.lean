import VbOutline.Position
import VbOutline.Symbol.Kind

/-!
# Symbols

A symbol is an entry of the outline and the symbols declared inside it, in source order. The
arguments of a method and the interfaces that a type implements are symbols as well; they are told
by their detail.
-/

namespace VbOutline

open Text

/-- What an outline shows of a symbol, apart from what is inside it. -/
structure Entry where
  name : Text
  kind : SymbolKind
  detail : Text
  /-- The lines of the declaration. -/
  range : Range
  /-- The name. -/
  selection : Range
  deriving DecidableEq, Repr

namespace Entry

def argumentMark : Text := "Argument ".toList

def implementsMark : Text := "Implements ".toList

/-- Whether the name is the given one, in any ASCII case. -/
def isNamed (e : Entry) (name : Text) : Bool := eqAscii e.name name

def isArgument (e : Entry) : Bool := argumentMark.isPrefixOf e.detail

/-- Whether the entry is the mark of an implemented interface. -/
def isImplements (e : Entry) : Bool :=
  e.kind == .interfaceType && implementsMark.isPrefixOf e.detail

/-- Whether other files can refer to the entry. -/
def isDefinition (e : Entry) : Bool := e.kind.isDefinition && !e.isImplements

def isLocalVariable (e : Entry) : Bool := e.kind == .variableKind && !e.isArgument

/-- Whether names declared inside the entry are visible from its lines. -/
def opensScope (e : Entry) : Bool :=
  !e.isImplements && (e.kind.isMethodLike || e.kind.isType || e.kind.isContainer)

/-- The entry with another end of its range, as closing a block changes it. -/
def endingAt (e : Entry) (stop : Position) : Entry := { e with range := ⟨e.range.start, stop⟩ }

/-- Whether the name contains the given text, in any case. -/
def nameContains (e : Entry) (part : Text) : Bool := containsText (lower e.name) (lower part)

end Entry

structure Symbol extends Entry where
  children : List Symbol
  deriving Repr

namespace Symbol

mutual

/-- The symbol and all symbols inside it, each before those inside it. -/
def withInner : Symbol → List Symbol
  | ⟨entry, children⟩ => ⟨entry, children⟩ :: flatten children

/-- All symbols of a forest in pre-order. -/
def flatten : List Symbol → List Symbol
  | [] => []
  | s :: rest => s.withInner ++ flatten rest

end

@[simp]
theorem flatten_nil : flatten [] = [] := by rw [flatten]

@[simp]
theorem flatten_cons (s : Symbol) (rest : List Symbol) :
    flatten (s :: rest) = s :: flatten s.children ++ flatten rest := by
  obtain ⟨entry, children⟩ := s
  rw [flatten, withInner]

@[simp]
theorem flatten_append (left right : List Symbol) :
    flatten (left ++ right) = flatten left ++ flatten right := by
  induction left with
  | nil => rfl
  | cons s left ih =>
    rw [List.cons_append, flatten_cons, flatten_cons, ih, List.append_assoc]

mutual

/-- The symbol if its kind is among `kinds`, otherwise the kept symbols inside it. -/
def keepKinds (kinds : List SymbolKind) : Symbol → List Symbol
  | ⟨entry, children⟩ =>
    let kept := filterKinds kinds children
    if kinds.contains entry.kind then [⟨entry, kept⟩] else kept

/-- Keeps the symbols whose kind is among `kinds`; what is inside a dropped symbol moves up. -/
def filterKinds (kinds : List SymbolKind) : List Symbol → List Symbol
  | [] => []
  | s :: rest => keepKinds kinds s ++ filterKinds kinds rest

end

/-- Puts the symbols of a level on a stack, the first one on top. -/
def pushAll (stack level : List Symbol) : List Symbol :=
  level.reverse.foldl (fun stack s ↦ s :: stack) stack

theorem pushAll_eq (stack level : List Symbol) : pushAll stack level = level ++ stack := by
  rw [pushAll, List.foldl_reverse]
  exact List.foldr_cons_eq_append'

/-- Takes the symbols of a stack off one by one. What is inside a container is put on the stack in its
place; the other symbols are collected, the latest one first. -/
def collect (found : List Symbol) : List Symbol → List Symbol
  | [] => found
  | s :: pending =>
    if s.kind.isContainer then collect found (pushAll pending s.children)
    else collect (s :: found) pending
termination_by pending => (flatten pending).length
decreasing_by
  · simp [pushAll_eq]
  · simp only [flatten_cons, List.length_append, List.length_cons]
    omega

/-- The members of a type; containers inside it are looked through. -/
def members (s : Symbol) : List Symbol := (collect [] (pushAll [] s.children)).reverse

end Symbol

/-- The name of a type without its type arguments. -/
def baseTypeName (name : Text) : Text := trim (name.takeWhile (· != '('))

/-- The last part of a dotted name. -/
def unqualified (name : Text) : Text := (name.reverse.takeWhile (· != '.')).reverse

end VbOutline
