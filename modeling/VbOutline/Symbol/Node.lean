import VbOutline.Symbol.Basic

/-!
# Nodes of a forest

Equal symbols can stand at several places of a forest. A node is a symbol together with its place,
the path of child indices that leads to it from the roots.
-/

namespace VbOutline

abbrev Place := List Nat

structure Node where
  place : Place
  symbol : Symbol
  deriving Repr

namespace Node

/-- Gives the symbols of one level their places, the first one having index `i`. -/
def levelFrom (place : Place) (i : Nat) : List Symbol → List Node
  | [] => []
  | s :: rest => ⟨place ++ [i], s⟩ :: levelFrom place (i + 1) rest

def level (place : Place) (symbols : List Symbol) : List Node := levelFrom place 0 symbols

def roots (forest : List Symbol) : List Node := level [] forest

def children (n : Node) : List Node := level n.place n.symbol.children

/-- The symbol at a place. -/
def find? (forest : List Symbol) : Place → Option Symbol
  | [] => none
  | [i] => forest[i]?
  | i :: rest => forest[i]?.bind fun s ↦ find? s.children rest

mutual

/-- The symbol at `place` or below it that has the target among its children. -/
def parentAt (target place : Place) : Symbol → Option Symbol
  | ⟨entry, inner⟩ =>
    if (level place inner).any fun child ↦ child.place == target then some ⟨entry, inner⟩
    else parentIn target place 0 inner

def parentIn (target place : Place) (i : Nat) : List Symbol → Option Symbol
  | [] => none
  | s :: rest => (parentAt target (place ++ [i]) s).or (parentIn target place (i + 1) rest)

end

/-- The symbol that has the target among its children, found depth first. A target without a place
is not a node of the forest and has no parent in it. -/
def parentOf? (forest : List Symbol) (target : Option Place) : Option Symbol :=
  target.bind fun place ↦ parentIn place [] 0 forest

end Node

end VbOutline
