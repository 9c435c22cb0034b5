import VbOutline.Outline

/-!
# The steps of the outline pass

At each line the pass does one of three things: it closes a block, it adds the symbols of the line to
the innermost open block, or it opens a block with the one symbol of the line. The symbols of a line
are those that it `created`. Once created, a symbol stays where it is in the order of the source;
closing a block only moves the end of its range. So the forest, read in pre-order and without the
ends of the ranges, is the list of all symbols in the order in which they were created.
-/

namespace VbOutline

namespace Symbol

theorem mem_flatten_of_mem {s : Symbol} {forest : List Symbol} (h : s ∈ forest) :
    s ∈ flatten forest := by
  obtain ⟨left, right, rfl⟩ := List.append_of_mem h
  simp

theorem flatten_eq_self {forest : List Symbol} (h : ∀ s ∈ forest, s.children = []) :
    flatten forest = forest := by
  induction forest with
  | nil => exact flatten_nil
  | cons s forest ih =>
    rw [flatten_cons, h s List.mem_cons_self, flatten_nil,
      ih fun t ht ↦ h t (List.mem_cons_of_mem s ht)]
    rfl

/-- What does not change when a block is closed: the entry without the end of its range. -/
def sketch (s : Symbol) : Entry := { s.toEntry with range := ⟨s.range.start, s.range.start⟩ }

def sketches (forest : List Symbol) : List Entry := (flatten forest).map sketch

@[simp]
theorem sketches_nil : sketches [] = [] := by rw [sketches, flatten_nil, List.map_nil]

@[simp]
theorem sketches_cons (s : Symbol) (rest : List Symbol) :
    sketches (s :: rest) = s.sketch :: sketches s.children ++ sketches rest := by
  simp [sketches]

@[simp]
theorem sketches_append (left right : List Symbol) :
    sketches (left ++ right) = sketches left ++ sketches right := by
  simp [sketches]

end Symbol

namespace Outline

open Text VbOutline.Symbol

/-- The symbols that a line brings into the outline. -/
def created (o : Outline) (line : SourceLine) : List Symbol :=
  match line.statement with
  | none | some (.blockEnd _) => []
  | some (.header h) =>
    match h.block.symbolKind? with
    | some kind => [⟨entry line h.name h.nameOffset kind h.detail, arguments line h⟩]
    | none => []
  | some (.region p) => [leaf line p.name p.offset .container Block.region.keyword.toList]
  | some (.imports p _) => [leaf line p.name p.offset .package "Imports".toList]
  | some (.implements names) => implemented line names
  | some (.declaration d) => declared line o.enclosing d
  | some _ => enumMember line o.enclosing

/-- The block that a line opens in the outline. -/
def opened? (o : Outline) (line : SourceLine) : Option Block :=
  match line.statement with
  | some (.header h) =>
    if h.block.symbolKind?.isSome && h.opensBlock (o.enclosing == some .interfaceType) line.next then
      some h.block
    else none
  | some (.region _) => some .region
  | _ => none

theorem step_cases (o : Outline) (line : SourceLine) :
    (∃ e, line.statement = some (.blockEnd e) ∧ o.created line = [] ∧
      o.step line = o.close e.block line.stop) ∨
    ((∀ e, line.statement ≠ some (.blockEnd e)) ∧ o.opened? line = none ∧
      o.step line = (o.created line).foldl add o) ∨
    (∃ block s, o.opened? line = some block ∧ o.created line = [s] ∧
      o.step line = o.push block s) := by
  cases hs : line.statement with
  | none => exact .inr (.inl ⟨nofun, by simp [opened?, hs], by simp [step, created, hs]⟩)
  | some s =>
    cases s with
    | blockEnd e => exact .inl ⟨e, rfl, by simp [created, hs], by simp [step, hs]⟩
    | header h =>
      cases hkind : h.block.symbolKind? with
      | none =>
        exact .inr (.inl ⟨nofun, by simp [opened?, hs, hkind],
          by simp [step, declare, created, hs, hkind]⟩)
      | some kind =>
        cases hopens : h.opensBlock (o.enclosing == some .interfaceType) line.next with
        | true =>
          exact .inr (.inr ⟨h.block, ⟨entry line h.name h.nameOffset kind h.detail, arguments line h⟩,
            by simp [opened?, hs, hkind, hopens], by simp [created, hs, hkind],
            by simp [step, declare, hs, hkind, hopens]⟩)
        | false =>
          exact .inr (.inl ⟨nofun, by simp [opened?, hs, hopens],
            by simp [step, declare, created, hs, hkind, hopens]⟩)
    | region p =>
      exact .inr (.inr ⟨.region, leaf line p.name p.offset .container Block.region.keyword.toList,
        by simp [opened?, hs], by simp [created, hs], by simp [step, hs]⟩)
    | blank | imports | implements | control | branch | declaration | plain =>
      exact .inr (.inl ⟨nofun, by simp [opened?, hs], by simp [step, created, hs]⟩)

theorem foldl_add_nil (roots ls : List Symbol) :
    ls.foldl add ⟨[], roots⟩ = ⟨[], ls.reverse ++ roots⟩ := by
  induction ls generalizing roots with
  | nil => rfl
  | cons s ls ih =>
    rw [List.foldl_cons, show add ⟨[], roots⟩ s = ⟨[], s :: roots⟩ from rfl, ih]
    simp

theorem foldl_add_cons (b : OpenBlock) (rest : List OpenBlock) (roots ls : List Symbol) :
    ls.foldl add ⟨b :: rest, roots⟩ = ⟨{ b with inner := ls.reverse ++ b.inner } :: rest, roots⟩ := by
  induction ls generalizing b with
  | nil => rfl
  | cons s ls ih =>
    rw [List.foldl_cons, show add ⟨b :: rest, roots⟩ s =
      ⟨{ b with inner := s :: b.inner } :: rest, roots⟩ from rfl, ih]
    simp

/-- A closing statement does nothing, or it moves the innermost block into what is around it. -/
theorem close_cases (o : Outline) (block : Block) (stop : Position) :
    (o.stack.head?.map OpenBlock.block ≠ some block ∧ o.close block stop = o) ∨
    (∃ b rest, o.stack = b :: rest ∧ b.block = block ∧
      o.close block stop = add ⟨rest, o.roots⟩ (b.close stop)) := by
  obtain ⟨stack, roots⟩ := o
  cases stack with
  | nil => exact .inl ⟨by simp, rfl⟩
  | cons b rest =>
    by_cases h : b.block = block
    · exact .inr ⟨b, rest, rfl, h, by simp [close, h]⟩
    · exact .inl ⟨by simpa using h, by simp [close, h]⟩

/-! ## The symbols of one line -/

/-- A symbol with nothing inside that has the range of its line. -/
def IsLeafOn (line : SourceLine) (s : Symbol) : Prop := s.range = line.whole ∧ s.children = []

theorem isLeafOn_leaf (line : SourceLine) (name : Text) (offset : Nat) (kind : SymbolKind)
    (detail : Text) : IsLeafOn line (leaf line name offset kind detail) := ⟨rfl, rfl⟩

theorem isLeafOn_arguments (line : SourceLine) (h : Header) :
    ∀ s ∈ arguments line h, IsLeafOn line s := by
  unfold arguments
  split
  · simp [isLeafOn_leaf]
  · simp

theorem isLeafOn_enumMember (line : SourceLine) (around : Option Block) :
    ∀ s ∈ enumMember line around, IsLeafOn line s := by
  unfold enumMember
  split
  · split
    · simp [isLeafOn_leaf]
    · simp
  · simp

/-- A line brings symbols with nothing inside, or a single one with its arguments. -/
theorem created_shape (o : Outline) (line : SourceLine) :
    (∀ s ∈ o.created line, IsLeafOn line s) ∨
      ∃ s, o.created line = [s] ∧ s.range = line.whole ∧ ∀ c ∈ s.children, IsLeafOn line c := by
  cases hstatement : line.statement with
  | none => exact .inl (by simp [created, hstatement])
  | some statement =>
    cases statement with
    | header h =>
      cases hkind : h.block.symbolKind? with
      | none => exact .inl (by simp [created, hstatement, hkind])
      | some kind =>
        exact .inr ⟨⟨entry line h.name h.nameOffset kind h.detail, arguments line h⟩,
          by simp [created, hstatement, hkind], rfl, isLeafOn_arguments line h⟩
    | blockEnd | region | imports => exact .inl (by simp [created, hstatement, isLeafOn_leaf])
    | implements names => exact .inl (by simp [created, hstatement, implemented, isLeafOn_leaf])
    | declaration d => exact .inl (by simp [created, hstatement, declared, isLeafOn_leaf])
    | blank | control | branch | plain =>
      refine .inl ?_
      rw [created, hstatement]
      exact isLeafOn_enumMember line o.enclosing

/-- What holds of each symbol that a line brings. -/
theorem shape_of_mem_created {o : Outline} {line : SourceLine} {s : Symbol}
    (hs : s ∈ o.created line) : s.range = line.whole ∧ ∀ c ∈ s.children, IsLeafOn line c := by
  obtain hleaves | ⟨t, hcreated, hshape⟩ := created_shape o line
  · obtain ⟨hrange, hchildren⟩ := hleaves s hs
    exact ⟨hrange, by simp [hchildren]⟩
  · obtain rfl : s = t := by simpa [hcreated] using hs
    exact hshape

/-! ## The order of the symbols -/

/-- The symbols that have been created so far, in the order of the source. -/
def written (o : Outline) : List Entry :=
  sketches o.roots.reverse ++ o.stack.reverse.flatMap fun b ↦
    b.symbol.sketch :: sketches b.symbol.children ++ sketches b.inner.reverse

theorem written_add (o : Outline) (s : Symbol) : (o.add s).written = o.written ++ sketches [s] := by
  obtain ⟨stack, roots⟩ := o
  cases stack with
  | nil => simp [add, written]
  | cons b rest => simp [add, written]

theorem written_foldl_add (o : Outline) (ls : List Symbol) :
    (ls.foldl add o).written = o.written ++ sketches ls := by
  induction ls generalizing o with
  | nil => simp
  | cons s ls ih =>
    rw [List.foldl_cons, ih, written_add, List.append_assoc, ← sketches_append]
    rfl

theorem written_push (o : Outline) (block : Block) (s : Symbol) :
    (o.push block s).written = o.written ++ sketches [s] := by
  simp [push, written]

theorem written_move (b : OpenBlock) (rest : List OpenBlock) (roots : List Symbol)
    (stop : Position) :
    (add ⟨rest, roots⟩ (b.close stop)).written = written ⟨b :: rest, roots⟩ := by
  rw [written_add]
  simp [written, OpenBlock.close, Symbol.sketch]

theorem written_step (o : Outline) (line : SourceLine) :
    (o.step line).written = o.written ++ sketches (o.created line) := by
  obtain ⟨e, _, hcreated, hstep⟩ | ⟨_, _, hstep⟩ | ⟨block, s, _, hcreated, hstep⟩ :=
    step_cases o line
  · rw [hstep, hcreated, sketches_nil, List.append_nil]
    obtain ⟨_, hclose⟩ | ⟨b, rest, hstack, _, hclose⟩ := close_cases o e.block line.stop
    · rw [hclose]
    · rw [hclose, written_move, ← hstack]
  · rw [hstep, written_foldl_add]
  · rw [hstep, hcreated, written_push]

theorem sketches_closeAll (stop : Position) (stack : List OpenBlock) (roots : List Symbol) :
    sketches (closeAll stop stack roots) = written ⟨stack, roots⟩ := by
  fun_induction closeAll stop stack roots with
  | case1 roots => simp [written]
  | case2 b roots =>
    rw [← written_move b [] roots stop]
    simp [add, written]
  | case3 b outer rest roots ih =>
    rw [ih, ← written_move b (outer :: rest) roots stop]
    rfl

/-- In pre-order the forest holds the symbols of all lines, in the order of the lines. -/
theorem sketches_ofLines (lines : List SourceLine) :
    sketches (ofLines lines) =
      (Text.states step start lines).flatMap fun (o, line) ↦ sketches (o.created line) := by
  have hrun (o : Outline) : (lines.foldl step o).written =
      o.written ++ (Text.states step o lines).flatMap fun (o, line) ↦ sketches (o.created line) := by
    induction lines generalizing o with
    | nil => simp
    | cons line lines ih =>
      rw [List.foldl_cons, ih, written_step, Text.states_cons, List.flatMap_cons, List.append_assoc]
  rw [ofLines, finish, sketches_closeAll]
  exact hrun start

end Outline

end VbOutline
