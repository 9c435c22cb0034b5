import VbOutline.Proofs.Outline.Likeness
import VbOutline.Proofs.Outline.Regions
import VbOutline.Proofs.Source.Traces

/-!
# Outlines of texts that are put together

If all blocks of a text have been closed at its end, then the outline goes on with a further text as
if that text stood alone: the outline of both is that of the first one, followed by that of the
second one moved down by the lines before it. Two things could carry over from the first text, both
from its last line of code: a continuation, and a property, which opens a block if an accessor comes
next. The second text may be unbalanced in any way.
-/

namespace VbOutline

open Text Line

def Position.down (n : Nat) (p : Position) : Position := { p with line := p.line + n }

def Range.down (n : Nat) (r : Range) : Range := ⟨r.start.down n, r.stop.down n⟩

def Entry.down (n : Nat) (e : Entry) : Entry :=
  { e with range := e.range.down n, selection := e.selection.down n }

/-- The second entry is the first one, `n` lines further down. -/
def Entry.MovedDown (n : Nat) (e f : Entry) : Prop := e.down n = f

namespace Symbol

mutual

/-- The symbol and everything inside it, `n` lines further down. -/
def down (n : Nat) : Symbol → Symbol
  | ⟨entry, children⟩ => ⟨entry.down n, allDown n children⟩

def allDown (n : Nat) : List Symbol → List Symbol
  | [] => []
  | s :: rest => s.down n :: allDown n rest

end

theorem Alike.allDown_eq {n : Nat} {forest forest' : List Symbol}
    (h : Alike (Entry.MovedDown n) forest forest') : allDown n forest = forest' := by
  induction h with
  | nil => rw [allDown]
  | @cons s t _ _ entry _ _ ihchildren ihrest =>
    obtain ⟨e, children⟩ := s
    obtain ⟨f, children'⟩ := t
    obtain rfl : e.down n = f := entry
    rw [allDown, down, ihrest, show allDown n children = children' from ihchildren]

end Symbol

namespace SourceLine

/-- The line if it stands `n` lines further down. -/
def down (n : Nat) (line : SourceLine) : SourceLine := { line with index := line.index + n }

/-- The line if the given code comes after the lines that are read with it. -/
def followedBy (code : Option Text) (line : SourceLine) : SourceLine :=
  { line with next := line.next.or code }

/-- The last line of code. -/
def lastCode? (lines : List SourceLine) : Option SourceLine :=
  (lines.filter fun line ↦ !isBlank line.code).getLast?

theorem map_mapIdx {α β γ : Type} (f : Nat → α → β) (g : β → γ) (xs : List α) :
    (xs.mapIdx f).map g = xs.mapIdx fun i x ↦ g (f i x) := by
  apply List.ext_getElem?
  intro i
  rw [List.getElem?_map, List.getElem?_mapIdx, List.getElem?_mapIdx, Option.map_map]
  rfl

theorem map_code_readAll (rows : List Text) :
    (readAll rows).map SourceLine.code = rows.map stripComment := by
  apply List.ext_getElem?
  intro i
  rw [readAll_eq, List.getElem?_map, List.getElem?_mapIdx, List.getElem?_map, Option.map_map]
  rfl

theorem followsContinued_length (rows : List Text) :
    followsContinued rows rows.length =
      (lastCode? (readAll rows)).any fun line ↦ isContinued line.code := by
  rw [followsContinued, List.take_length, ← map_code_readAll, List.filter_map, List.getLast?_map,
    Option.any_map]
  rfl

theorem followsContinued_append {rows : List Text} (h : followsContinued rows rows.length = false)
    (more : List Text) (i : Nat) :
    followsContinued (rows ++ more) (i + rows.length) = followsContinued more i := by
  rw [← foldl_continues_eq, List.take_of_length_le (by simp)] at h
  rw [← foldl_continues_eq, ← foldl_continues_eq, List.map_append, Nat.add_comm, List.take_append,
    List.length_map, Nat.add_sub_cancel_left, List.take_of_length_le (by simp),
    List.foldl_append, h]

theorem nextCode?_append {rows : List Text} {i : Nat} (h : i < rows.length) (more : List Text) :
    nextCode? (rows ++ more) i = (nextCode? rows i).or (firstCode? more) := by
  rw [nextCode?, List.drop_append_of_le_length h, firstCode?, List.findSome?_append]
  rfl

/-- Of two parts that are read together, the first one sees the first code of the second one, and
the second one stands further down. -/
theorem readAll_append {rows : List Text} (h : followsContinued rows rows.length = false)
    (more : List Text) :
    readAll (rows ++ more) = (readAll rows).map (followedBy (firstCode? more)) ++
      (readAll more).map (down rows.length) := by
  rw [readAll_eq, List.mapIdx_append, readAll_eq rows, readAll_eq more, map_mapIdx, map_mapIdx]
  congr 1
  · rw [List.mapIdx_eq_mapIdx_iff]
    intro i hi
    have hcontinued : followsContinued (rows ++ more) i = followsContinued rows i := by
      rw [followsContinued, List.take_append_of_le_length hi.le, followsContinued]
    simp only [followedBy, hcontinued, nextCode?_append hi]
  · rw [List.mapIdx_eq_mapIdx_iff]
    intro i hi
    have hnext : nextCode? (rows ++ more) (i + rows.length) = nextCode? more i := by
      rw [nextCode?, nextCode?, List.drop_append, List.drop_eq_nil_of_le (by omega),
        List.nil_append, Nat.add_right_comm, Nat.add_sub_cancel]
    simp only [down, followsContinued_append h, hnext]

/-- A line of code after which there is no code is the last one. -/
theorem lastCode?_of_next_eq_none {rows : List Text} {line : SourceLine} (h : line ∈ readAll rows)
    (hcode : isBlank line.code = false) (hnext : line.next = none) :
    lastCode? (readAll rows) = some line := by
  have hread := readIn_of_mem h
  obtain ⟨left, right, hlines⟩ := List.append_of_mem h
  have hline : (readAll rows)[left.length]? = some line := by
    rw [hlines, List.getElem?_append_right le_rfl, Nat.sub_self, List.getElem?_cons_zero]
  have hindex : line.index = left.length := index_of_getElem?_readAll hline
  have hright : right.filter (fun l ↦ !isBlank l.code) = [] := by
    rw [List.filter_eq_nil_iff]
    intro later hlater
    have hcodes : (rows.drop (line.index + 1)).map stripComment = right.map SourceLine.code := by
      rw [List.map_drop, ← map_code_readAll, hlines, hindex, ← List.map_drop, List.drop_append]
      simp
    have hfirst := hread.next
    rw [hnext, nextCode?, firstCode?, eq_comm, List.findSome?_eq_none_iff] at hfirst
    have hmem : later.code ∈ (rows.drop (line.index + 1)).map stripComment := by
      rw [hcodes]
      exact List.mem_map_of_mem hlater
    obtain ⟨row, hrow, hlatercode⟩ := List.mem_map.1 hmem
    have hblank : isBlank (stripComment row) := by
      have hnone := hfirst row hrow
      rw [isBlank]
      by_contra hshown
      simp [hshown] at hnone
    rw [← hlatercode, hblank]
    exact Bool.false_ne_true
  rw [lastCode?, hlines, List.filter_append, List.filter_cons_of_pos (by simp [hcode]), hright,
    List.getLast?_concat]

/-- There is code after every property if the last line of code is none. -/
theorem isSome_next_of_isProperty {rows : List Text} {line : SourceLine} (h : line ∈ readAll rows)
    (hlast : ∀ line ∈ lastCode? (readAll rows), line.isProperty = false)
    (hproperty : line.isProperty) : line.next.isSome := by
  have hcode : isBlank line.code = false := by
    have hsome := (readIn_of_mem h).isSome_statement
    unfold isProperty at hproperty
    split at hproperty
    · next hs =>
      rw [hs, Option.isSome_some, eq_comm, Bool.and_eq_true] at hsome
      simpa using hsome.1
    · cases hproperty
  rw [Option.isSome_iff_ne_none]
  intro hnext
  have hfalse := hlast line (lastCode?_of_next_eq_none h hcode hnext)
  rw [hproperty] at hfalse
  cases hfalse

end SourceLine

/-! ## The pass over both texts -/

namespace Outline

open SourceLine VbOutline.Symbol

/-- The state of the pass with the symbols of an earlier text before its own. -/
def after (roots : List Symbol) (o : Outline) : Outline := { o with roots := o.roots ++ roots }

theorem foldl_add_after (roots symbols : List Symbol) (o : Outline) :
    symbols.foldl add (o.after roots) = (symbols.foldl add o).after roots := by
  obtain ⟨stack, own⟩ := o
  cases stack with
  | nil => rw [after, foldl_add_nil, foldl_add_nil, after, List.append_assoc]
  | cons b rest => rw [after, foldl_add_cons, foldl_add_cons, after]

theorem close_after (roots : List Symbol) (o : Outline) (block : Block) (stop : Position) :
    (o.after roots).close block stop = (o.close block stop).after roots := by
  obtain ⟨stack, own⟩ := o
  cases stack with
  | nil => rfl
  | cons b rest =>
    simp only [after, close]
    split
    · exact foldl_add_after roots [b.close stop] ⟨rest, own⟩
    · rfl

theorem step_after (roots : List Symbol) (o : Outline) (line : SourceLine) :
    (o.after roots).step line = (o.step line).after roots := by
  have hcreated : (o.after roots).created line = o.created line := created_congr rfl line
  have hopened : (o.after roots).opened? line = o.opened? line := opened?_congr rfl line
  obtain ⟨e, he, -, hstep⟩ | ⟨hnot, hnone, hstep⟩ | ⟨block, s, hsome, hs, hstep⟩ :=
    step_cases o line
  · rw [hstep, step_of_blockEnd he, close_after]
  · rw [hstep, step_of_opened?_eq_none hnot (hopened.trans hnone), hcreated, foldl_add_after]
  · rw [hstep, step_of_opened?_eq_some (hopened.trans hsome) (hcreated.trans hs)]
    rfl

theorem foldl_step_after (roots : List Symbol) (lines : List SourceLine) (o : Outline) :
    lines.foldl step (o.after roots) = (lines.foldl step o).after roots := by
  induction lines generalizing o with
  | nil => rfl
  | cons line lines ih => rw [List.foldl_cons, List.foldl_cons, step_after, ih]

theorem closeAll_after (stop : Position) (stack : List OpenBlock) (own roots : List Symbol) :
    closeAll stop stack (own ++ roots) = roots.reverse ++ closeAll stop stack own := by
  fun_induction closeAll stop stack own with
  | case1 own => rw [closeAll, List.reverse_append]
  | case2 b own => rw [closeAll, ← List.cons_append, List.reverse_append]
  | case3 b outer rest own ih => rw [closeAll, ih]

/-- Lines after which no block is open put their symbols before those of the lines that follow. -/
theorem ofLines_append {front : List SourceLine} (h : (front.foldl step start).stack = [])
    (back : List SourceLine) : ofLines (front ++ back) = ofLines front ++ ofLines back := by
  obtain ⟨roots, hfront⟩ : ∃ roots, front.foldl step start = after roots start :=
    ⟨(front.foldl step start).roots, by
      rw [after, start]
      exact congrArg (fun stack ↦ Outline.mk stack (front.foldl step start).roots) h⟩
  have hends : ofLines front = roots.reverse := by
    rw [ofLines, hfront, finish, after, start, closeAll]
    rfl
  have hstop : closeAll (endOf (front ++ back)) (back.foldl step start).stack
      (back.foldl step start).roots = ofLines back := by
    cases back with
    | nil => simp [ofLines, finish, start, closeAll]
    | cons line rest =>
      rw [ofLines, finish, endOf, endOf, List.getLast?_append_of_ne_nil _ (List.cons_ne_nil _ _)]
  rw [ofLines, finish, List.foldl_append, hfront, foldl_step_after, after, closeAll_after, hstop,
    hends]

section

variable {line : SourceLine} {code : Option Text}

theorem opened?_followedBy (h : line.isProperty → line.next.isSome) (o : Outline) :
    o.opened? (line.followedBy code) = o.opened? line := by
  have hopens (header : Header) (hs : line.statement = some (.header header)) (inside : Bool) :
      header.opensBlock inside (line.next.or code) = header.opensBlock inside line.next := by
    apply Header.opensBlock_congr
    intro hblock
    obtain ⟨next, hnext⟩ := Option.isSome_iff_exists.1 (h (by simp [isProperty, hs, hblock]))
    rw [hnext, Option.some_or]
  cases hs : line.statement with
  | none => simp [opened?, followedBy, hs]
  | some statement =>
    cases statement with
    | header header => simp [opened?, followedBy, hs, hopens header hs]
    | _ => simp [opened?, followedBy, hs]

/-- What comes after the last line of code makes no difference unless that line is a property. -/
theorem step_followedBy (h : line.isProperty → line.next.isSome) (o : Outline) :
    o.step (line.followedBy code) = o.step line := by
  have hcreated : o.created (line.followedBy code) = o.created line := rfl
  have hopened : o.opened? (line.followedBy code) = o.opened? line := opened?_followedBy h o
  obtain ⟨e, he, -, hstep⟩ | ⟨hnot, hnone, hstep⟩ | ⟨block, s, hsome, hs, hstep⟩ :=
    step_cases o line
  · have hclosing : (line.followedBy code).statement = some (.blockEnd e) := he
    rw [hstep, step_of_blockEnd hclosing]
    rfl
  · have hother (e : BlockEnd) : (line.followedBy code).statement ≠ some (.blockEnd e) := hnot e
    rw [hstep, step_of_opened?_eq_none hother (hopened.trans hnone), hcreated]
  · rw [hstep, step_of_opened?_eq_some (hopened.trans hsome) (hcreated.trans hs)]

theorem foldl_step_followedBy {lines : List SourceLine}
    (h : ∀ line ∈ lines, line.isProperty → line.next.isSome) (o : Outline) :
    (lines.map (followedBy code)).foldl step o = lines.foldl step o := by
  rw [List.foldl_map]
  exact List.foldl_ext _ _ _ fun o line hline ↦ step_followedBy (h line hline) o

theorem ofLines_map_followedBy {lines : List SourceLine}
    (h : ∀ line ∈ lines, line.isProperty → line.next.isSome) :
    ofLines (lines.map (followedBy code)) = ofLines lines := by
  have hend : endOf (lines.map (followedBy code)) = endOf lines := by
    rw [endOf, endOf, List.getLast?_map, Option.map_map]
    rfl
  rw [ofLines, ofLines, finish, finish, foldl_step_followedBy h, hend]

end

theorem alike_leaf_down (n : Nat) (line : SourceLine) (name : Text) (offset : Nat)
    (kind : SymbolKind) (detail : Text) :
    Symbol.Alike (Entry.MovedDown n) [leaf line name offset kind detail]
      [leaf (line.down n) name offset kind detail] :=
  .cons rfl .nil .nil

theorem alike_arguments_down (n : Nat) (line : SourceLine) (h : Header) :
    Symbol.Alike (Entry.MovedDown n) (arguments line h) (arguments (line.down n) h) := by
  unfold arguments
  split
  · exact Symbol.Alike.of_map fun a _ ↦ alike_leaf_down n line a.name a.offset _ _
  · exact .nil

theorem alike_enumMember_down (n : Nat) (line : SourceLine) (around : Option Block) :
    Symbol.Alike (Entry.MovedDown n) (enumMember line around)
      (enumMember (line.down n) around) := by
  have hcode : (line.down n).code = line.code := rfl
  unfold enumMember
  rw [hcode]
  split
  · cases Statement.enumMember? line.code with
    | none => exact .nil
    | some p => exact alike_leaf_down n line p.name p.offset _ _
  · exact .nil

/-- A line brings the same symbols wherever it stands. -/
theorem alike_created_down (n : Nat) (line : SourceLine) (o : Outline) :
    Symbol.Alike (Entry.MovedDown n) (o.created line) (o.created (line.down n)) := by
  have hstatement : (line.down n).statement = line.statement := rfl
  unfold created
  rw [hstatement]
  cases line.statement with
  | none => exact .nil
  | some s =>
    cases s with
    | blockEnd => exact .nil
    | header h =>
      dsimp only
      cases h.block.symbolKind? with
      | none => exact .nil
      | some kind => exact .cons rfl (alike_arguments_down n line h) .nil
    | region p => exact alike_leaf_down n line p.name p.offset _ _
    | imports p => exact alike_leaf_down n line p.name p.offset _ _
    | implements names =>
      exact Symbol.Alike.of_map fun p _ ↦ alike_leaf_down n line (baseTypeName p.name) p.offset _ _
    | declaration d =>
      exact Symbol.Alike.of_map fun x _ ↦ alike_leaf_down n line x.name x.offset _ _
    | blank | control | branch | plain => exact alike_enumMember_down n line o.enclosing

theorem linesAlike_down (n : Nat) (line : SourceLine) :
    LinesAlike (Entry.MovedDown n) line (line.down n) where
  closes _ := Iff.rfl
  created {o p} hop := by
    rw [← created_congr hop]
    exact alike_created_down n line o
  opened hop := opened?_congr hop line
  stop {e f} hef := by
    obtain rfl : e.down n = f := hef
    rfl

/-- Lines further down have their outline further down. -/
theorem ofLines_map_down (n : Nat) (lines : List SourceLine) :
    ofLines (lines.map (SourceLine.down n)) = allDown n (ofLines lines) := by
  apply Eq.symm
  apply Alike.allDown_eq
  apply alike_ofLines
  rw [List.forall₂_map_right_iff, List.forall₂_same]
  exact fun line _ ↦ linesAlike_down n line

/-- The outline of a text with closed blocks goes on with the outline of the text after it. -/
theorem ofText_append {front : Text} (hended : front = [] ∨ front.getLast? = some '\n')
    (hclosed : ((readAll (lines front)).foldl step start).stack = [])
    (hlast : ∀ line ∈ lastCode? (readAll (lines front)),
      isContinued line.code = false ∧ line.isProperty = false) (back : Text) :
    ofText (front ++ back) = ofText front ++ allDown (lines front).length (ofText back) := by
  have hcontinued : followsContinued (lines front) (lines front).length = false := by
    rw [followsContinued_length]
    cases hline : lastCode? (readAll (lines front)) with
    | none => rfl
    | some line => exact (hlast line hline).1
  have hproperty : ∀ line ∈ readAll (lines front), line.isProperty → line.next.isSome :=
    fun line hline ↦ isSome_next_of_isProperty hline fun line hline ↦ (hlast line hline).2
  have hrun : (((readAll (lines front)).map (followedBy (firstCode? (lines back)))).foldl step
      start).stack = [] := by
    rw [foldl_step_followedBy hproperty]
    exact hclosed
  rw [ofText, lines_append_of_ended hended, readAll_append hcontinued, ofLines_append hrun,
    ofLines_map_followedBy hproperty, ofLines_map_down, ofText, ofText]

/-- A text with a closing statement that fits nothing, and after it one with open blocks. -/
theorem ofText_append_openModule :
    let front := "End Sub\nClass A\nEnd Class\n' done\n".toList
    let back := "Module B\nSub C()\nEnd Class\n".toList
    (front = [] ∨ front.getLast? = some '\n') ∧
    ((readAll (lines front)).foldl step start).stack = [] ∧
    (∀ line ∈ lastCode? (readAll (lines front)),
      isContinued line.code = false ∧ line.isProperty = false) ∧
    ofText (front ++ back) = ofText front ++ allDown 4 (ofText back) ∧
    (flatten (ofText (front ++ back))).map (fun s ↦ (s.name, s.range)) =
      [(['A'], ⟨⟨1, 0⟩, ⟨2, 9⟩⟩), (['B'], ⟨⟨4, 0⟩, ⟨6, 9⟩⟩), (['C'], ⟨⟨5, 0⟩, ⟨6, 9⟩⟩)] := by
  intro front back
  have hended : front = [] ∨ front.getLast? = some '\n' := .inr rfl
  have hclosed : ((readAll (lines front)).foldl step start).stack = [] := by decide +kernel
  have hlast : ∀ line ∈ lastCode? (readAll (lines front)),
      isContinued line.code = false ∧ line.isProperty = false := by decide +kernel
  have happend := ofText_append hended hclosed hlast back
  have hlength : (lines front).length = 4 := by decide
  rw [hlength] at happend
  exact ⟨hended, hclosed, hlast, happend, by rw [happend]; decide +kernel⟩

/-- A property at the end of the first text is another matter: it opens a block if the second text
begins with an accessor. -/
example : (ofText "Property P\n".toList).map (·.range.stop.line) = [0] ∧
    (ofText "Property P\nGet\nEnd Get\n".toList).map (·.range.stop.line) = [2] := by
  decide +kernel

end Outline

end VbOutline
