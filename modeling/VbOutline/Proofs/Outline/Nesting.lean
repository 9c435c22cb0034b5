import VbOutline.Proofs.Outline.Origin

/-!
# Nesting of the ranges

Whatever the text is, the ranges of an outline are nested: a symbol holds its name and everything
that is inside it, and of two symbols on one level the first one ends on a line before the second
one begins, unless both have nothing inside and share their only line.

The proof carries an invariant through the pass. While a block is open, the symbols inside it occupy
lines after its own; the blocks around it were opened on earlier lines, and everything else in them
ended before that. All ranges end with a line, so the widths of the lines decide how ends on one line
compare.
-/

namespace VbOutline

open Text

namespace Position

theorem le_of_line_lt {a b : Position} (h : a.line < b.line) : a.le b := by
  simp [le, h]

theorem le_of_line_eq {a b : Position} (hline : a.line = b.line)
    (hcharacter : a.character ≤ b.character) : a.le b := by
  simp [le, hline, hcharacter]

/-- Of two ends of lines the one on the earlier line comes first. -/
theorem le_of_character_eq {width : Nat → Nat} {a b : Position} (ha : a.character = width a.line)
    (hb : b.character = width b.line) (h : a.line ≤ b.line) : a.le b := by
  obtain hlt | heq := Nat.lt_or_eq_of_le h
  · exact le_of_line_lt hlt
  · exact le_of_line_eq heq (by rw [ha, hb, heq])

end Position

namespace Symbol

/-- How two symbols on one level lie to each other, the first one coming first. -/
def Precedes (a b : Symbol) : Prop :=
  a.range.stop.line < b.range.start.line ∨
    (a.children = [] ∧ b.children = [] ∧ a.range.stop.line = a.range.start.line ∧
      b.range.start.line = a.range.start.line ∧ b.range.stop.line = a.range.start.line)

/-- The range of a symbol consists of whole lines, whose widths are given. It begins with the line of
the name, and it holds the name and the symbols inside, which lie one after the other. -/
structure Sound (width : Nat → Nat) (s : Symbol) : Prop where
  start_character : s.range.start.character = 0
  stop_character : s.range.stop.character = width s.range.stop.line
  lines : s.range.start.line ≤ s.range.stop.line
  selection : ∃ first, s.selection = .onLine s.range.start.line first (first + s.name.length) ∧
    first + s.name.length ≤ width s.range.start.line
  children_within : ∀ c ∈ s.children, s.range.containsRange c.range
  children_ordered : s.children.Pairwise Precedes

def AllSound (width : Nat → Nat) (forest : List Symbol) : Prop := ∀ s ∈ flatten forest, s.Sound width

theorem allSound_append {width : Nat → Nat} {left right : List Symbol} :
    AllSound width (left ++ right) ↔ AllSound width left ∧ AllSound width right := by
  simp only [AllSound, flatten_append, List.forall_mem_append]

theorem allSound_cons {width : Nat → Nat} {s : Symbol} {rest : List Symbol} :
    AllSound width (s :: rest) ↔
      (s.Sound width ∧ AllSound width s.children) ∧ AllSound width rest := by
  simp only [AllSound, flatten_cons, List.forall_mem_append, List.forall_mem_cons]

theorem allSound_reverse {width : Nat → Nat} {forest : List Symbol} :
    AllSound width forest.reverse ↔ AllSound width forest := by
  induction forest with
  | nil => rfl
  | cons s forest ih =>
    rw [List.reverse_cons, allSound_append, ih, allSound_cons, allSound_cons]
    simp [AllSound, and_comm]

end Symbol

open VbOutline.Symbol

/-- The symbols of one level, the latest one first, on lines from `low` on and before `high`. -/
structure Level (width : Nat → Nat) (low high : Nat) (symbols : List Symbol) : Prop where
  sound : AllSound width symbols
  low : ∀ s ∈ symbols, low ≤ s.range.start.line
  high : ∀ s ∈ symbols, s.range.stop.line < high
  ordered : symbols.reverse.Pairwise Precedes

/-- A level goes on with symbols on lines that it has not reached yet. -/
theorem Level.append {width : Nat → Nat} {low middle high : Nat} {symbols later : List Symbol}
    (h : Level width low middle symbols) (hlow : low ≤ middle) (hhigh : middle ≤ high)
    (hlater : Level width middle high later.reverse) :
    Level width low high (later.reverse ++ symbols) where
  sound := allSound_append.2 ⟨hlater.sound, h.sound⟩
  low := by
    intro s hs
    obtain hs | hs := List.mem_append.1 hs
    · exact hlow.trans (hlater.low s hs)
    · exact h.low s hs
  high := by
    intro s hs
    obtain hs | hs := List.mem_append.1 hs
    · exact hlater.high s hs
    · exact (h.high s hs).trans_le hhigh
  ordered := by
    rw [List.reverse_append, List.pairwise_append]
    refine ⟨h.ordered, hlater.ordered, ?_⟩
    intro a ha b hb
    left
    calc
      a.range.stop.line < middle := h.high a (List.mem_reverse.1 ha)
      _ ≤ b.range.start.line := hlater.low b (List.mem_reverse.1 hb)

namespace OpenBlock

/-- The line on which the block was opened. -/
abbrev line (b : OpenBlock) : Nat := b.symbol.range.start.line

/-- An open block whose symbol still has the range of its own line, with its arguments on that line
and the symbols inside it on later ones. -/
structure Fits (width : Nat → Nat) (high : Nat) (b : OpenBlock) : Prop where
  symbol : AllSound width [b.symbol]
  own_line : b.symbol.range.stop.line = b.line
  arguments : ∀ c ∈ b.symbol.children, c.range = b.symbol.range
  inner : Level width (b.line + 1) high b.inner

/-- Closing a block at the end of a line that its symbols do not go beyond gives a sound symbol. -/
theorem Fits.close {width : Nat → Nat} {high last : Nat} {b : OpenBlock} (h : b.Fits width high)
    (hlast : b.line ≤ last) (hhigh : high ≤ last + 1) :
    AllSound width [b.close ⟨last, width last⟩] := by
  obtain ⟨⟨hsymbol, harguments⟩, _⟩ := allSound_cons.1 h.symbol
  refine allSound_cons.2 ⟨⟨⟨hsymbol.start_character, rfl, hlast, hsymbol.selection, ?_, ?_⟩, ?_⟩, ?_⟩
  · intro c hc
    obtain hc | hc := List.mem_append.1 hc
    · rw [h.arguments c hc, Range.containsRange, Bool.and_eq_true]
      refine ⟨Position.le_of_line_eq rfl (Nat.le_refl _), ?_⟩
      exact Position.le_of_character_eq hsymbol.stop_character rfl (h.own_line ▸ hlast)
    · have hc := List.mem_reverse.1 hc
      have hstart := h.inner.low c hc
      have hstop := h.inner.high c hc
      have hsound := h.inner.sound c (mem_flatten_of_mem hc)
      rw [Range.containsRange, Bool.and_eq_true]
      refine ⟨Position.le_of_line_lt hstart, ?_⟩
      have hbefore : c.range.stop.line ≤ last := by omega
      exact Position.le_of_character_eq hsound.stop_character rfl hbefore
  · apply List.pairwise_append.2
    refine ⟨hsymbol.children_ordered, h.inner.ordered, ?_⟩
    intro a ha c hc
    left
    calc
      a.range.stop.line = b.line := by rw [h.arguments a ha, h.own_line]
      _ < c.range.start.line := h.inner.low c (List.mem_reverse.1 hc)
  · exact allSound_append.2 ⟨harguments, allSound_reverse.2 h.inner.sound⟩
  · simp [AllSound]

end OpenBlock

namespace Outline

theorem pairwise_of_isLeafOn {line : SourceLine} {symbols : List Symbol}
    (h : ∀ s ∈ symbols, IsLeafOn line s) : symbols.Pairwise Precedes := by
  apply List.pairwise_of_forall_mem_list
  intro a ha b hb
  right
  obtain ⟨harange, hachildren⟩ := h a ha
  obtain ⟨hbrange, hbchildren⟩ := h b hb
  rw [harange, hbrange]
  exact ⟨hachildren, hbchildren, rfl, rfl, rfl⟩

section

variable {rows : List Text} {width : Nat → Nat} {line : SourceLine}

theorem sound_of_origin (hline : line.ReadIn rows) (hwidth : width line.index = line.raw.length)
    {s : Symbol} (horigin : Origin line s.sketch) (hrange : s.range = line.whole)
    (hchildren : ∀ c ∈ s.children, IsLeafOn line c) : s.Sound width := by
  obtain ⟨first, hselection, hfits⟩ := horigin.selection_fits hline
  have hwhole : line.whole = ⟨⟨line.index, 0⟩, ⟨line.index, line.raw.length⟩⟩ := rfl
  rw [hwhole] at hrange
  refine ⟨by rw [hrange], by rw [hrange, hwidth], by rw [hrange], ?_, ?_,
    pairwise_of_isLeafOn hchildren⟩
  · rw [hrange, hwidth]
    exact ⟨first, hselection, hfits⟩
  · intro c hc
    rw [(hchildren c hc).1, hwhole, hrange]
    simp [Range.containsRange, Position.le]

/-- The symbols of a line form a level that consists of this line. -/
theorem level_created (hline : line.ReadIn rows) (hwidth : width line.index = line.raw.length)
    (o : Outline) : Level width line.index (line.index + 1) (o.created line).reverse := by
  have horigin (s : Symbol) (hs : s ∈ flatten (o.created line)) : Origin line s.sketch :=
    origin_of_mem_created hline hs
  have hleaf {s : Symbol} (hs : s ∈ flatten (o.created line)) (h : IsLeafOn line s) :
      s.Sound width :=
    sound_of_origin hline hwidth (horigin s hs) h.1 (by simp [h.2])
  have hrange {s : Symbol} (hs : s ∈ (o.created line).reverse) : s.range = line.whole :=
    (shape_of_mem_created (List.mem_reverse.1 hs)).1
  refine ⟨?_, ?_, ?_, ?_⟩
  · apply allSound_reverse.2
    intro s hs
    obtain hleaves | ⟨t, hcreated, hrange, hchildren⟩ := created_shape o line
    · have hmem := hs
      rw [flatten_eq_self fun t ht ↦ (hleaves t ht).2] at hmem
      exact hleaf hs (hleaves s hmem)
    · have hmem := hs
      rw [hcreated, flatten_cons, flatten_eq_self fun c hc ↦ (hchildren c hc).2] at hmem
      simp only [flatten_nil, List.append_nil, List.mem_cons] at hmem
      obtain rfl | hmem := hmem
      · exact sound_of_origin hline hwidth (horigin s hs) hrange hchildren
      · exact hleaf hs (hchildren s hmem)
  · intro s hs
    rw [hrange hs]
    exact Nat.le_refl _
  · intro s hs
    rw [hrange hs]
    exact Nat.lt_succ_self _
  · rw [List.reverse_reverse]
    obtain hleaves | ⟨t, hcreated, _⟩ := created_shape o line
    · exact pairwise_of_isLeafOn hleaves
    · rw [hcreated]
      exact List.pairwise_singleton _ t

end

/-! ## The invariant -/

/-- The invariant of the pass before line `high`. -/
def Stacked (width : Nat → Nat) (high : Nat) (roots : List Symbol) : List OpenBlock → Prop
  | [] => Level width 0 high roots
  | b :: rest => b.Fits width high ∧ b.line < high ∧ Stacked width b.line roots rest

/-- Symbols on lines that are not reached yet can be added. -/
theorem Stacked.foldl_add {width : Nat → Nat} {middle high : Nat} {o : Outline}
    (h : Stacked width middle o.roots o.stack) (hhigh : middle ≤ high) {later : List Symbol}
    (hlater : Level width middle high later.reverse) :
    Stacked width high (later.foldl add o).roots (later.foldl add o).stack := by
  obtain ⟨stack, roots⟩ := o
  cases stack with
  | nil =>
    rw [foldl_add_nil]
    exact Level.append h (Nat.zero_le middle) hhigh hlater
  | cons b rest =>
    obtain ⟨hfits, hline, hrest⟩ := h
    rw [foldl_add_cons]
    exact ⟨⟨hfits.symbol, hfits.own_line, hfits.arguments, hfits.inner.append hline hhigh hlater⟩,
      hline.trans_le hhigh, hrest⟩

/-- The innermost block can be closed at the end of a line. -/
theorem Stacked.move {width : Nat → Nat} {high last : Nat} {roots : List Symbol} {b : OpenBlock}
    {rest : List OpenBlock} (h : Stacked width high roots (b :: rest)) (hlast : high ≤ last + 1) :
    Stacked width (last + 1) (add ⟨rest, roots⟩ (b.close ⟨last, width last⟩)).roots
      (add ⟨rest, roots⟩ (b.close ⟨last, width last⟩)).stack := by
  obtain ⟨hfits, hline, hrest⟩ := h
  have hle : b.line ≤ last := by omega
  have hlevel : Level width b.line (last + 1) [b.close ⟨last, width last⟩].reverse := by
    rw [List.reverse_singleton]
    refine ⟨hfits.close hle hlast, ?_, ?_, List.pairwise_singleton _ _⟩
    · simp [OpenBlock.close]
    · simp [OpenBlock.close]
  exact Stacked.foldl_add hrest (by omega) hlevel

/-- One line keeps the invariant. -/
theorem Stacked.step {rows : List Text} {width : Nat → Nat} {line : SourceLine}
    (hline : line.ReadIn rows) (hwidth : width line.index = line.raw.length) {o : Outline}
    (h : Stacked width line.index o.roots o.stack) :
    Stacked width (line.index + 1) (o.step line).roots (o.step line).stack := by
  have hlevel := level_created hline hwidth o
  obtain ⟨e, _, hcreated, hstep⟩ | ⟨_, _, hstep⟩ | ⟨block, s, _, hcreated, hstep⟩ :=
    step_cases o line
  · rw [hstep]
    obtain ⟨_, hclose⟩ | ⟨b, rest, hstack, _, hclose⟩ := close_cases o e.block line.stop
    · rw [hclose]
      rw [hcreated] at hlevel
      exact h.foldl_add (Nat.le_succ _) hlevel
    · rw [hstack] at h
      rw [hclose, SourceLine.stop, ← hwidth]
      exact h.move (Nat.le_succ _)
  · rw [hstep]
    exact h.foldl_add (Nat.le_succ _) hlevel
  · rw [hstep]
    have hmem : s ∈ o.created line := by simp [hcreated]
    obtain ⟨hrange, hchildren⟩ := shape_of_mem_created hmem
    rw [hcreated] at hlevel
    have hstart : s.range.start.line = line.index := by rw [hrange]; rfl
    refine ⟨⟨by simpa using hlevel.sound, by rw [hrange]; exact hstart.symm, ?_, ?_⟩, ?_, ?_⟩
    · intro c hc
      rw [(hchildren c hc).1, hrange]
    · exact ⟨by simp [AllSound], by simp, by simp, .nil⟩
    · exact hstart.trans_lt (Nat.lt_succ_self _)
    · change Stacked width s.range.start.line o.roots o.stack
      rw [hstart]
      exact h

theorem Stacked.foldl_step {rows : List Text} {width : Nat → Nat} {lines : List SourceLine}
    (hread : ∀ line ∈ lines, line.ReadIn rows)
    (hwidth : ∀ line ∈ lines, width line.index = line.raw.length) {n : Nat}
    (hindex : lines.map SourceLine.index = List.range' n lines.length) {o : Outline}
    (h : Stacked width n o.roots o.stack) :
    Stacked width (n + lines.length) (lines.foldl Outline.step o).roots
      (lines.foldl Outline.step o).stack := by
  induction lines generalizing n o with
  | nil => exact h
  | cons line lines ih =>
    rw [List.map_cons, List.length_cons, List.range'_succ, List.cons.injEq] at hindex
    obtain ⟨rfl, hrest⟩ := hindex
    have hstep := h.step (hread line List.mem_cons_self) (hwidth line List.mem_cons_self)
    have hrun := ih (fun l hl ↦ hread l (List.mem_cons_of_mem line hl))
      (fun l hl ↦ hwidth l (List.mem_cons_of_mem line hl)) hrest hstep
    rwa [Nat.add_assoc, Nat.add_comm 1] at hrun

/-- Closing what is open at the end of the last line leaves one level. -/
theorem Stacked.closeAll {width : Nat → Nat} {high last : Nat} {stack : List OpenBlock}
    {roots : List Symbol} (h : Stacked width high roots stack) (hhigh : high ≤ last + 1) :
    Level width 0 (last + 1) (closeAll ⟨last, width last⟩ stack roots).reverse := by
  fun_induction Outline.closeAll ⟨last, width last⟩ stack roots generalizing high with
  | case1 roots =>
    rw [List.reverse_reverse]
    exact ⟨h.sound, h.low, fun s hs ↦ (h.high s hs).trans_le hhigh, h.ordered⟩
  | case2 b roots =>
    rw [List.reverse_reverse]
    exact h.move hhigh
  | case3 b outer rest roots ih => exact ih (h.move hhigh) (Nat.le_refl _)

/-! ## Whole documents -/

/-- The number of characters of a row. -/
def widthOf (rows : List Text) (i : Nat) : Nat := (rows[i]?.getD []).length

theorem widthOf_index {rows : List Text} {line : SourceLine} (h : line.ReadIn rows) :
    widthOf rows line.index = line.raw.length := by
  rw [widthOf, h.raw, Option.getD_some]

theorem endOf_readAll {rows : List Text} (h : rows ≠ []) :
    endOf (SourceLine.readAll rows) = ⟨rows.length - 1, widthOf rows (rows.length - 1)⟩ := by
  have hlast := congrArg List.getLast? (SourceLine.map_index_readAll rows)
  rw [List.getLast?_map, List.getLast?_range, if_neg (mt List.length_eq_zero_iff.1 h),
    Option.map_eq_some_iff] at hlast
  obtain ⟨line, hline, hindex⟩ := hlast
  have hread := SourceLine.readIn_of_mem (List.mem_of_getLast? hline)
  rw [endOf, hline, ← hindex, widthOf_index hread]
  rfl

theorem exists_level_ofText (text : Text) :
    ∃ high, Level (widthOf (lines text)) 0 high (ofText text).reverse := by
  by_cases hrows : lines text = []
  · have hempty : ofText text = [] := by
      rw [ofText, hrows, show SourceLine.readAll [] = [] from rfl, ofLines, finish]
      simp [start, Outline.closeAll]
    rw [hempty]
    exact ⟨0, by simp [AllSound], by simp, by simp, .nil⟩
  · have hread (line : SourceLine) (hline : line ∈ SourceLine.readAll (lines text)) :=
      SourceLine.readIn_of_mem hline
    have hlength := SourceLine.length_readAll (lines text)
    have hindex := SourceLine.map_index_readAll (lines text)
    rw [← hlength, List.range_eq_range'] at hindex
    have hstart : Stacked (widthOf (lines text)) 0 start.roots start.stack :=
      ⟨by simp [AllSound, start], by simp [start], by simp [start], .nil⟩
    have hrun := hstart.foldl_step hread (fun line hline ↦ widthOf_index (hread line hline)) hindex
    have hpos := List.length_pos_iff.2 hrows
    refine ⟨(lines text).length - 1 + 1, ?_⟩
    rw [ofText, ofLines, finish, endOf_readAll hrows]
    exact hrun.closeAll (by omega)

end Outline

end VbOutline
