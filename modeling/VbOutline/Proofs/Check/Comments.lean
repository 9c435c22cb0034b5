import VbOutline.Proofs.Check.Likeness
import VbOutline.Proofs.Line.Numbers
import VbOutline.Proofs.Outline.Origin
import VbOutline.Proofs.Source.Traces

/-!
# Comments

Two documents that have the same code on all their lines are read as the same statements. The raw
lines are looked at only for columns, and every column that a name, a number or the span of a line
is given lies within the code, where the lines agree. So the outlines differ at most in the columns
at which the ranges end, and the reports only in what is said about comments and about the length
of lines.
-/

namespace VbOutline

open Text Line

/-- Entries that differ at most in the last column of their ranges. -/
structure Entry.EqualUpToEnd (e f : Entry) : Prop where
  name : e.name = f.name
  kind : e.kind = f.kind
  detail : e.detail = f.detail
  selection : e.selection = f.selection
  start : e.range.start = f.range.start
  lastLine : e.range.stop.line = f.range.stop.line

theorem Entry.EqualUpToEnd.refl (e : Entry) : e.EqualUpToEnd e := ⟨rfl, rfl, rfl, rfl, rfl, rfl⟩

namespace SourceLine

/-- Lines that differ at most in their comments. -/
structure SameCode (line line' : SourceLine) : Prop where
  index : line.index = line'.index
  code : line.code = line'.code
  statement : line.statement = line'.statement
  next : line.next = line'.next
  isPrefix : line.code <+: line.raw
  isPrefix' : line.code <+: line'.raw
  readFrom : ∀ {s}, line.statement = some s → s.ReadFrom line.code

theorem sameCode_of_readIn {rows rows' : List Text} {line line' : SourceLine}
    (h : rows.map stripComment = rows'.map stripComment) (hline : ReadIn rows line)
    (hline' : ReadIn rows' line') (hindex : line.index = line'.index) : SameCode line line' := by
  have hshown : rows.map shown = rows'.map shown := by
    have htrim := congrArg (List.map trimEnd) h
    rwa [List.map_map, List.map_map] at htrim
  have hcode : line.code = line'.code := by
    have hrow := congrArg (·[line.index]?) h
    simp only [List.getElem?_map] at hrow
    rw [hline.raw, hindex, hline'.raw, Option.map_some, Option.map_some, ← hline.code,
      ← hline'.code] at hrow
    exact Option.some.inj hrow
  have hstatement : line.statement = line'.statement := by
    rw [hline.statement, hline'.statement, followsContinued_eq, followsContinued_eq, hshown, hcode,
      hindex]
  have hnext : line.next = line'.next := by
    rw [hline.next, hline'.next, nextCode?, nextCode?, firstCode?_eq, firstCode?_eq, List.map_drop,
      List.map_drop, hshown, hindex]
  exact ⟨hindex, hcode, hstatement, hnext, hline.code_isPrefix, hcode ▸ hline'.code_isPrefix,
    hline.readFrom⟩

theorem sameCode_readAll {rows rows' : List Text}
    (h : rows.map stripComment = rows'.map stripComment) :
    List.Forall₂ SameCode (readAll rows) (readAll rows') := by
  have hlength : rows.length = rows'.length := by simpa using congrArg List.length h
  refine List.forall₂_iff_get.2 ⟨by rw [length_readAll, length_readAll, hlength], ?_⟩
  intro i hi hi'
  apply sameCode_of_readIn h
  · exact readIn_of_mem (List.get_mem _ _)
  · exact readIn_of_mem (List.get_mem _ _)
  · rw [List.get_eq_getElem, List.get_eq_getElem,
      index_of_getElem?_readAll (List.getElem?_eq_getElem hi),
      index_of_getElem?_readAll (List.getElem?_eq_getElem hi')]

namespace SameCode

variable {line line' : SourceLine} (h : line.SameCode line')
include h

theorem columnOf_eq {offset : Nat} (hoffset : offset ≤ byteSize line.code) :
    columnOf line.raw offset = columnOf line'.raw offset := by
  rw [columnOf_of_isPrefix h.isPrefix hoffset, columnOf_of_isPrefix h.isPrefix' hoffset]

theorem span_eq {offset : Nat} {part : Text} (hpart : StandsAt line.code offset part) :
    line.span offset (byteSize part) = line'.span offset (byteSize part) := by
  have hle := hpart.le
  rw [span, span, h.index, h.columnOf_eq (by omega), h.columnOf_eq hle]

theorem codeSpan_eq : line.codeSpan = line'.codeSpan := by
  have hshown := (StandsAt.of_isPrefix (trimEnd_isPrefix line.code)).le
  have hindent := (StandsAt.trimStart (trimEnd line.code)).le
  rw [Nat.zero_add] at hshown
  rw [codeSpan, codeSpan, ← h.code, h.index, h.columnOf_eq hshown, h.columnOf_eq (by omega)]

end SameCode

end SourceLine

/-! ## The outline -/

namespace Outline

open VbOutline.Symbol

section

variable {line line' : SourceLine} (h : line.SameCode line')
include h

theorem alike_entry {name : Text} {offset : Nat} (hoffset : offset ≤ byteSize line.code)
    (kind : SymbolKind) (detail : Text) {children children' : List Symbol}
    (hchildren : Symbol.Alike Entry.EqualUpToEnd children children') :
    Symbol.Alike Entry.EqualUpToEnd [⟨entry line name offset kind detail, children⟩]
      [⟨entry line' name offset kind detail, children'⟩] := by
  refine .cons ⟨rfl, rfl, rfl, ?_, ?_, h.index⟩ hchildren .nil
  · simp only [entry, h.index, h.columnOf_eq hoffset]
  · simp only [entry, SourceLine.whole, h.index]

theorem alike_leaf {name : Text} {offset : Nat} (hstands : StandsAt line.code offset name)
    (kind : SymbolKind) (detail : Text) :
    Symbol.Alike Entry.EqualUpToEnd [leaf line name offset kind detail]
      [leaf line' name offset kind detail] :=
  alike_entry h ((Nat.le_add_right _ _).trans hstands.le) kind detail .nil

theorem alike_arguments {header : Header} (hparse : Header.parse? line.code = some header) :
    Symbol.Alike Entry.EqualUpToEnd (arguments line header) (arguments line' header) := by
  unfold arguments
  split
  · next list hlist =>
    apply Alike.of_map
    intro a ha
    have hstands := (Header.standsAt_argument hparse hlist ha).le
    exact alike_entry h (by omega) _ _ .nil
  · exact .nil

theorem alike_enumMember (around : Option Block) :
    Symbol.Alike Entry.EqualUpToEnd (enumMember line around) (enumMember line' around) := by
  unfold enumMember
  rw [← h.code]
  split
  · split
    · next p hp => exact alike_leaf h (Statement.enumMember?_standsAt hp) _ _
    · exact .nil
  · exact .nil

/-- Lines with the same code bring the same symbols. -/
theorem alike_created {o p : Outline} (hop : o.enclosing = p.enclosing) :
    Symbol.Alike Entry.EqualUpToEnd (o.created line) (p.created line') := by
  unfold created
  rw [← h.statement, ← hop]
  split
  · exact .nil
  · exact .nil
  · next header hstatement =>
    have hparse : Header.parse? line.code = some header := h.readFrom hstatement
    split
    · have hname := (Header.standsAt_name hparse).le
      exact alike_entry h (by omega) _ _ (alike_arguments h hparse)
    · exact .nil
  · next p hstatement =>
    obtain ⟨q, hq, rfl⟩ := h.readFrom hstatement
    obtain ⟨hstands, -⟩ | ⟨rfl, -⟩ := Statement.region?_spec hq
    · exact alike_leaf h ((StandsAt.trim line.code).trans hstands) _ _
    · exact alike_entry h ((Nat.le_add_right _ _).trans (StandsAt.trim line.code).le) _ _ .nil
  · next p isAlias hstatement =>
    obtain ⟨q, hq, rfl⟩ := h.readFrom hstatement
    exact alike_leaf h ((StandsAt.trim line.code).trans (Statement.imports?_standsAt hq)) _ _
  · next names hstatement =>
    obtain ⟨found, hfound, rfl⟩ := h.readFrom hstatement
    apply Alike.of_map
    intro p hp
    obtain ⟨q, hq, rfl⟩ := List.mem_map.1 hp
    have hat := (StandsAt.trim line.code).trans (Statement.implements?_standsAt hfound hq)
    exact alike_leaf h hat _ _
  · next d hstatement =>
    have hparse : Declaration.parse? line.code = some d := h.readFrom hstatement
    apply Alike.of_map
    intro x hx
    exact alike_leaf h (Declaration.standsAt_declarator hparse hx) _ _
  · exact alike_enumMember h _

theorem linesAlike_of_sameCode : LinesAlike Entry.EqualUpToEnd line line' where
  closes e := by rw [h.statement]
  created := alike_created h
  opened hop := by rw [opened?, opened?, h.statement, h.next, hop]
  stop hef := ⟨hef.name, hef.kind, hef.detail, hef.selection, hef.start, h.index⟩

end

end Outline

/-! ## The report -/

namespace Check

section

variable {line line' : SourceLine} (h : line.SameCode line')
include h

theorem movesAlike_of_sameCode : line.MovesAlike line' where
  index := h.index
  span := h.codeSpan_eq
  move := by rw [SourceLine.move, SourceLine.move, h.statement, h.next, h.code]

theorem magicNumbers_eq : magicNumbers line = magicNumbers line' := by
  rw [magicNumbers, magicNumbers, ← h.code]
  apply List.map_congr_left
  intro n hn
  rw [h.span_eq (standsAt_of_mem_numbers (List.mem_filter.1 hn).1)]

theorem statement_eq (around : Surroundings) : statement around line = statement around line' := by
  unfold statement
  rw [← h.statement]
  split
  · rw [condition, condition, h.codeSpan_eq, h.code]
  · next d hstatement =>
    have hparse : Declaration.parse? line.code = some d := h.readFrom hstatement
    apply List.flatMap_congr
    intro x hx
    rw [declarator, declarator, h.span_eq (Declaration.standsAt_declarator hparse hx)]
  · next header hstatement =>
    have hparse : Header.parse? line.code = some header := h.readFrom hstatement
    rw [returnType, returnType, h.span_eq (Header.standsAt_name hparse)]
  · rfl

/-- Of what is found at a line, only its length and its open work depend on the comment. -/
theorem of_line_eq {α : Type} {v : View α} (hhidden : ["todo-comment", "line-too-long"] ⊆ v.hidden)
    (limit : Nat) (around : Surroundings) :
    v.of (Check.line limit around line) = v.of (Check.line limit around line') := by
  have hlength (line : SourceLine) : v.of (length limit line) = [] :=
    v.of_eq_nil (codesIn_length limit line) (by simp_all)
  have htodo (line : SourceLine) : v.of (todo line) = [] :=
    v.of_eq_nil (codesIn_todo line) (by simp_all)
  have hnumbers : mayHaveNumbers around line = mayHaveNumbers around line' := by
    rw [mayHaveNumbers, mayHaveNumbers, h.statement]
  rw [Check.line, Check.line, hnumbers, magicNumbers_eq h, statement_eq h]
  simp only [View.of_append, hlength, htodo]

end

theorem isUsed_linesOf (lines : List SourceLine) (method declared : Entry) :
    isUsed (linesOf lines.toArray method) declared =
      ((lines.map fun line ↦ (line.index, line.code)).extract method.range.start.line
        (method.range.stop.line + 1)).any fun p ↦
          p.1 != declared.range.start.line && containsWord p.2 declared.name := by
  rw [isUsed, linesOf, ← Array.any_toList, Array.toList_extract, List.extract_eq_take_drop,
    List.extract_eq_take_drop, ← List.map_drop, ← List.map_take, List.any_map]
  rfl

theorem unusedVariables_eq {lines lines' : List SourceLine}
    (h : List.Forall₂ SourceLine.SameCode lines lines') {forest forest' : List Symbol}
    (hforest : Symbol.Alike Entry.EqualUpToEnd forest forest') :
    unusedVariables lines forest = unusedVariables lines' forest' := by
  have hlines : (lines.map fun line ↦ (line.index, line.code)) =
      lines'.map fun line ↦ (line.index, line.code) := by
    rw [← List.forall₂_eq_eq_eq, List.forall₂_map_left_iff, List.forall₂_map_right_iff]
    exact h.imp fun _ _ hline ↦ Prod.ext hline.index hline.code
  have hused {method method' declared declared' : Entry} (hmethod : method.EqualUpToEnd method')
      (hdeclared : declared.EqualUpToEnd declared') :
      isUsed (linesOf lines.toArray method) declared =
        isUsed (linesOf lines'.toArray method') declared' := by
    rw [isUsed_linesOf, isUsed_linesOf, hlines, hmethod.start, hmethod.lastLine, hdeclared.start,
      hdeclared.name]
  have hmethods := hforest.flatten.filter (p := fun e ↦ e.kind.isMethodLike)
    (q := fun e ↦ e.kind.isMethodLike) fun he ↦ by rw [he.kind]
  refine hmethods.flatMap_eq fun {method method'} hmethod hchildren ↦ ?_
  have hunused := hchildren.filter
    (p := fun e ↦ e.isLocalVariable && !isUsed (linesOf lines.toArray method.toEntry) e)
    (q := fun e ↦ e.isLocalVariable && !isUsed (linesOf lines'.toArray method'.toEntry) e)
    fun he ↦ by
      rw [Entry.isLocalVariable, Entry.isLocalVariable, Entry.isArgument, Entry.isArgument, he.kind,
        he.detail, hused hmethod he]
  exact hunused.map_eq fun he _ ↦ by rw [he.selection, he.name]

theorem respects_equalUpToEnd : Respects Entry.EqualUpToEnd (id : Diagnostic → Diagnostic) where
  name h := by rw [h.name]
  kind h := h.kind
  isImplements h := by rw [Entry.isImplements, Entry.isImplements, h.kind, h.detail]
  interface h := by rw [h.name]
  missing howner hmark hm hi := by rw [howner.name, hmark.selection, hm.name, hi.name]
  duplicate h uri := by rw [h.selection, h.kind, h.name]

/-- All of a report but what is said about comments and about the length of lines. -/
def aboutCode : View Diagnostic where
  hidden := ["todo-comment", "line-too-long"]
  see := id
  range := Diagnostic.range
  code := Diagnostic.code
  range_see _ := rfl
  code_see _ := rfl

/-- Comments do not influence the analysis. Two texts with the same code on all their lines have the
same outline, up to the columns at which the ranges of symbols end, and beside any other documents
the same report, up to open work and the length of lines. -/
theorem comments_ignored (o : Options) {text text' : Text} (others : List DocumentOutline)
    (h : (lines text).map stripComment = (lines text').map stripComment) :
    Symbol.Alike Entry.EqualUpToEnd (Outline.ofText text) (Outline.ofText text') ∧
      without ["todo-comment", "line-too-long"] (validate o text others) =
        without ["todo-comment", "line-too-long"] (validate o text' others) := by
  have hlines := SourceLine.sameCode_readAll h
  have hforest : Symbol.Alike Entry.EqualUpToEnd (Outline.ofText text) (Outline.ofText text') :=
    Outline.alike_ofLines (hlines.imp fun _ _ hline ↦ Outline.linesAlike_of_sameCode hline)
  have hothers : OutlinesAlike Entry.EqualUpToEnd others others :=
    List.forall₂_same.2 fun _ _ ↦ ⟨rfl, .refl Entry.EqualUpToEnd.refl _⟩
  have hvalidate :
      aboutCode.of (validate o text others) = aboutCode.of (validate o text' others) := by
    apply View.of_validate_of_alike respects_equalUpToEnd o _ hforest hothers
    · rw [unusedVariables_eq hlines hforest]
    · exact hlines.imp fun _ _ hline ↦
        ⟨movesAlike_of_sameCode hline, of_line_eq hline (List.Subset.refl _) o.maxLineLength⟩
  refine ⟨hforest, ?_⟩
  simpa only [View.of, aboutCode, List.map_id] using hvalidate

/-- A method and the same method with comments, one of them amid code that goes on. -/
def commented : Text × Text :=
  ("Sub S(a As Integer, _\n\n b As Integer)\nDim X \nEnd Sub".toList,
    "Sub S(a As Integer, _\n'X\n b As Integer)'X\nDim X 'TODO é\nEnd Sub'".toList)

theorem comments_ignored_commented :
    (lines commented.1).map stripComment = (lines commented.2).map stripComment ∧
      Symbol.Alike Entry.EqualUpToEnd (Outline.ofText commented.1) (Outline.ofText commented.2) ∧
      without ["todo-comment", "line-too-long"] (validate .standard commented.1 []) =
        without ["todo-comment", "line-too-long"] (validate .standard commented.2 []) := by
  have hcode : (lines commented.1).map stripComment = (lines commented.2).map stripComment := by
    decide +kernel
  exact ⟨hcode, comments_ignored .standard [] hcode⟩

end Check

end VbOutline