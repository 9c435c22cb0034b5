import VbOutline.Proofs.Source.Lines
import VbOutline.Proofs.Text.Lines

/-!
# Traces of lines

The open blocks depend on little of a line: on its number, on the statement that begins on it, on
whether the next line of code is an accessor, and in what is reported on the span of its code. This
is the trace of a line. It does not change with white space at the end of lines, nor with lines that
are added at the end of the document, as long as they do not begin with an accessor.
-/

namespace VbOutline

open Text Line

theorem Statement.parse_trimEnd {code : Text} (h : trim code ≠ []) :
    parse (trimEnd code) = parse code := by
  simp only [parse, Header.parse?, Declaration.parse?, trim_trimEnd, indentOf_trimEnd h]

/-- Of what comes next, a header only looks at whether it is an accessor, and only if it is one of a
property. -/
theorem Header.opensBlock_congr {h : Header} {next next' : Option Text}
    (hnext : h.block = .property → next.any isAccessor = next'.any isAccessor) (inside : Bool) :
    h.opensBlock inside next = h.opensBlock inside next' := by
  unfold opensBlock
  split
  · rfl
  · rfl
  · next hblock => rw [hnext hblock]
  · rfl

namespace SourceLine

/-! ## The visible code of a row -/

/-- The code of a row without white space at its end. -/
def shown (row : Text) : Text := trimEnd (stripComment row)

theorem shown_append_space {c : Char} (hc : isSpace c) (row : Text) :
    shown (row ++ [c]) = shown row := by
  rw [shown, shown, stripComment, withQuotes, states_append, List.takeWhile_append]
  split
  · next hall =>
    have hrow : stripComment row = (states quoteStep false row).map Prod.snd :=
      congrArg _ ((List.takeWhile_prefix _).eq_of_length hall)
    rw [List.map_append, hrow]
    apply trimEnd_append_of_all
    intro d hd
    obtain ⟨p, hp, rfl⟩ := List.mem_map.1 hd
    have hmem := (List.takeWhile_prefix _).subset hp
    rw [states_cons, states_nil, List.mem_singleton] at hmem
    rwa [hmem]
  · rfl

theorem shown_dropReturn (row : Text) : shown (dropReturn row) = shown row := by
  rw [dropReturn]
  split
  · next hlast =>
    obtain ⟨front, rfl⟩ := List.getLast?_eq_some_iff.1 (beq_iff_eq.1 hlast)
    rw [List.dropLast_concat, shown_append_space (by decide)]
  · rfl

theorem isBlank_trimEnd (code : Text) : isBlank (trimEnd code) = isBlank code := by
  rw [isBlank, isBlank, trim_trimEnd]

theorem isContinued_trimEnd (code : Text) : isContinued (trimEnd code) = isContinued code := by
  simp only [isContinued, trimEnd_trimEnd]

theorem statement?_trimEnd (continuing : Bool) (code : Text) :
    statement? continuing (trimEnd code) = statement? continuing code := by
  rw [statement?, statement?, isBlank_trimEnd]
  split
  · rfl
  · next h =>
    have hne : trim code ≠ [] := by
      intro hnil
      simp [isBlank, hnil] at h
    rw [Statement.parse_trimEnd hne]

theorem followsContinued_eq (rows : List Text) (i : Nat) :
    followsContinued rows i = ((rows.map shown).take i).foldl continues false := by
  have hcontinues (before : Bool) (code : Text) :
      continues before (trimEnd code) = continues before code := by
    rw [continues, continues, isBlank_trimEnd, isContinued_trimEnd]
  calc
    _ = ((rows.map stripComment).take i).foldl continues false := (foldl_continues_eq rows i).symm
    _ = (((rows.map stripComment).take i).map trimEnd).foldl continues false := by
      simp only [List.foldl_map, hcontinues]
    _ = _ := by
      rw [List.map_take, List.map_map]
      rfl

/-- The first code that is not blank, trimmed. -/
def firstShown? (codes : List Text) : Option Text :=
  codes.findSome? fun code ↦ if isBlank code then none else some (trim code)

theorem firstCode?_eq (rows : List Text) : firstCode? rows = firstShown? (rows.map shown) := by
  rw [firstCode?, firstShown?, List.findSome?_map]
  simp only [Function.comp_def, shown, isBlank, trim_trimEnd]

/-! ## Traces -/

/-- What the open blocks and the findings about them depend on in a line. -/
structure Trace where
  index : Nat
  statement : Option Statement
  span : Range
  beforeAccessor : Bool

def trace (line : SourceLine) : Trace :=
  ⟨line.index, line.statement, line.codeSpan, line.next.any isAccessor⟩

theorem readAll_eq (rows : List Text) :
    readAll rows = rows.mapIdx fun i row ↦
      { index := i
        raw := row
        code := stripComment row
        statement := statement? (followsContinued rows i) (stripComment row)
        next := nextCode? rows i } := by
  apply List.ext_getElem?
  intro i
  rw [List.getElem?_mapIdx]
  cases hline : (readAll rows)[i]? with
  | none =>
    rw [List.getElem?_eq_none_iff, length_readAll] at hline
    rw [List.getElem?_eq_none hline, Option.map_none]
  | some line =>
    have hread := readIn_of_mem (List.mem_of_getElem? hline)
    have hindex := index_of_getElem?_readAll hline
    rw [← hindex, hread.raw, Option.map_some, ← hread.code, ← hread.statement, ← hread.next]

/-- The span of the code does not depend on what comes after it. -/
theorem codeSpan_eq {line : SourceLine} (h : line.code = stripComment line.raw) :
    line.codeSpan = .onLine line.index ((shown line.raw).takeWhile isSpace).length
      (shown line.raw).length := by
  have hprefix : shown line.raw <+: line.raw :=
    (trimEnd_isPrefix _).trans (stripComment_isPrefix line.raw)
  have hcolumn {part : Text} (hpart : part <+: line.raw) :
      columnOf line.raw (byteSize part) = part.length := by
    obtain ⟨after, hafter⟩ := hpart
    rw [← hafter, columnOf_byteSize]
  have hindent := hcolumn ((List.takeWhile_prefix isSpace).trans hprefix)
  rw [← hcolumn hprefix, ← hindent, codeSpan, h]
  rfl

/-- The trace of a line of visible code among all lines of a document. -/
def traceAt (codes : List Text) (i : Nat) (code : Text) : Trace where
  index := i
  statement := statement? ((codes.take i).foldl continues false) code
  span := .onLine i (code.takeWhile isSpace).length code.length
  beforeAccessor := (firstShown? (codes.drop (i + 1))).any isAccessor

/-- The traces depend on the visible code only. -/
theorem map_trace_readAll (rows : List Text) :
    (readAll rows).map trace = (rows.map shown).mapIdx (traceAt (rows.map shown)) := by
  apply List.ext_getElem?
  intro i
  rw [readAll_eq, List.getElem?_map, List.getElem?_mapIdx, List.getElem?_mapIdx, List.getElem?_map,
    Option.map_map, Option.map_map]
  congr 1
  funext row
  simp only [Function.comp_apply, trace, traceAt, codeSpan_eq, nextCode?, firstCode?_eq,
    List.map_drop, followsContinued_eq]
  rw [shown, statement?_trimEnd]

theorem firstShown?_append (codes more : List Text) :
    firstShown? (codes ++ more) = (firstShown? codes).or (firstShown? more) :=
  List.findSome?_append

theorem foldl_continues_of_all {codes : List Text} (h : ∀ code ∈ codes, isContinued code = false) :
    codes.foldl continues false = false := by
  induction codes with
  | nil => rfl
  | cons code codes ih =>
    rw [List.forall_mem_cons] at h
    have hcode : continues false code = false := by simp [continues, h.1]
    rw [List.foldl_cons, hcode, ih h.2]

/-- Lines at the end of a document leave the traces of the lines before them as they are, unless they
begin with an accessor. -/
theorem map_trace_readAll_append (rows : List Text) {more : List Text}
    (h : (firstCode? more).any isAccessor = false) :
    (readAll (rows ++ more)).map trace = (readAll rows).map trace ++
      (more.map shown).mapIdx fun i ↦
        traceAt ((rows ++ more).map shown) (i + rows.length) := by
  rw [map_trace_readAll, map_trace_readAll, List.map_append, List.mapIdx_append, List.length_map]
  congr 1
  apply List.ext_getElem?
  intro i
  rw [List.getElem?_mapIdx, List.getElem?_mapIdx]
  cases hcode : (rows.map shown)[i]? with
  | none => rfl
  | some code =>
    obtain ⟨hlt, _⟩ := List.getElem?_eq_some_iff.1 hcode
    have hnext : (firstShown? ((rows.map shown).drop (i + 1) ++ more.map shown)).any isAccessor =
        (firstShown? ((rows.map shown).drop (i + 1))).any isAccessor := by
      rw [firstShown?_append, ← firstCode?_eq more]
      cases firstShown? ((rows.map shown).drop (i + 1)) with
      | none => exact h
      | some next => rfl
    rw [Option.map_some, Option.map_some, traceAt, traceAt, List.take_append_of_le_length hlt.le,
      List.drop_append_of_le_length hlt, hnext]

/-- No statement goes on from a document to the lines after it unless its last line of code is
continued. -/
theorem map_statement_traceAt {rows more : List Text}
    (hrows : followsContinued rows rows.length = false)
    (hmore : ∀ row ∈ more, isContinued (stripComment row) = false) :
    ((more.map shown).mapIdx fun i ↦
        traceAt ((rows ++ more).map shown) (i + rows.length)).map Trace.statement =
      more.map fun row ↦ statement? false (stripComment row) := by
  have hcontinuing (i : Nat) :
      (((rows ++ more).map shown).take (i + rows.length)).foldl continues false = false := by
    rw [followsContinued_eq, List.take_of_length_le (by simp)] at hrows
    rw [List.map_append, Nat.add_comm, List.take_append, List.length_map, Nat.add_sub_cancel_left,
      List.take_of_length_le (by simp), List.foldl_append, hrows]
    apply foldl_continues_of_all
    intro code hcode
    obtain ⟨row, hrow, rfl⟩ := List.mem_map.1 ((List.take_prefix _ _).subset hcode)
    rw [shown, isContinued_trimEnd]
    exact hmore row hrow
  apply List.ext_getElem?
  intro i
  rw [List.getElem?_map, List.getElem?_mapIdx, List.getElem?_map, List.getElem?_map, Option.map_map,
    Option.map_map]
  congr 1
  funext row
  simp only [Function.comp_apply, traceAt, hcontinuing, shown, statement?_trimEnd]

end SourceLine

end VbOutline
