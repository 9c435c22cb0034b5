import VbOutline.Proofs.Check.Accounting
import VbOutline.Proofs.Source.Traces

/-!
# Completing a document

A block that is not closed is reported together with the statement that closes it. Putting these
statements at the end of the document, the one for the last opened block first, closes all of them
and changes nothing else about balance: no block is reported as open any more, and the closing
statements that fitted no block are reported as before.

The two documents differ in more than the new lines, because a line feed may end the last line and
because the new lines follow the lines before them as next lines of code. So the runs over them are
compared by the traces of the lines.
-/

namespace VbOutline

open Text

/-- The closing statement that a finding asks for. -/
def Finding.closing? : Finding → Option String
  | missingClosing block _ => some block.closing
  | _ => none

namespace Check

open SourceLine

/-- The closing statements that a report asks for, the one for the last opened block first. -/
def closings (report : List Diagnostic) : List Text :=
  (report.filterMap fun d ↦ d.finding.closing?).reverse.map String.toList

/-- A text with lines after it. -/
def extended (text : Text) (rows : List Text) : Text := text ++ '\n' :: ['\n'].intercalate rows

section

variable {line line' : SourceLine} (h : line.trace = line'.trace)

include h

theorem closed?_congr : closed? line = closed? line' := by
  have hs : line.statement = line'.statement := congrArg Trace.statement h
  rw [closed?, closed?, hs]

theorem opened?_congr (around : Option Block) : opened? around line = opened? around line' := by
  have hs : line.statement = line'.statement := congrArg Trace.statement h
  have hnext : line.next.any isAccessor = line'.next.any isAccessor := congrArg Trace.beforeAccessor h
  have hopens (header : Header) (inside : Bool) :
      header.opensBlock inside line.next = header.opensBlock inside line'.next :=
    Header.opensBlock_congr (fun _ ↦ hnext) inside
  rw [opened?, opened?, hs]
  simp only [hopens]

theorem advance?_congr (blocks : List BlockAt) : advance? blocks line = advance? blocks line' := by
  have hindex : line.index = line'.index := congrArg Trace.index h
  rw [advance?, advance?, closed?_congr h, opened?_congr h, hindex]

theorem misfit_congr {t t' : Tracker} (hblocks : t.blocks = t'.blocks) :
    misfit t line = misfit t' line' := by
  have hs : line.statement = line'.statement := congrArg Trace.statement h
  have hspan : line.codeSpan = line'.codeSpan := congrArg Trace.span h
  rw [Tracker.blocks_eq, Tracker.blocks_eq] at hblocks
  rw [misfit, misfit, hs, hspan]
  cases hopenings : t.openings with
  | nil =>
    rw [hopenings, List.map_nil, eq_comm, List.map_eq_nil_iff] at hblocks
    rw [hblocks]
  | cons o rest =>
    rw [hopenings, List.map_cons, eq_comm, List.map_eq_cons_iff] at hblocks
    obtain ⟨o', rest', hopenings', ho, _⟩ := hblocks
    obtain ⟨hblock, hindex⟩ := Prod.mk.inj ho
    simp only [hopenings', hblock, hindex]

end

/-- What is reported about balance on the way over lines. -/
def misfits (t : Tracker) (lines : List SourceLine) : List Diagnostic :=
  (states track t lines).flatMap fun p ↦ misfit p.1 p.2

theorem misfits_cons (t : Tracker) (line : SourceLine) (lines : List SourceLine) :
    misfits t (line :: lines) = misfit t line ++ misfits (track t line) lines := by
  rw [misfits, states_cons, List.flatMap_cons]
  rfl

theorem misfits_append (t : Tracker) (front back : List SourceLine) :
    misfits t (front ++ back) = misfits t front ++ misfits (front.foldl track t) back := by
  rw [misfits, states_append, List.flatMap_append]
  rfl

theorem run_congr {lines lines' : List SourceLine}
    (h : lines.map SourceLine.trace = lines'.map SourceLine.trace) {t t' : Tracker}
    (hblocks : t.blocks = t'.blocks) :
    misfits t lines = misfits t' lines' ∧
      (lines.foldl track t).blocks = (lines'.foldl track t').blocks := by
  induction lines generalizing lines' t t' with
  | nil =>
    obtain rfl : lines' = [] := by simpa using h.symm
    exact ⟨rfl, hblocks⟩
  | cons line lines ih =>
    rw [List.map_cons, eq_comm, List.map_eq_cons_iff] at h
    obtain ⟨line', rest', rfl, hline, hrest⟩ := h
    have hstep : (track t line).blocks = (track t' line').blocks := by
      rw [blocks_track, blocks_track, hblocks, advance?_congr hline.symm]
    obtain ⟨hmisfits, hfinal⟩ := ih hrest.symm hstep
    rw [misfits_cons, misfits_cons, misfit_congr hline.symm hblocks, hmisfits]
    exact ⟨rfl, hfinal⟩

/-- Closing statements for the innermost open blocks, with blank lines among them, close just these
blocks and are not reported. -/
theorem run_closings {lines : List SourceLine} {t : Tracker} {inner outer : List BlockAt}
    (hblocks : t.blocks = inner ++ outer)
    (hlines : lines.filterMap SourceLine.statement =
      inner.map fun b ↦ .blockEnd ⟨b.1, b.1.closing⟩) :
    misfits t lines = [] ∧ (lines.foldl track t).blocks = outer := by
  induction lines generalizing t inner with
  | nil =>
    obtain rfl : inner = [] := by simpa using hlines.symm
    exact ⟨rfl, hblocks⟩
  | cons line lines ih =>
    rw [misfits_cons, List.foldl_cons]
    cases hs : line.statement with
    | none =>
      rw [List.filterMap_cons_none hs] at hlines
      have hstep : (track t line).blocks = t.blocks := by simp [track, Tracker.step, hs]
      obtain ⟨hmisfits, hfinal⟩ := ih (hstep.trans hblocks) hlines
      rw [misfit_of_closed?_eq_none t (by simp [closed?, hs]), hmisfits]
      exact ⟨rfl, hfinal⟩
    | some s =>
      rw [List.filterMap_cons_some hs, eq_comm, List.map_eq_cons_iff] at hlines
      obtain ⟨b, inner, rfl, rfl, hrest⟩ := hlines
      have hclosed : closed? line = some b.1 := by simp [closed?, hs]
      have hstep : (track t line).blocks = inner ++ outer := by
        rw [blocks_track, hblocks]
        simp [advance?, hclosed]
      obtain ⟨hmisfits, hfinal⟩ := ih hstep hrest.symm
      have hfits : misfit t line = [] := by
        obtain ⟨_, _, _, _, _, hmisfit⟩ | ⟨hstack, _, _⟩ | ⟨frame, rest, hstack, hne, _, _⟩ :=
          closing_cases hs t
        · exact hmisfit
        · simp [Tracker.blocks, hstack] at hblocks
        · simp only [Tracker.blocks, hstack, List.map_cons, List.cons_append, List.cons.injEq] at hblocks
          exact absurd (congrArg Prod.fst hblocks.1) hne
      rw [hfits, hmisfits]
      exact ⟨rfl, hfinal⟩

end Check

/-! ## Closing statements as lines -/

namespace Block

open Line

/-- The closing statement of a block is read as closing this block. -/
theorem statement?_closing (b : Block) :
    SourceLine.statement? false (stripComment b.closing.toList) =
      some (.blockEnd ⟨b, b.closing⟩) := by
  cases b <;> decide +kernel

theorem isContinued_closing (b : Block) : isContinued (stripComment b.closing.toList) = false := by
  cases b <;> decide +kernel

theorem isAccessor_firstCode?_closing (bs : List Block) :
    (firstCode? (bs.map fun b ↦ b.closing.toList)).any isAccessor = false := by
  cases bs with
  | nil => rfl
  | cons b bs =>
    have hcode : firstCode? [b.closing.toList] = some b.closing.toList ∧
        isAccessor b.closing.toList = false := by
      cases b <;> decide +kernel
    rw [List.map_cons, ← List.singleton_append, firstCode?, List.findSome?_append, ← firstCode?,
      hcode.1]
    exact hcode.2

theorem lines_closings (bs : List Block) :
    lines (['\n'].intercalate (bs.map fun b ↦ b.closing.toList)) =
      bs.map fun b ↦ b.closing.toList := by
  apply lines_intercalate
  all_goals
    rw [List.forall_mem_map]
    intro b _
    cases b <;> decide +kernel

end Block

namespace Check

open SourceLine Line

/-! ## The completed document -/

/-- Closing statements after the rows of a document, possibly after an empty row, close the innermost
open blocks, and the document is reported as before. -/
theorem run_append {rows more : List Text} (hrows : followsContinued rows rows.length = false)
    (haccessor : (firstCode? more).any isAccessor = false)
    (hmore : ∀ row ∈ more, isContinued (stripComment row) = false) {inner outer : List BlockAt}
    (hblocks : ((readAll rows).foldl track .start).blocks = inner ++ outer)
    (hclosings : more.filterMap (fun row ↦ statement? false (stripComment row)) =
      inner.map fun b ↦ .blockEnd ⟨b.1, b.1.closing⟩) :
    misfits .start (readAll (rows ++ more)) = misfits .start (readAll rows) ∧
      ((readAll (rows ++ more)).foldl track .start).blocks = outer := by
  obtain ⟨front, back, hread, hfront, hback⟩ :=
    List.map_eq_append_iff.1 (map_trace_readAll_append rows haccessor)
  obtain ⟨hmisfits, hfinal⟩ := run_congr (t := .start) hfront rfl
  have hstatements : back.map SourceLine.statement =
      more.map fun row ↦ statement? false (stripComment row) := by
    rw [← map_statement_traceAt hrows hmore, ← hback, List.map_map]
    rfl
  have hblockEnds : back.filterMap SourceLine.statement =
      inner.map fun b ↦ .blockEnd ⟨b.1, b.1.closing⟩ := by
    calc
      _ = (back.map SourceLine.statement).filterMap id := by rw [List.filterMap_map]; rfl
      _ = more.filterMap fun row ↦ statement? false (stripComment row) := by
        rw [hstatements, List.filterMap_map]; rfl
      _ = _ := hclosings
  obtain ⟨hnone, hclosed⟩ := run_closings (hfinal.trans hblocks) hblockEnds
  rw [hread, misfits_append, hmisfits, hnone, List.append_nil, List.foldl_append]
  exact ⟨rfl, hclosed⟩

/-- The lines of a text with rows after it are, up to white space at the end, those of the text,
possibly an empty line, and these rows. -/
theorem lines_extended (text : Text) (more : List Text) :
    ∃ rows blank, lines (extended text more) = rows ++ blank ++ lines (['\n'].intercalate more) ∧
      rows.map shown = (lines text).map shown ∧ (blank = [] ∨ blank = [[]]) := by
  obtain hlines | ⟨front, last, htext, hlines⟩ := lines_append_cases text (['\n'].intercalate more)
  · exact ⟨lines text, [[]], by rw [extended, hlines, List.append_cons], rfl, .inr rfl⟩
  · refine ⟨front ++ [dropReturn last], [], by rw [extended, hlines]; simp, ?_, .inl rfl⟩
    rw [htext, List.map_append, List.map_append, List.map_singleton, List.map_singleton,
      shown_dropReturn]

theorem run_extended {text : Text} (htext : followsContinued (lines text) (lines text).length = false)
    {inner outer : List BlockAt} (hblocks : (final text).blocks = inner ++ outer) :
    let wider := extended text ((inner.map Prod.fst).map fun b ↦ b.closing.toList)
    misfits .start (readAll (lines wider)) = misfits .start (readAll (lines text)) ∧
      (final wider).blocks = outer := by
  generalize hbs : inner.map Prod.fst = bs
  intro wider
  obtain ⟨rows, blank, hwider, hrows, hblank⟩ :=
    lines_extended text (bs.map fun b ↦ b.closing.toList)
  rw [Block.lines_closings, List.append_assoc] at hwider
  -- the text itself and the rows that stand for it in the longer document
  have htraces : (readAll rows).map SourceLine.trace = (readAll (lines text)).map SourceLine.trace := by
    rw [map_trace_readAll, map_trace_readAll, hrows]
  obtain ⟨hmisfits, hfinal⟩ := run_congr (t := .start) htraces rfl
  have hcontinued : followsContinued rows rows.length = false := by
    have hlength : rows.length = (lines text).length := by simpa using congrArg List.length hrows
    rw [followsContinued_eq, hrows, hlength, ← followsContinued_eq, htext]
  -- the rows that are new
  have haccessor : (firstCode? (blank ++ bs.map fun b ↦ b.closing.toList)).any isAccessor = false := by
    obtain rfl | rfl := hblank <;> exact Block.isAccessor_firstCode?_closing bs
  have hmore : ∀ row ∈ blank ++ bs.map (fun b ↦ b.closing.toList),
      isContinued (stripComment row) = false := by
    rw [List.forall_mem_append, List.forall_mem_map]
    refine ⟨?_, fun b _ ↦ b.isContinued_closing⟩
    obtain rfl | rfl := hblank
    · simp
    · rw [List.forall_mem_singleton]
      rfl
  have hclosings : (blank ++ bs.map fun b ↦ b.closing.toList).filterMap
      (fun row ↦ statement? false (stripComment row)) =
        inner.map fun b ↦ .blockEnd ⟨b.1, b.1.closing⟩ := by
    have hblankRows : blank.filterMap (fun row ↦ statement? false (stripComment row)) = [] := by
      obtain rfl | rfl := hblank <;> rfl
    rw [List.filterMap_append, hblankRows, List.nil_append, List.filterMap_map, ← hbs,
      List.filterMap_map]
    simp only [Function.comp_def, Block.statement?_closing, List.filterMap_eq_map']
  obtain ⟨hsame, hclosed⟩ := run_append hcontinued haccessor hmore (hfinal.trans hblocks) hclosings
  rw [← hwider] at hsame hclosed
  exact ⟨hsame.trans hmisfits, hclosed⟩

/-- The blocks that are open at the end are reported in the order in which they were opened. -/
theorem sortByStart_finish (text : Text) : sortByStart (final text).finish = (final text).finish := by
  obtain ⟨n, hrecent⟩ := (recent_states (rising_readAll (lines text)) recent_start).2
  have hsorted := ((recent_iff (final text) n).1 hrecent).2
  apply List.mergeSort_of_pairwise
  rw [finish_eq, List.pairwise_map, List.pairwise_reverse]
  apply hsorted.imp
  intro a b hlt
  have hline : (missing b).range.start.line < (missing a).range.start.line := hlt
  simp [Position.le, hline]

theorem withCodes_missing_validate (o : Options) (text : Text) (others : List DocumentOutline) :
    withCodes ["missing-closing"] (validate o text others) =
      if o.isEnabled "missing-closing" then (final text).finish else [] := by
  have hmisfits := codesIn_flatMap fun (p : Tracker × SourceLine) (_ : p ∈ pass text) ↦
    codesIn_misfit p.1 p.2
  have hcodes : ["missing-closing"] ⊆ balanceCodes := by simp [balanceCodes]
  rw [withCodes_validate, ← withCodes_withCodes hcodes, withCodes_findings, withCodes_append,
    hmisfits.withCodes_eq_nil (by simp), List.nil_append,
    (final text).codesIn_finish.withCodes_eq_self (List.Subset.refl _),
    filter_isEnabled (final text).codesIn_finish]
  split
  · exact sortByStart_finish text
  · exact List.mergeSort_nil

theorem withCodes_misfits_validate (o : Options) (text : Text) (others : List DocumentOutline) :
    withCodes ["mismatched-block", "unexpected-closing"] (validate o text others) =
      sortByStart ((misfits .start (readAll (lines text))).filter fun d ↦ o.isEnabled d.code) := by
  have hmisfits := codesIn_flatMap fun (p : Tracker × SourceLine) (_ : p ∈ pass text) ↦
    codesIn_misfit p.1 p.2
  have hcodes : ["mismatched-block", "unexpected-closing"] ⊆ balanceCodes := by simp [balanceCodes]
  rw [withCodes_validate, ← withCodes_withCodes hcodes, withCodes_findings, withCodes_append,
    (final text).codesIn_finish.withCodes_eq_nil (by simp), List.append_nil,
    hmisfits.withCodes_eq_self (by simp)]
  rfl

theorem closings_validate (o : Options) (text : Text) (others : List DocumentOutline) :
    closings (validate o text others) =
      if o.isEnabled "missing-closing" then
        ((final text).blocks.map Prod.fst).map fun b ↦ b.closing.toList
      else [] := by
  have hcodes (report : List Diagnostic) :
      closings (withCodes ["missing-closing"] report) = closings report := by
    rw [closings, closings, withCodes, List.filterMap_filter]
    congr 3
    funext d
    obtain ⟨range, finding⟩ := d
    cases finding <;> rfl
  rw [← hcodes, withCodes_missing_validate]
  split
  · rw [closings, finish_eq, List.filterMap_map, Tracker.blocks_eq, List.map_map, List.map_map]
    change ((List.filterMap (fun o : Block × SourceLine ↦ some o.1.closing) _).reverse.map _) = _
    rw [List.filterMap_eq_map', ← List.map_reverse, List.reverse_reverse, List.map_map]
    rfl
  · rfl

/-- Putting the closing statements that a report asks for at the end of the text, the one for the
last opened block first, closes all blocks and changes nothing else about balance. -/
theorem balance_of_completed (o : Options) (text : Text) (others : List DocumentOutline)
    (htext : followsContinued (lines text) (lines text).length = false) :
    let report := validate o text others
    let completed := validate o (extended text (closings report)) others
    withCodes ["missing-closing"] completed = [] ∧
      withCodes ["mismatched-block", "unexpected-closing"] completed =
        withCodes ["mismatched-block", "unexpected-closing"] report := by
  intro report completed
  rw [withCodes_missing_validate, withCodes_misfits_validate, withCodes_misfits_validate,
    closings_validate]
  split
  · obtain ⟨hmisfits, hblocks⟩ := run_extended htext (List.append_nil (final text).blocks).symm
    rw [Tracker.blocks_eq, List.map_eq_nil_iff] at hblocks
    rw [hmisfits, finish_eq, hblocks]
    exact ⟨rfl, rfl⟩
  · -- nothing is asked for, and only the line feed is added
    obtain ⟨hmisfits, _⟩ := run_extended htext (List.nil_append (final text).blocks).symm
    exact ⟨rfl, congrArg _ (congrArg _ hmisfits)⟩

/-- A document with three open blocks and a closing statement that fits none of them. -/
theorem balance_of_completed_openMethod :
    let text := "Class A\nSub B()\nFor i = 1 To 2\nEnd If".toList
    let report := validate .standard text []
    let completed := validate .standard (extended text (closings report)) []
    followsContinued (lines text) (lines text).length = false ∧
      closings report = ["Next".toList, "End Sub".toList, "End Class".toList] ∧
      withCodes ["missing-closing"] completed = [] ∧
      withCodes ["mismatched-block", "unexpected-closing"] completed =
        withCodes ["mismatched-block", "unexpected-closing"] report := by
  intro text report completed
  have htext : followsContinued (lines text) (lines text).length = false := by decide +kernel
  exact ⟨htext, by rw [closings_validate]; decide +kernel, balance_of_completed .standard text [] htext⟩

end Check

end VbOutline
