import Mathlib.Data.List.SplitBy
import VbOutline.Proofs.Check.Likeness
import VbOutline.Proofs.Line.Numbers
import VbOutline.Proofs.Outline.Selection
import VbOutline.Proofs.Source.Traces

/-!
# What diagnostics cover

Every diagnostic lies within one line of its document. What it covers there is what it is about: a
number, a name as it is declared, open work up to the end of its comment, or the mark of an
interface. The places come from four sources. The checks of single lines take them from what stands
in the line; the checks of blocks from the code of a line that is on the stack of open blocks; and
the checks of the outline from the selections of symbols that are neither regions nor arguments, for
which selections cover the names.
-/

namespace VbOutline

open Text Line

namespace Line

theorem findWord?_eq_some {p : Text → Bool} {s before word after : Text}
    (h : findWord? p s = some (before, word, after)) : s = before ++ (word ++ after) := by
  unfold findWord? at h
  split at h
  · cases h
  · next run rest hrest =>
    simp only [Option.some.injEq, Prod.mk.injEq] at h
    obtain ⟨rfl, rfl, rfl⟩ := h
    calc
      s = (runs s).flatten := (List.flatten_splitBy _ s).symm
      _ = ((runs s).takeWhile fun r ↦ !p r).flatten ++ (run :: rest).flatten := by
        rw [← hrest, ← List.flatten_append, List.takeWhile_append_dropWhile]
      _ = _ := by rw [List.flatten_cons]

end Line

namespace Check

open Outline VbOutline.Symbol

/-- The range lies within one row. -/
def WithinRow (rows : List Text) (r : Range) : Prop :=
  r.stop.line = r.start.line ∧ r.start.character ≤ r.stop.character ∧
    ∃ row, rows[r.start.line]? = some row ∧ r.stop.character ≤ row.length

/-- The range lies within one row and covers the part there. -/
structure Covers (rows : List Text) (r : Range) (part : Text) : Prop where
  within : WithinRow rows r
  covered : coveredText rows r = part

section

variable {rows : List Text} {line : SourceLine}

theorem covers_nameRange (hline : line.ReadIn rows) {offset : Nat} {part : Text}
    (h : StandsAt line.raw offset part) : Covers rows (nameRange line offset part) part where
  within := ⟨rfl, Nat.le_add_right _ _, line.raw, hline.raw,
    h.columnOf_add_length_le (Nat.le_refl offset)⟩
  covered := by
    rw [coveredText_nameRange hline]
    exact h.extract_eq

/-- The span of a part in bytes is its range in characters. -/
theorem span_eq_nameRange {offset : Nat} {part : Text} (h : StandsAt line.raw offset part) :
    line.span offset (byteSize part) = nameRange line offset part := by
  obtain ⟨before, after, hraw, rfl⟩ := h
  have hstart : columnOf line.raw (byteSize before) = before.length := by
    rw [hraw, List.append_assoc, columnOf_byteSize]
  have hstop :
      columnOf line.raw (byteSize before + byteSize part) = before.length + part.length := by
    rw [hraw, ← byteSize_append, columnOf_byteSize, List.length_append]
  rw [SourceLine.span, nameRange, hstart, hstop]

theorem withinRow_codeSpan (hline : line.ReadIn rows) : WithinRow rows line.codeSpan := by
  have hshown : SourceLine.shown line.raw <+: line.raw :=
    (trimEnd_isPrefix _).trans (stripComment_isPrefix line.raw)
  rw [SourceLine.codeSpan_eq hline.code]
  exact ⟨rfl, (List.takeWhile_prefix _).length_le, line.raw, hline.raw, hshown.length_le⟩

end

/-- The name of a declarator of the line, as it stands at the range. -/
def Declares (line : SourceLine) (r : Range) (name : Text) : Prop :=
  ∃ d x, line.statement = some (.declaration d) ∧ x ∈ d.declarators ∧ x.name = name ∧
    r = nameRange line x.offset name

/-- The name of the header on the line, as it stands at the range. -/
def Heads (line : SourceLine) (r : Range) (block : Block) (name : Text) : Prop :=
  ∃ h, line.statement = some (.header h) ∧ h.block = block ∧ h.name = name ∧
    r = nameRange line h.nameOffset name

/-- The part is what the diagnostic is about. Nothing is asked of a diagnostic about the length of a
line, or about a statement as a whole. -/
def IsSubject (text : Text) (d : Diagnostic) (part : Text) : Prop :=
  match d.finding with
  | .magicNumber _ => d.finding.data? = some (.magicNumber part)
  | .unusedVariable _ => d.finding.data? = some (.unusedVariable part)
  | .todoComment _ => d.finding.message = String.ofList part
  | .untypedVariable name | .uninitializedConst name | .namingConvention name =>
    part = name ∧ ∃ line ∈ SourceLine.readAll (lines text), Declares line d.range name
  | .missingReturnType block name =>
    part = name ∧ ∃ line ∈ SourceLine.readAll (lines text), Heads line d.range block name
  | .duplicateDeclaration kind name _ =>
    part = name ∧ ∃ s ∈ Scope.topLevelSymbols (ofText text),
      s.kind = kind ∧ s.name = name ∧ s.selection = d.range
  | .missingMember owner _ _ =>
    ∃ s ∈ flatten (ofText text), s.name = owner ∧
      ∃ mark ∈ s.children, mark.isImplements ∧ mark.selection = d.range ∧ part = mark.name
  | .missingThen | .lineTooLong _ _ | .mismatchedBlock _ _ _ | .unexpectedClosing _
  | .missingClosing _ _ | .unreachableCode | .emptyBlock _ _ => True

/-- The diagnostic lies within a line of the text and covers what it is about. -/
structure Placed (text : Text) (d : Diagnostic) : Prop where
  within : WithinRow (lines text) d.range
  subject : IsSubject text d (coveredText (lines text) d.range)

theorem Placed.of_covers {text part : Text} {d : Diagnostic} (h : Covers (lines text) d.range part)
    (hsubject : IsSubject text d part) : Placed text d :=
  ⟨h.within, h.covered.symm ▸ hsubject⟩

section

variable {text : Text} {line : SourceLine} (hline : line ∈ SourceLine.readAll (lines text))
include hline

/-- What is said about a part of the code of a line. -/
theorem placed_of_standsAt {offset : Nat} {part : Text} (h : StandsAt line.code offset part)
    {finding : Finding}
    (hsubject : IsSubject text ⟨nameRange line offset part, finding⟩ part) :
    Placed text ⟨line.span offset (byteSize part), finding⟩ := by
  have hread := SourceLine.readIn_of_mem hline
  have hraw := h.extend hread.code_isPrefix
  rw [span_eq_nameRange hraw]
  exact .of_covers (covers_nameRange hread hraw) hsubject

theorem placed_length {limit : Nat} {d : Diagnostic} (hd : d ∈ length limit line) :
    Placed text d := by
  have hread := SourceLine.readIn_of_mem hline
  simp only [length] at hd
  split at hd
  · cases hd
  · next hlong =>
    obtain rfl := List.mem_singleton.1 hd
    exact ⟨⟨rfl, (Nat.lt_of_not_le hlong).le, line.raw, hread.raw, Nat.le_refl _⟩, trivial⟩

theorem placed_todo {d : Diagnostic} (hd : d ∈ todo line) : Placed text d := by
  have hread := SourceLine.readIn_of_mem hline
  unfold todo at hd
  split at hd
  · next before marker after hfound =>
    obtain rfl := List.mem_singleton.1 hd
    obtain ⟨comment, hcomment, hmarker⟩ := Option.bind_eq_some_iff.1 hfound
    have hraw : line.raw = line.code ++ '\'' :: (before ++ (marker ++ after)) := by
      rw [hread.code, ← findWord?_eq_some hmarker]
      exact comment?_eq_some hcomment
    have hrest :
        StandsAt line.raw (byteSize line.code + 1 + byteSize before) (marker ++ after) := by
      refine ⟨line.code ++ '\'' :: before, [], ?_, ?_⟩
      · rw [hraw]
        simp
      · rw [byteSize_append, byteSize_cons, show '\''.utf8Size = 1 from rfl, Nat.add_assoc]
    have hnote := hrest.left_part (trimEnd_isPrefix _)
    rw [span_eq_nameRange hnote]
    exact .of_covers (covers_nameRange hread hnote) rfl
  · cases hd

theorem placed_magicNumbers {d : Diagnostic} (hd : d ∈ magicNumbers line) : Placed text d := by
  obtain ⟨n, hn, rfl⟩ := List.mem_map.1 hd
  exact placed_of_standsAt hline (standsAt_of_mem_numbers (List.mem_filter.1 hn).1) rfl

theorem placed_declarator {around : Surroundings} {declaration : Declaration}
    (hstatement : line.statement = some (.declaration declaration)) {x : Declarator}
    (hx : x ∈ declaration.declarators) {d : Diagnostic}
    (hd : d ∈ declarator around line declaration x) : Placed text d := by
  have hparse : Declaration.parse? line.code = some declaration :=
    (SourceLine.readIn_of_mem hline).readFrom hstatement
  have hdeclares : Declares line (nameRange line x.offset x.name) x.name :=
    ⟨declaration, x, hstatement, hx, rfl, rfl⟩
  have hplaced {finding : Finding}
      (hfinding : finding ∈ [Finding.untypedVariable x.name, .uninitializedConst x.name,
        .namingConvention x.name]) :
      Placed text ⟨line.span x.offset (byteSize x.name), finding⟩ := by
    apply placed_of_standsAt hline (Declaration.standsAt_declarator hparse hx)
    simp only [List.mem_cons, List.not_mem_nil, or_false] at hfinding
    obtain rfl | rfl | rfl := hfinding <;> exact ⟨rfl, line, hline, hdeclares⟩
  simp only [declarator] at hd
  split at hd
  · split at hd
    · cases hd
    · obtain rfl := List.mem_singleton.1 hd
      exact hplaced (by simp)
  · rw [List.mem_append, List.mem_ite_nil_right, List.mem_ite_nil_right, List.mem_singleton,
      List.mem_singleton] at hd
    obtain ⟨-, rfl⟩ | ⟨-, rfl⟩ := hd <;> exact hplaced (by simp)

theorem placed_statement {around : Surroundings} {d : Diagnostic} (hd : d ∈ statement around line) :
    Placed text d := by
  have hread := SourceLine.readIn_of_mem hline
  unfold statement at hd
  split at hd
  · rw [condition, List.mem_ite_nil_right, List.mem_singleton] at hd
    obtain ⟨-, rfl⟩ := hd
    exact ⟨withinRow_codeSpan hread, trivial⟩
  · next declaration hstatement =>
    obtain ⟨x, hx, hd⟩ := List.mem_flatMap.1 hd
    exact placed_declarator hline hstatement hx hd
  · next h hstatement =>
    rw [returnType, List.mem_ite_nil_right, List.mem_singleton] at hd
    obtain ⟨-, rfl⟩ := hd
    exact placed_of_standsAt hline (Header.standsAt_name (hread.readFrom hstatement))
      ⟨rfl, line, hline, h, hstatement, rfl, rfl, rfl⟩
  · cases hd

theorem placed_line {limit : Nat} {around : Surroundings} {d : Diagnostic}
    (hd : d ∈ Check.line limit around line) : Placed text d := by
  rw [Check.line, List.mem_append, List.mem_append, List.mem_append, List.mem_ite_nil_left] at hd
  obtain ((hd | hd) | ⟨-, hd⟩) | hd := hd
  · exact placed_length hline hd
  · exact placed_todo hline hd
  · exact placed_magicNumbers hline hd
  · exact placed_statement hline hd

end

/-! ## Blocks -/

/-- Every diagnostic is about the code of one of the lines. -/
def SpansOf (lines : List SourceLine) (ds : List Diagnostic) : Prop :=
  ∀ d ∈ ds, ∃ line ∈ lines, d.range = line.codeSpan

namespace Tracker

/-- The open blocks and their segments began on some of the lines. -/
def From (lines : List SourceLine) (t : Tracker) : Prop :=
  ∀ frame ∈ t.stack, frame.line ∈ lines ∧ frame.segment.line ∈ lines

variable {lines : List SourceLine} {t : Tracker}

theorem From.setDead (h : t.From lines) (dead : Bool) : (t.setDead dead).From lines := by
  obtain ⟨stack, isDead⟩ := t
  cases stack with
  | nil => exact h
  | cons frame rest => exact List.forall_mem_cons.2 (List.forall_mem_cons.1 h)

theorem From.markContent (h : t.From lines) : t.markContent.From lines := by
  obtain ⟨stack, isDead⟩ := t
  cases stack with
  | nil => exact h
  | cons frame rest => exact List.forall_mem_cons.2 (List.forall_mem_cons.1 h)

theorem spansOf_emptySegment {frame : Frame} (h : frame.segment.line ∈ lines) :
    SpansOf lines (emptySegment frame) := by
  intro d hd
  rw [emptySegment, List.mem_ite_nil_right, List.mem_singleton] at hd
  obtain ⟨-, rfl⟩ := hd
  exact ⟨frame.segment.line, h, rfl⟩

theorem spansOf_nil : SpansOf lines [] := List.forall_mem_nil _

section

variable {line : SourceLine} (hline : line ∈ lines)
include hline

theorem From.push (h : t.From lines) (block : Block) : (t.push block line).From lines :=
  List.forall_mem_cons.2 ⟨⟨hline, hline⟩, h.setDead false⟩

theorem spansOf_singleton (finding : Finding) : SpansOf lines [⟨line.codeSpan, finding⟩] := by
  intro d hd
  obtain rfl := List.mem_singleton.1 hd
  exact ⟨line, hline, rfl⟩

theorem From.close (h : t.From lines) (e : BlockEnd) :
    (t.close line e).1.From lines ∧ SpansOf lines (t.close line e).2 := by
  obtain ⟨stack, isDead⟩ := t
  cases stack with
  | nil => exact ⟨h, spansOf_singleton hline _⟩
  | cons frame rest =>
    obtain ⟨hframe, hrest⟩ := List.forall_mem_cons.1 h
    simp only [Tracker.close]
    split
    · exact ⟨From.setDead (t := ⟨rest, isDead⟩) hrest false, spansOf_emptySegment hframe.2⟩
    · exact ⟨h, spansOf_singleton hline _⟩

theorem From.branch (h : t.From lines) (b : Branch) :
    (t.branch line b).1.From lines ∧ SpansOf lines (t.branch line b).2 := by
  obtain ⟨stack, isDead⟩ := t
  cases stack with
  | nil => exact ⟨h, spansOf_nil⟩
  | cons frame rest =>
    obtain ⟨hframe, hrest⟩ := List.forall_mem_cons.1 h
    simp only [Tracker.branch]
    split
    · exact ⟨List.forall_mem_cons.2 ⟨⟨hframe.1, hline⟩, hrest⟩, spansOf_emptySegment hframe.2⟩
    · exact ⟨h, spansOf_nil⟩

theorem From.simple (h : t.From lines) (leaves : Bool) :
    (t.simple line leaves).1.From lines ∧ SpansOf lines (t.simple line leaves).2 := by
  simp only [Tracker.simple]
  constructor
  · split
    · exact h.markContent.setDead true
    · exact h.markContent
  · split
    · exact spansOf_singleton hline _
    · exact spansOf_nil

/-- A line keeps the blocks on lines of the document, and what is reported at it is about the code
of one of them. -/
theorem From.step (h : t.From lines) :
    (t.step line).1.From lines ∧ SpansOf lines (t.step line).2 := by
  rw [step_eq_perform]
  cases line.move with
  | pass => exact ⟨h, spansOf_nil⟩
  | close e => exact h.close hline e
  | declare block opens =>
    refine ⟨?_, spansOf_nil⟩
    simp only [perform]
    split
    · exact h.markContent.push hline block
    · exact h.markContent
  | region => exact ⟨h.push hline .region, spansOf_nil⟩
  | enter block => exact ⟨h.markContent.push hline block, spansOf_nil⟩
  | branch b => exact h.branch hline b
  | simple leaves => exact h.simple hline leaves

end

theorem From.foldl_track {seen : List SourceLine} (hseen : seen ⊆ lines) (h : t.From lines) :
    (seen.foldl track t).From lines := by
  induction seen generalizing t with
  | nil => exact h
  | cons line seen ih =>
    obtain ⟨hline, hseen⟩ := List.cons_subset.1 hseen
    exact ih hseen (h.step hline).1

theorem From.finish (h : t.From lines) : SpansOf lines t.finish := by
  intro d hd
  obtain ⟨frame, hframe, rfl⟩ := List.mem_map.1 hd
  exact ⟨frame.line, (h frame (List.mem_reverse.1 hframe)).1, rfl⟩

end Tracker

theorem isSubject_of_blockCode {text part : Text} {d : Diagnostic}
    (h : d.code ∈ "missing-closing" :: blockCodes) : IsSubject text d part := by
  obtain ⟨range, finding⟩ := d
  cases finding with
  | mismatchedBlock | unexpectedClosing | missingClosing | unreachableCode | emptyBlock
  | missingThen | lineTooLong => trivial
  | untypedVariable | uninitializedConst | todoComment | magicNumber | missingReturnType
  | namingConvention | unusedVariable | missingMember | duplicateDeclaration =>
    simp [Diagnostic.code, Finding.code, blockCodes] at h

section

variable {text : Text} {d : Diagnostic}

theorem placed_of_spansOf {ds : List Diagnostic}
    (hspans : SpansOf (SourceLine.readAll (lines text)) ds)
    (hcodes : CodesIn ("missing-closing" :: blockCodes) ds) (hd : d ∈ ds) : Placed text d := by
  obtain ⟨line, hline, hrange⟩ := hspans d hd
  have hwithin := withinRow_codeSpan (SourceLine.readIn_of_mem hline)
  exact ⟨hrange ▸ hwithin, isSubject_of_blockCode (hcodes d hd)⟩

theorem placed_walk {limit : Nat} (hd : d ∈ walk limit (SourceLine.readAll (lines text))) :
    Placed text d := by
  have hfrom {seen : List SourceLine} (hseen : seen ⊆ SourceLine.readAll (lines text)) :
      (seen.foldl track .start).From (SourceLine.readAll (lines text)) :=
    Tracker.From.foldl_track hseen (by simp [Tracker.From, Tracker.start])
  rw [walk, List.mem_append] at hd
  obtain hd | hd := hd
  · obtain ⟨⟨t, line⟩, hstate, hd⟩ := List.mem_flatMap.1 hd
    obtain ⟨front, back, hlines, ht⟩ := exists_append_of_mem_states hstate
    have hline : line ∈ SourceLine.readAll (lines text) := by
      rw [hlines]
      simp
    have hseen : front ⊆ SourceLine.readAll (lines text) := by
      rw [hlines]
      exact List.subset_append_left _ _
    obtain hd | hd := List.mem_append.1 hd
    · exact placed_line hline hd
    · dsimp only at ht
      rw [ht] at hd
      exact placed_of_spansOf ((hfrom hseen).step hline).2
        ((Tracker.codesIn_step _ line).mono (List.subset_cons_self _ _)) hd
  · exact placed_of_spansOf (hfrom (List.Subset.refl _)).finish
      ((Tracker.codesIn_finish _).mono (by simp)) hd

/-! ## The outline -/

/-- The selection of a symbol that is neither a region nor an argument covers its name. -/
theorem covers_selection {s : Symbol} (hs : s ∈ flatten (ofText text)) (hkind : s.kind ≠ .container)
    (hargument : s.kind = .variableKind → s.isArgument = false) :
    Covers (lines text) s.selection s.name := by
  obtain ⟨line, hmem, o, t, ht, hsketch⟩ := exists_created hs
  have hline := SourceLine.readIn_of_mem hmem
  have horigin : Origin line s.sketch := hsketch ▸ origin_of_mem_created hline ht
  have hregion : ¬ line.IsUnnamedRegion := by
    rintro ⟨⟨p, hp⟩, -⟩
    simp only [created, hp, flatten_leaf_cons, flatten_nil, List.mem_singleton] at ht
    subst ht
    exact hkind (congrArg Entry.kind hsketch).symm
  have hdisplaced : ¬ Displaced line s.sketch := by
    rintro ⟨h, a, -, -, ⟨-, -, hentry⟩, -⟩
    have hdetail : s.detail = Entry.argumentMark ++ a.signature := congrArg Entry.detail hentry
    have hnot := hargument (congrArg Entry.kind hentry)
    have hmark := List.isPrefixOf_iff_prefix.2 (List.prefix_append Entry.argumentMark a.signature)
    rw [Entry.isArgument, hdetail, hmark] at hnot
    cases hnot
  obtain ⟨first, hselection, hfits⟩ := horigin.selection_fits hline
  have hselected : s.selection = .onLine line.index first (first + s.name.length) := hselection
  refine ⟨?_, (horigin.covered_iff hline).2 ⟨hregion, hdisplaced⟩⟩
  rw [hselected]
  exact ⟨rfl, Nat.le_add_right _ _, line.raw, hline.raw, hfits⟩

theorem placed_unusedVariables
    (hd : d ∈ unusedVariables (SourceLine.readAll (lines text)) (ofText text)) : Placed text d := by
  obtain ⟨method, hmethod, hd⟩ := List.mem_flatMap.1 hd
  obtain ⟨v, hv, rfl⟩ := List.mem_map.1 hd
  obtain ⟨hchild, hlocal⟩ := List.mem_filter.1 hv
  have hmem := mem_flatten_trans (List.mem_filter.1 hmethod).1 (mem_flatten_of_mem hchild)
  simp only [Entry.isLocalVariable, Bool.and_eq_true, beq_iff_eq, Bool.not_eq_true'] at hlocal
  exact .of_covers (covers_selection hmem (by simp [hlocal.1.1]) fun _ ↦ hlocal.1.2) rfl

theorem placed_missingMembers {others : List DocumentOutline}
    (hd : d ∈ missingMembers (ofText text) others) : Placed text d := by
  obtain ⟨owner, howner, hd⟩ := List.mem_flatMap.1 hd
  obtain ⟨mark, hmark, hd⟩ := List.mem_flatMap.1 hd
  obtain ⟨hchild, himplements⟩ := List.mem_filter.1 hmark
  have hmem := mem_flatten_trans (List.mem_filter.1 howner).1 (mem_flatten_of_mem hchild)
  have hkind : mark.kind = .interfaceType := by
    simp only [Entry.isImplements, Bool.and_eq_true, beq_iff_eq] at himplements
    exact himplements.1
  have hcovers := covers_selection hmem (by simp [hkind]) (by simp [hkind])
  unfold missingAt at hd
  split at hd
  · obtain ⟨m, -, rfl⟩ := List.mem_map.1 hd
    exact .of_covers hcovers
      ⟨owner, (List.mem_filter.1 howner).1, rfl, mark, hchild, himplements, rfl, rfl⟩
  · cases hd

theorem placed_duplicates {others : List DocumentOutline}
    (hd : d ∈ duplicates (ofText text) others) : Placed text d := by
  obtain ⟨s, hs, hd⟩ := List.mem_filterMap.1 hd
  obtain ⟨uri, -, rfl⟩ := Option.map_eq_some_iff.1 hd
  obtain ⟨hmem, hdefinition⟩ := Scope.mem_topLevelSymbols hs
  simp only [Entry.isDefinition, Bool.and_eq_true] at hdefinition
  have hkind {kind : SymbolKind} (hnone : kind.isDefinition = false) : s.kind ≠ kind := by
    rintro rfl
    simp [hnone] at hdefinition
  exact .of_covers (covers_selection hmem (hkind rfl) fun hvariable ↦ absurd hvariable (hkind rfl))
    ⟨rfl, s, hs, rfl, rfl, rfl⟩

end

theorem mem_validate {o : Options} {text : Text} {others : List DocumentOutline} {d : Diagnostic} :
    d ∈ validate o text others ↔
      d ∈ findings o.maxLineLength text others ∧ o.isEnabled d.code := by
  rw [validate, sortByStart, List.mem_mergeSort, List.mem_filter]

/-- Every diagnostic of a document lies on a single line that exists, begins no later than it ends,
ends no later than the line does, and covers exactly what it is about. -/
theorem diagnostics_cover_subjects (o : Options) (text : Text) (others : List DocumentOutline)
    (d : Diagnostic) (hd : d ∈ validate o text others) :
    WithinRow (lines text) d.range ∧ IsSubject text d (coveredText (lines text) d.range) := by
  obtain ⟨hfound, -⟩ := mem_validate.1 hd
  have hplaced : Placed text d := by
    simp only [findings, List.mem_append] at hfound
    obtain ((hd | hd) | hd) | hd := hfound
    · exact placed_walk hd
    · exact placed_unusedVariables hd
    · exact placed_missingMembers hd
    · exact placed_duplicates hd
  exact ⟨hplaced.within, hplaced.subject⟩

/-- A number behind a name and a literal with characters of two bytes. -/
def behindLiteral : Text := "Sub S()\n\tDim größe = \"ü 7\" & 42\nEnd Sub".toList

theorem diagnostics_cover_subjects_behindLiteral :
    ∃ d ∈ validate .standard behindLiteral [], d.finding = .magicNumber ['4', '2'] ∧
      d.range = .onLine 1 21 23 ∧ WithinRow (lines behindLiteral) d.range ∧
      IsSubject behindLiteral d (coveredText (lines behindLiteral) d.range) := by
  have hfound : (⟨.onLine 1 21 23, .magicNumber ['4', '2']⟩ : Diagnostic) ∈
      findings Options.standard.maxLineLength behindLiteral [] := by decide +kernel
  have hd := mem_validate.2 (show _ ∧ Options.standard.isEnabled _ from ⟨hfound, rfl⟩)
  exact ⟨_, hd, rfl, rfl, diagnostics_cover_subjects .standard behindLiteral [] _ hd⟩

end Check

end VbOutline
