import VbOutline.Proofs.Check.Likeness
import VbOutline.Proofs.Outline.Scopes
import VbOutline.Proofs.Source.Traces
import VbOutline.Proofs.Statement.Lowering

/-!
# Letter case

Two documents that differ only in the case of ASCII letters are read as the same statements up to
the case of names and texts. Names are compared up to case wherever they are looked up, and no
column depends on the case of a letter. So the outlines have the same shape, kinds and ranges, and
the reports the same ranges, severities and codes, apart from the checks that look at the spelling
of names and comments.
-/

namespace VbOutline

open Text Line

namespace SourceLine

/-- The line in lower case. -/
def lowered (line : SourceLine) : SourceLine where
  index := line.index
  raw := asciiLower line.raw
  code := asciiLower line.code
  statement := line.statement.map Statement.lowered
  next := line.next.map asciiLower

@[simp]
theorem index_lowered (line : SourceLine) : line.lowered.index = line.index := rfl

theorem code_lowered (line : SourceLine) : line.lowered.code = asciiLower line.code := rfl

theorem statement_lowered (line : SourceLine) :
    line.lowered.statement = line.statement.map Statement.lowered := rfl

theorem next_lowered (line : SourceLine) : line.lowered.next = line.next.map asciiLower := rfl

@[simp]
theorem span_lowered (line : SourceLine) (offset size : Nat) :
    line.lowered.span offset size = line.span offset size := by
  simp [span, lowered]

@[simp]
theorem codeSpan_lowered (line : SourceLine) : line.lowered.codeSpan = line.codeSpan := by
  simp [codeSpan, lowered]

@[simp]
theorem whole_lowered (line : SourceLine) : line.lowered.whole = line.whole := by
  simp [whole, stop, lowered]

theorem isBlank_asciiLower (code : Text) : isBlank (asciiLower code) = isBlank code := by
  simp [isBlank]

theorem followsContinued_map_asciiLower (rows : List Text) (i : Nat) :
    followsContinued (rows.map asciiLower) i = followsContinued rows i := by
  rw [followsContinued, followsContinued, ← List.map_take, List.map_map]
  have hcodes : stripComment ∘ asciiLower = asciiLower ∘ stripComment :=
    funext stripComment_asciiLower
  have hblank : (fun code ↦ !isBlank code) ∘ asciiLower = fun code ↦ !isBlank code := by
    funext code
    simp only [Function.comp_apply, isBlank_asciiLower]
  rw [hcodes, ← List.map_map, List.filter_map, hblank, List.getLast?_map]
  exact any_map_asciiLower isContinued_asciiLower _

theorem statement?_asciiLower (continuing : Bool) (code : Text) :
    (statement? continuing (asciiLower code)).map Statement.lowered =
      (statement? continuing code).map Statement.lowered := by
  simp only [statement?, isBlank_asciiLower]
  split
  · rfl
  · rw [Option.map_some, Option.map_some, Statement.lowered_parse_asciiLower]

/-- Rows in lower case are read as the same lines up to case. -/
theorem map_lowered_readAll (rows : List Text) :
    (readAll (rows.map asciiLower)).map lowered = (readAll rows).map lowered := by
  rw [readAll_eq, readAll_eq]
  apply List.ext_getElem?
  intro i
  simp only [List.getElem?_map, List.getElem?_mapIdx]
  cases rows[i]? with
  | none => rfl
  | some row =>
    simp only [Option.map_some, lowered, followsContinued_map_asciiLower,
      stripComment_asciiLower, statement?_asciiLower, nextCode?_map_asciiLower, Option.map_map,
      asciiLower_asciiLower, Function.comp_def]

theorem map_lowered_of_asciiLower_eq {text text' : Text} (h : asciiLower text = asciiLower text') :
    (readAll (lines text)).map lowered = (readAll (lines text')).map lowered := by
  rw [← map_lowered_readAll, ← lines_asciiLower, h, lines_asciiLower, map_lowered_readAll]

end SourceLine

/-! ## The outline -/

/-- Entries that differ at most in the case of letters. Both or neither are marks of interfaces. -/
structure Entry.EqualUpToCase (e f : Entry) : Prop where
  name : asciiLower e.name = asciiLower f.name
  kind : e.kind = f.kind
  detail : asciiLower e.detail = asciiLower f.detail
  range : e.range = f.range
  selection : e.selection = f.selection
  isImplements : e.isImplements = f.isImplements

namespace Entry.EqualUpToCase

theorem symm {e f : Entry} (h : e.EqualUpToCase f) : f.EqualUpToCase e :=
  ⟨h.name.symm, h.kind.symm, h.detail.symm, h.range.symm, h.selection.symm, h.isImplements.symm⟩

theorem trans {e f g : Entry} (h : e.EqualUpToCase f) (h' : f.EqualUpToCase g) :
    e.EqualUpToCase g :=
  ⟨h.name.trans h'.name, h.kind.trans h'.kind, h.detail.trans h'.detail, h.range.trans h'.range,
    h.selection.trans h'.selection, h.isImplements.trans h'.isImplements⟩

end Entry.EqualUpToCase

namespace Outline

open VbOutline.Symbol

section

variable (line : SourceLine)

theorem alike_entry_lowered {name name' : Text} (hname : asciiLower name = asciiLower name')
    (offset : Nat) (kind : SymbolKind) {detail detail' : Text}
    (hdetail : asciiLower detail = asciiLower detail')
    (himplements : kind = .interfaceType →
      Entry.implementsMark.isPrefixOf detail = Entry.implementsMark.isPrefixOf detail')
    {children children' : List Symbol}
    (hchildren : Symbol.Alike Entry.EqualUpToCase children children') :
    Symbol.Alike Entry.EqualUpToCase [⟨entry line name offset kind detail, children⟩]
      [⟨entry line.lowered name' offset kind detail', children'⟩] := by
  have hlength : name.length = name'.length := by simpa using congrArg List.length hname
  refine .cons ⟨hname, rfl, hdetail, line.whole_lowered.symm, ?_, ?_⟩ hchildren .nil
  · simp [entry, hlength, SourceLine.lowered]
  · rw [Entry.isImplements, Entry.isImplements]
    by_cases hkind : kind = .interfaceType
    · exact congrArg (_ && ·) (himplements hkind)
    · have hother : (kind == .interfaceType) = false := beq_eq_false_iff_ne.2 hkind
      change (kind == .interfaceType && _) = (kind == .interfaceType && _)
      rw [hother, Bool.false_and, Bool.false_and]

theorem alike_leaf_lowered {name name' : Text} (hname : asciiLower name = asciiLower name')
    (offset : Nat) {kind : SymbolKind} (hkind : kind ≠ .interfaceType) {detail detail' : Text}
    (hdetail : asciiLower detail = asciiLower detail') :
    Symbol.Alike Entry.EqualUpToCase [leaf line name offset kind detail]
      [leaf line.lowered name' offset kind detail'] :=
  alike_entry_lowered line hname offset kind hdetail (fun h ↦ absurd h hkind) .nil

theorem alike_arguments_lowered (h : Header) :
    Symbol.Alike Entry.EqualUpToCase (arguments line h) (arguments line.lowered h.lowered) := by
  unfold arguments
  rw [show h.lowered.params = h.params.map asciiLower from rfl]
  cases h.params with
  | none => exact .nil
  | some params =>
    simp only [Option.map_some, Argument.parse_asciiLower, List.map_map]
    apply Alike.of_map
    intro a _
    apply alike_leaf_lowered
    · simp [Argument.lowered]
    · simp
    · simp [Argument.lowered]

theorem alike_enumMember_lowered (around : Option Block) :
    Symbol.Alike Entry.EqualUpToCase (enumMember line around) (enumMember line.lowered around) := by
  unfold enumMember
  rw [SourceLine.code_lowered, Statement.enumMember?_asciiLower]
  split
  · cases Statement.enumMember? line.code with
    | none => exact .nil
    | some p =>
      apply alike_leaf_lowered
      · simp [PlacedName.lowered]
      · simp
      · simp
  · exact .nil

theorem baseTypeName_asciiLower (name : Text) :
    baseTypeName (asciiLower name) = asciiLower (baseTypeName name) := by
  rw [baseTypeName, takeWhile_asciiLower (CaseBlind.bne (by decide)), trim_asciiLower, baseTypeName]

theorem alike_declared_lowered (around : Option Block) (d : Declaration) :
    Symbol.Alike Entry.EqualUpToCase (declared line around d)
      (declared line.lowered around d.lowered) := by
  have hkind :
      (if d.isConst then .constant else variableKind around) ≠ SymbolKind.interfaceType := by
    split
    · simp
    · unfold variableKind
      split <;> simp
  have htype (x : Declarator) : asciiLower (x.effectiveType.getD "Object".toList) =
      asciiLower (x.lowered.effectiveType.getD "Object".toList) := by
    rw [Declarator.lowered]
    cases x.effectiveType <;> simp
  rw [declared, declared, Declaration.isConst_lowered, Declaration.lowered, List.map_map]
  apply Alike.of_map
  intro x _
  exact alike_leaf_lowered line (asciiLower_asciiLower x.name).symm x.offset hkind (htype x)

/-- A line in lower case brings the same symbols up to case. -/
theorem alike_created_lowered (o : Outline) :
    Symbol.Alike Entry.EqualUpToCase (o.created line) (o.created line.lowered) := by
  unfold created
  rw [SourceLine.statement_lowered]
  cases line.statement with
  | none => exact .nil
  | some s =>
    rw [Option.map_some]
    cases s with
    | blockEnd e => exact .nil
    | header h =>
      simp only [Statement.lowered, Header.block_lowered]
      cases hkind : h.block.symbolKind? with
      | none => exact .nil
      | some kind =>
        apply alike_entry_lowered
        · simp [Header.lowered]
        · exact h.asciiLower_detail_lowered.symm
        · rintro rfl
          rw [isPrefixOf_detail hkind, isPrefixOf_detail (h := h.lowered) hkind]
        · exact alike_arguments_lowered line h
    | region p =>
      exact alike_leaf_lowered line (asciiLower_asciiLower _).symm _ (by simp) rfl
    | imports p isAlias =>
      exact alike_leaf_lowered line (asciiLower_asciiLower _).symm _ (by simp) rfl
    | implements names =>
      simp only [Statement.lowered, implemented, List.map_map]
      apply Alike.of_map
      intro p _
      apply alike_entry_lowered
      · simp [PlacedName.lowered, baseTypeName_asciiLower]
      · simp [PlacedName.lowered]
      · intro _
        rfl
      · exact .nil
    | declaration d => exact alike_declared_lowered line o.enclosing d
    | blank | control | branch | plain => exact alike_enumMember_lowered line o.enclosing

end

theorem opened?_lowered (o : Outline) (line : SourceLine) :
    o.opened? line.lowered = o.opened? line := by
  unfold opened?
  rw [SourceLine.statement_lowered, SourceLine.next_lowered]
  cases line.statement with
  | none => rfl
  | some s =>
    cases s with
    | header h => simp only [Option.map_some, Statement.lowered, Header.opensBlock_lowered]; rfl
    | blank | blockEnd | region | imports | implements | control | branch | declaration
    | plain => rfl

theorem blockEnd_lowered_iff (line : SourceLine) (e : BlockEnd) :
    line.lowered.statement = some (.blockEnd e) ↔ line.statement = some (.blockEnd e) := by
  rw [SourceLine.statement_lowered]
  cases line.statement with
  | none => rfl
  | some s => cases s <;> simp [Statement.lowered]

theorem linesAlike_of_lowered {line line' : SourceLine} (h : line.lowered = line'.lowered) :
    LinesAlike Entry.EqualUpToCase line line' where
  closes e := by rw [← blockEnd_lowered_iff, h, blockEnd_lowered_iff]
  created {o p} hop := by
    have hline := alike_created_lowered line o
    have hline' := alike_created_lowered line' o
    rw [h] at hline
    rw [← created_congr hop line']
    exact hline.trans (fun he hf ↦ he.trans hf) (hline'.symm fun he ↦ he.symm)
  opened {o p} hop := by
    rw [← opened?_lowered, h, opened?_lowered, opened?_congr hop]
  stop {e f} hef := by
    have hstop : line.stop = line'.stop := by
      have hwhole := congrArg SourceLine.whole h
      rw [SourceLine.whole_lowered, SourceLine.whole_lowered] at hwhole
      exact congrArg Range.stop hwhole
    refine ⟨hef.name, hef.kind, hef.detail, ?_, hef.selection, hef.isImplements⟩
    simp only [Entry.endingAt, hef.range, hstop]

theorem alike_ofText_of_asciiLower_eq {text text' : Text} (h : asciiLower text = asciiLower text') :
    Symbol.Alike Entry.EqualUpToCase (ofText text) (ofText text') := by
  have hlines := SourceLine.map_lowered_of_asciiLower_eq h
  rw [← List.forall₂_eq_eq_eq, List.forall₂_map_left_iff, List.forall₂_map_right_iff] at hlines
  exact alike_ofLines (hlines.imp fun _ _ ↦ linesAlike_of_lowered)

end Outline

/-! ## The report -/

namespace Check

/-- What is compared of a diagnostic: where it is, how severe, and its code. -/
def brief (d : Diagnostic) : Range × Severity × String := (d.range, d.severity, d.code)

/-- The codes of the checks that look at the spelling of names and comments. -/
def spellingCodes : List String := ["naming-convention", "todo-comment", "unused-variable"]

/-- The diagnostics in brief, without those about the spelling of names and comments. -/
def beyondSpelling : View (Range × Severity × String) where
  hidden := spellingCodes
  see := brief
  range b := b.1
  code b := b.2.2
  range_see _ := rfl
  code_see _ := rfl

section

variable (line : SourceLine)

theorem move_lowered : line.lowered.move = line.move := by
  rw [SourceLine.move, SourceLine.move, SourceLine.statement_lowered, SourceLine.next_lowered,
    SourceLine.code_lowered]
  cases line.statement with
  | none => rfl
  | some s =>
    cases s with
    | header h => simp only [Option.map_some, Statement.lowered, Header.opensBlock_lowered]; rfl
    | plain =>
      simp only [Option.map_some, Statement.lowered, trim_asciiLower, isTerminator_asciiLower]
    | blank | blockEnd | region | imports | implements | control | branch | declaration => rfl

theorem movesAlike_of_lowered {line line' : SourceLine} (h : line.lowered = line'.lowered) :
    line.MovesAlike line' where
  index := by rw [← line.index_lowered, h, line'.index_lowered]
  span := by rw [← line.codeSpan_lowered, h, line'.codeSpan_lowered]
  move := by rw [← move_lowered line, h, move_lowered line']

theorem isPlainNumber_asciiLower (literal : Text) :
    isPlainNumber (asciiLower literal) = isPlainNumber literal := by
  simp only [isPlainNumber, dropEndWhile_asciiLower CaseBlind.isAlpha,
    asciiLower_beq ['0'] (by decide), asciiLower_beq ['1'] (by decide)]

theorem of_magicNumbers_lowered :
    beyondSpelling.of (magicNumbers line.lowered) = beyondSpelling.of (magicNumbers line) := by
  apply beyondSpelling.of_congr
  have hplain : (fun n : Nat × Text ↦ !isPlainNumber n.2) ∘ Prod.map id asciiLower =
      fun n ↦ !isPlainNumber n.2 := by
    funext n
    simp only [Function.comp_apply, Prod.map_snd, isPlainNumber_asciiLower]
  rw [magicNumbers, SourceLine.code_lowered, maskStrings_asciiLower, numbers_asciiLower,
    List.filter_map, hplain, List.map_map, List.map_map, magicNumbers, List.map_map]
  apply List.map_congr_left
  intro n _
  simp only [Function.comp_apply, Prod.map_fst, Prod.map_snd, id, SourceLine.span_lowered,
    byteSize_asciiLower]
  rfl

theorem mayHaveNumbers_lowered (around : Surroundings) :
    mayHaveNumbers around line.lowered = mayHaveNumbers around line := by
  rw [mayHaveNumbers, mayHaveNumbers, SourceLine.statement_lowered]
  cases line.statement with
  | none => rfl
  | some s =>
    cases s with
    | declaration d => simp only [Option.map_some, Statement.lowered, Declaration.isConst_lowered]
    | blank | blockEnd | header | region | imports | implements | control | branch | plain => rfl

theorem of_declarator_lowered (around : Surroundings) (d : Declaration) (x : Declarator) :
    beyondSpelling.of (declarator around line.lowered d.lowered x.lowered) =
      beyondSpelling.of (declarator around line d x) := by
  have hspan : line.lowered.span x.lowered.offset (byteSize x.lowered.name) =
      line.span x.offset (byteSize x.name) := by
    rw [SourceLine.span_lowered]
    exact congrArg _ (byteSize_asciiLower x.name)
  have hnaming (c : Bool) (name : Text) (r : Range) :
      beyondSpelling.of (if c then [⟨r, .namingConvention name⟩] else []) = [] := by
    have hcodes :
        CodesIn ["naming-convention"] (if c then [⟨r, .namingConvention name⟩] else []) := by
      split <;> simp [Finding.code]
    exact beyondSpelling.of_eq_nil hcodes (by simp [beyondSpelling, spellingCodes])
  have huntyped : x.lowered.effectiveType.isNone = x.effectiveType.isNone := Option.isNone_map
  simp only [declarator, hspan, Declaration.isConst_lowered, Declaration.isDim_lowered,
    Declaration.hasModifier_lowered, huntyped,
    show x.lowered.hasInitializer = x.hasInitializer from rfl]
  split
  · apply beyondSpelling.of_congr
    split <;> rfl
  · rw [View.of_append, View.of_append, hnaming, hnaming]
    congr 1
    apply beyondSpelling.of_congr
    split <;> rfl

theorem of_statement_lowered (around : Surroundings) :
    beyondSpelling.of (statement around line.lowered) =
      beyondSpelling.of (statement around line) := by
  unfold statement
  rw [SourceLine.statement_lowered]
  cases line.statement with
  | none => rfl
  | some s =>
    cases s with
    | control c =>
      simp only [Option.map_some, Statement.lowered, condition, SourceLine.codeSpan_lowered,
        SourceLine.code_lowered, isContinued_asciiLower]
    | declaration d =>
      simp only [Option.map_some, Statement.lowered, View.of_flatMap]
      rw [show d.lowered.declarators = d.declarators.map Declarator.lowered from rfl,
        List.flatMap_map]
      exact List.flatMap_congr fun x _ ↦ of_declarator_lowered line around d x
    | header h =>
      apply beyondSpelling.of_congr
      simp only [Option.map_some, Statement.lowered, returnType, Header.lowered,
        Option.isNone_map, SourceLine.span_lowered, byteSize_asciiLower]
      split <;> rfl
    | blank | blockEnd | region | imports | implements | branch | plain => rfl

theorem of_line_lowered (limit : Nat) (around : Surroundings) :
    beyondSpelling.of (Check.line limit around line.lowered) =
      beyondSpelling.of (Check.line limit around line) := by
  have hlength : length limit line.lowered = length limit line := by
    simp [length, SourceLine.lowered]
  have htodo (line : SourceLine) : beyondSpelling.of (todo line) = [] :=
    beyondSpelling.of_eq_nil (codesIn_todo line) (by simp [beyondSpelling, spellingCodes])
  have hnumbers : beyondSpelling.of
        (if mayHaveNumbers around line.lowered then [] else magicNumbers line.lowered) =
      beyondSpelling.of (if mayHaveNumbers around line then [] else magicNumbers line) := by
    rw [mayHaveNumbers_lowered]
    split
    · rfl
    · exact of_magicNumbers_lowered line
  simp only [Check.line, View.of_append, hlength, htodo, hnumbers, of_statement_lowered]

end

theorem unqualified_asciiLower (name : Text) :
    unqualified (asciiLower name) = asciiLower (unqualified name) := by
  rw [unqualified, reverse_asciiLower, takeWhile_asciiLower (CaseBlind.bne (by decide)),
    reverse_asciiLower, unqualified]

theorem respects_equalUpToCase : Respects Entry.EqualUpToCase brief where
  name h := h.name
  kind h := h.kind
  isImplements h := h.isImplements
  interface h := by
    rw [← unqualified_asciiLower, ← Outline.baseTypeName_asciiLower, h.name,
      Outline.baseTypeName_asciiLower, unqualified_asciiLower]
  missing _ hmark _ _ := by
    rw [brief, brief, hmark.selection]
    rfl
  duplicate h uri := by
    rw [brief, brief, h.selection]
    rfl

/-- The analysis ignores the case of ASCII letters. Two texts that differ in nothing else have
outlines of the same shape, with the same kinds and ranges and with names and details that differ in
nothing else. Beside documents with the same URIs and with texts that differ in nothing else, they
have the same diagnostics in brief, apart from those about the spelling of names and comments. -/
theorem letter_case_ignored (o : Options) {text text' : Text}
    (h : asciiLower text = asciiLower text') {ds ds' : List Document}
    (hds : List.Forall₂
      (fun d d' ↦ d.uri = d'.uri ∧ asciiLower d.text = asciiLower d'.text) ds ds') :
    Symbol.Alike Entry.EqualUpToCase (Outline.ofText text) (Outline.ofText text') ∧
      (without ["naming-convention", "todo-comment", "unused-variable"]
          (validate o text (ds.map DocumentOutline.ofDocument))).map brief =
        (without ["naming-convention", "todo-comment", "unused-variable"]
          (validate o text' (ds'.map DocumentOutline.ofDocument))).map brief := by
  have hforest := Outline.alike_ofText_of_asciiLower_eq h
  have hothers : OutlinesAlike Entry.EqualUpToCase (ds.map DocumentOutline.ofDocument)
      (ds'.map DocumentOutline.ofDocument) := by
    rw [OutlinesAlike, List.forall₂_map_left_iff, List.forall₂_map_right_iff]
    exact hds.imp fun _ _ hd ↦ ⟨hd.1, Outline.alike_ofText_of_asciiLower_eq hd.2⟩
  have hlines := SourceLine.map_lowered_of_asciiLower_eq h
  rw [← List.forall₂_eq_eq_eq, List.forall₂_map_left_iff, List.forall₂_map_right_iff] at hlines
  have hunused (lines : List SourceLine) (forest : List Symbol) :
      beyondSpelling.of (unusedVariables lines forest) = [] :=
    beyondSpelling.of_eq_nil (codesIn_unusedVariables lines forest)
      (by simp [beyondSpelling, spellingCodes])
  refine ⟨hforest, ?_⟩
  apply View.of_validate_of_alike (v := beyondSpelling) respects_equalUpToCase o _ hforest hothers
  · rw [hunused, hunused]
  · refine hlines.imp fun line line' hline ↦ ⟨movesAlike_of_lowered hline, fun around ↦ ?_⟩
    rw [← of_line_lowered line, hline, of_line_lowered]

/-- A class that implements an interface without its member, in two spellings. -/
def respelled : Text × Text :=
  ("Class C\nImplements I\nDim É = 42\nEnd Class".toList,
    "class c\nIMPLEMENTS i\ndim É = 42\nEND class".toList)

/-- The interface, in two spellings. -/
def respelledInterface : Text × Text :=
  ("Interface I\nSub M()\nEnd Interface".toList, "INTERFACE i\nsub m()\nend interface".toList)

theorem letter_case_ignored_respelled :
    asciiLower respelled.1 = asciiLower respelled.2 ∧
      asciiLower respelledInterface.1 = asciiLower respelledInterface.2 ∧
      Symbol.Alike Entry.EqualUpToCase (Outline.ofText respelled.1) (Outline.ofText respelled.2) ∧
      (without ["naming-convention", "todo-comment", "unused-variable"] (validate .standard
          respelled.1 ([⟨"file:///i.vb", respelledInterface.1⟩].map .ofDocument))).map brief =
        (without ["naming-convention", "todo-comment", "unused-variable"] (validate .standard
          respelled.2 ([⟨"file:///i.vb", respelledInterface.2⟩].map .ofDocument))).map brief := by
  have htexts : asciiLower respelled.1 = asciiLower respelled.2 := by decide +kernel
  have hbeside : asciiLower respelledInterface.1 = asciiLower respelledInterface.2 := by
    decide +kernel
  exact ⟨htexts, hbeside, letter_case_ignored .standard htexts (.cons ⟨rfl, hbeside⟩ .nil)⟩

end Check

end VbOutline
