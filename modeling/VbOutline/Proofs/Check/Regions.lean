import VbOutline.Proofs.Check.Segments
import VbOutline.Proofs.Outline.Regions

/-!
# Regions and the checks of the content

Four checks look at the content of a document: at empty blocks, unused variables, missing members of
interfaces and definitions that another document has as well. Of these only the last one looks through
regions everywhere. For the others it matters what stands in a region. Here the report on a document
is compared with the report on the document without its markers, and it is said for each check under
which condition regions make no difference to it.
-/

namespace VbOutline

open Text Line

namespace Check

open SourceLine

section

variable {rows hiddenRows : List Text} {line : SourceLine}

theorem opened?_region (hread : line.ReadIn rows) {around : Option Block}
    (h : opened? around line = some .region) : ∃ p, line.statement = some (.region p) := by
  unfold opened? at h
  split at h
  · next header hs =>
    rw [Option.ite_none_right_eq_some, Option.some.injEq] at h
    exact absurd h.2 (Header.block_ne_region (hread.readFrom hs))
  · next p hs => exact ⟨p, hs⟩
  · next c hs =>
    rw [Option.ite_none_left_eq_some, Option.some.injEq] at h
    have hkind := ControlStart.symbolKind?_eq_none (hread.readFrom hs)
    rw [h.2] at hkind
    cases hkind
  · cases h

theorem exists_cons_of_head {blocks : List BlockAt} {block : Block}
    (h : blocks.head?.map Prod.fst = some block) : ∃ b rest, blocks = b :: rest ∧ b.1 = block := by
  obtain ⟨b, hb, hblock⟩ := Option.map_eq_some_iff.1 h
  obtain ⟨rest, rfl⟩ := List.head?_eq_some_iff.1 hb
  exact ⟨b, rest, rfl, hblock⟩

theorem opened?_hidden (hmarker : line.isMarker = false) (hnext : line.AccessorFollows hiddenRows)
    (around : Option Block) : opened? around (line.hidden hiddenRows) = opened? around line := by
  rw [hidden_of_not_isMarker hmarker]
  cases hs : line.statement with
  | none => simp [opened?, hs]
  | some statement =>
    cases statement with
    | header header => simp only [opened?, hs, hnext.opensBlock_eq hs]
    | _ => simp [opened?, hs]

theorem closed?_hidden (hmarker : line.isMarker = false) :
    closed? (line.hidden hiddenRows) = closed? line := by
  rw [hidden_of_not_isMarker hmarker]
  rfl

/-- Without the markers the open blocks are those that are no regions. -/
theorem advance?_hidden (hread : line.ReadIn rows) (hnext : line.AccessorFollows hiddenRows)
    {blocks blocks' : List BlockAt} (h : advance? blocks line = some blocks') :
    advance? (blocks.filter fun b ↦ b.1 != .region) (line.hidden hiddenRows) =
      some (blocks'.filter fun b ↦ b.1 != .region) := by
  have henclosing : BlockAt.enclosing (blocks.filter fun b ↦ b.1 != .region) =
      BlockAt.enclosing blocks := by
    rw [BlockAt.enclosing, BlockAt.enclosing, List.find?_filter]
    simp only [and_self, Bool.decide_eq_true]
  cases hmarker : line.isMarker with
  | true =>
    have hstay : advance? (blocks.filter fun b ↦ b.1 != .region) (line.hidden hiddenRows) =
        some (blocks.filter fun b ↦ b.1 != .region) := by
      rw [hidden_of_isMarker hmarker]
      rfl
    rw [hstay]
    unfold isMarker at hmarker
    split at hmarker
    · next p hs =>
      simp only [advance?, closed?, opened?, hs, Option.some.injEq] at h
      rw [← h, List.filter_cons_of_neg (by simp)]
    · next e hs =>
      have hregion : e.block = .region := by simpa using hmarker
      simp only [advance?, closed?, hs, hregion, Option.ite_none_right_eq_some,
        Option.some.injEq] at h
      obtain ⟨b, rest, rfl, hb⟩ := exists_cons_of_head h.1
      rw [← h.2, List.filter_cons_of_neg (by simp [hb])]
      rfl
    · cases hmarker
  | false =>
    have hindex : (line.hidden hiddenRows).index = line.index := by
      rw [hidden_of_not_isMarker hmarker]
    rw [advance?, closed?_hidden hmarker, opened?_hidden hmarker hnext, henclosing, hindex]
    unfold advance? at h
    split at h
    · next block hclosed =>
      rw [Option.ite_none_right_eq_some, Option.some.injEq] at h
      obtain ⟨b, rest, rfl, rfl⟩ := exists_cons_of_head h.1
      have hregion : b.1 ≠ .region := by
        obtain ⟨e, hs, he⟩ := (closed?_eq_some_iff line b.1).1 hclosed
        rw [← he]
        simpa [isMarker, hs] using hmarker
      rw [← h.2, List.filter_cons_of_pos (by simp [hregion])]
      simp
    · split at h
      · next block hopened =>
        have hregion : block ≠ .region := by
          rintro rfl
          obtain ⟨p, hs⟩ := opened?_region hread hopened
          simp [isMarker, hs] at hmarker
        rw [← Option.some.inj h, List.filter_cons_of_pos (by simp [hregion])]
      · rw [← Option.some.inj h]

/-- Without the markers the segments are the same. -/
theorem pending_step_hidden (hnext : line.AccessorFollows hiddenRows) (pending : Pending) :
    pending.step (line.hidden hiddenRows) = pending.step line := by
  cases hmarker : line.isMarker with
  | true =>
    rw [hidden_of_isMarker hmarker]
    unfold isMarker at hmarker
    split at hmarker
    · next p hs => simp [Pending.step, hs]
    · next e hs =>
      have hregion : e.block = .region := by simpa using hmarker
      simp [Pending.step, hs, hregion]
    · cases hmarker
  | false =>
    have hopened := opened?_hidden hmarker hnext
    rw [hidden_of_not_isMarker hmarker] at hopened ⊢
    simp only [Pending.step, hopened]
    rfl

end

theorem foldlM_advance?_hidden {rows hiddenRows : List Text} {lines : List SourceLine}
    (hread : ∀ line ∈ lines, line.ReadIn rows)
    (hnext : ∀ line ∈ lines, line.AccessorFollows hiddenRows) {blocks final : List BlockAt}
    (h : lines.foldlM advance? blocks = some final) :
    (lines.map (SourceLine.hidden hiddenRows)).foldlM advance?
      (blocks.filter fun b ↦ b.1 != .region) = some (final.filter fun b ↦ b.1 != .region) := by
  induction lines generalizing blocks with
  | nil => rw [← Option.some.inj h]; rfl
  | cons line lines ih =>
    rw [List.forall_mem_cons] at hread hnext
    obtain ⟨blocks', hadvance, hrest⟩ := Option.bind_eq_some_iff.1 h
    rw [List.map_cons, List.foldlM_cons, advance?_hidden hread.1 hnext.1 hadvance]
    exact ih hread.2 hnext.2 hrest

theorem empties_append_blank (t : Tracker) (lines : List SourceLine) {blanks : List SourceLine}
    (h : ∀ line ∈ blanks, line.statement = none) : empties t (lines ++ blanks) = empties t lines := by
  have hnone (t : Tracker) : empties t blanks = [] := by
    induction blanks generalizing t with
    | nil => rfl
    | cons line blanks ih =>
      rw [List.forall_mem_cons] at h
      have hstep : t.step line = (t, []) := by simp [Tracker.step, h.1]
      rw [empties_cons, track, hstep, ih h.2]
      rfl
  rw [empties, states_append, List.flatMap_append]
  exact (congrArg _ (hnone _)).trans (List.append_nil _)

theorem reports_hidden {hiddenRows : List Text} {lines : List SourceLine}
    (hnext : ∀ line ∈ lines, line.AccessorFollows hiddenRows) (pending : Pending) :
    pending.reports (lines.map (SourceLine.hidden hiddenRows)) = pending.reports lines := by
  induction lines generalizing pending with
  | nil => rfl
  | cons line lines ih =>
    rw [List.forall_mem_cons] at hnext
    rw [List.map_cons, Pending.reports_cons, Pending.reports_cons, pending_step_hidden hnext.1,
      ih hnext.2]

/-- Regions outside control blocks make no difference to empty blocks. -/
theorem empties_hidden {rows hiddenRows : List Text} {lines : List SourceLine}
    (hread : ∀ line ∈ lines, line.ReadIn rows)
    (hnext : ∀ line ∈ lines, line.AccessorFollows hiddenRows)
    (hbalanced : lines.foldlM advance? [] = some []) (hregions : RegionsApart .start lines) :
    empties .start (lines.map (SourceLine.hidden hiddenRows)) = empties .start lines := by
  have hopened : ∀ line ∈ lines.map (SourceLine.hidden hiddenRows), ∀ around,
      opened? around line ≠ some .region := by
    rw [List.forall_mem_map]
    intro line hline around
    cases hmarker : line.isMarker with
    | true => simp [hidden_of_isMarker hmarker, opened?]
    | false =>
      rw [opened?_hidden hmarker (hnext line hline)]
      intro hregion
      obtain ⟨p, hs⟩ := opened?_region (hread line hline) hregion
      simp [isMarker, hs] at hmarker
  have hapart : RegionsApart .start (lines.map (SourceLine.hidden hiddenRows)) := by
    intro p hp hregion
    exact absurd hregion (hopened p.2 (mem_of_mem_states hp) _)
  have hhidden := foldlM_advance?_hidden hread hnext hbalanced
  rw [empties_eq (t := .start) hbalanced (fun line hline _ ↦ opened?_region (hread line hline))
      hregions trivial,
    empties_eq (t := .start) hhidden (fun line hline around h ↦ absurd h (hopened line hline around))
      hapart trivial, reports_hidden hnext]

theorem duplicates_withoutRegions (forest : List Symbol) (others : List DocumentOutline) :
    duplicates (Symbol.withoutRegions forest) others = duplicates forest others := by
  rw [duplicates, duplicates, Scope.topLevelSymbols_withoutRegions, List.filterMap_map]
  rfl

open VbOutline.Symbol

theorem hasMember_map_cleared (members : List Symbol) (required : Symbol) :
    hasMember (members.map cleared) required = hasMember members required := by
  rw [hasMember, List.any_map]
  rfl

theorem findInterface?_cons (own : List Symbol) (others : List (List Symbol)) (name : Text) :
    findInterface? (own :: others) name =
      (own.find? fun s ↦ s.kind == .interfaceType && s.isNamed name).or
        (findInterface? others name) := by
  rw [findInterface?, List.findSome?_cons]
  cases own.find? fun s ↦ s.kind == .interfaceType && s.isNamed name <;> rfl

/-- The members that a type lacks are the same without regions, in the type as in the interface. -/
theorem missingAt_cleared (own : List Symbol) (others : List (List Symbol)) (owner mark : Symbol) :
    missingAt (own.map cleared :: others) owner.cleared mark.cleared =
      missingAt (own :: others) owner mark := by
  have hfind (name : Text) :
      (own.map cleared).find? (fun s ↦ s.kind == .interfaceType && s.isNamed name) =
        (own.find? fun s ↦ s.kind == .interfaceType && s.isNamed name).map cleared := by
    rw [List.find?_map]
    rfl
  rw [missingAt, missingAt, findInterface?_cons, findInterface?_cons, toEntry_cleared, hfind]
  cases own.find? fun s ↦ s.kind == .interfaceType &&
      s.isNamed (unqualified (baseTypeName mark.name)) with
  | some interface =>
    simp only [Option.map_some, Option.some_or, members_cleared, hasMember_map_cleared,
      List.filter_map, List.map_map]
    rfl
  | none =>
    simp only [Option.map_none, Option.none_or, members_cleared, hasMember_map_cleared]
    rfl

/-- No type has the mark of an interface inside a region. -/
def MarksApart (forest : List Symbol) : Prop :=
  ∀ owner ∈ flatten forest, owner.kind = .classType ∨ owner.kind = .structType →
    ∀ s ∈ inRegions owner.children, s.isImplements = false

theorem missingMembers_withoutRegions {forest : List Symbol} (h : MarksApart forest)
    (others : List DocumentOutline) :
    missingMembers (withoutRegions forest) others = missingMembers forest others := by
  have howners := filter_flatten_withoutRegions
    (p := fun e ↦ e.kind == .classType || e.kind == .structType)
    (by intro e he; simp [e.kind_of_isRegion he]) forest
  rw [missingMembers, missingMembers, howners, List.flatMap_map, List.map_cons, List.map_cons,
    Scope.topLevelSymbols_withoutRegions]
  apply List.flatMap_congr
  intro owner howner
  rw [List.mem_filter, Bool.or_eq_true, beq_iff_eq, beq_iff_eq] at howner
  have hmarks := filter_withoutRegions (p := fun e ↦ e.isImplements)
    (by intro e he; simp [Entry.isImplements, e.kind_of_isRegion he]) (h owner howner.1 howner.2)
  change (List.filter _ (withoutRegions owner.children)).flatMap _ = _
  rw [hmarks, List.flatMap_map]
  simp only [missingAt_cleared]

/-- No method has a local variable inside a region, and no marker in its lines has the name of one of
its local variables. -/
def LocalsApart (lines : List SourceLine) (forest : List Symbol) : Prop :=
  ∀ method ∈ flatten forest, method.kind.isMethodLike →
    (∀ s ∈ inRegions method.children, s.isLocalVariable = false) ∧
    ∀ v ∈ method.children, v.isLocalVariable →
      ∀ line ∈ linesOf lines.toArray method.toEntry, line.isMarker →
        containsWord line.code v.name = false

theorem mem_linesOf (lines : List SourceLine) (method : Entry) (line : SourceLine) :
    line ∈ linesOf lines.toArray method ↔
      ∃ i, method.range.start.line ≤ i ∧ i ≤ method.range.stop.line ∧ lines[i]? = some line := by
  rw [linesOf, List.extract_toArray, List.mem_toArray, List.mem_iff_getElem?]
  constructor
  · rintro ⟨i, hi⟩
    rw [List.getElem?_take] at hi
    split at hi
    · rw [List.getElem?_drop] at hi
      exact ⟨method.range.start.line + i, by omega, by omega, hi⟩
    · cases hi
  · rintro ⟨i, hstart, hstop, hi⟩
    refine ⟨i - method.range.start.line, ?_⟩
    rw [List.getElem?_take, if_pos (by omega), List.getElem?_drop, Nat.add_sub_cancel' hstart, hi]

theorem isUsed_iff (body : Array SourceLine) (declared : Entry) :
    isUsed body declared ↔ ∃ line ∈ body,
      line.index ≠ declared.range.start.line ∧ containsWord line.code declared.name := by
  rw [isUsed, Array.any_eq_true']
  simp only [Bool.and_eq_true, bne_iff_ne]

/-- Whether a local variable is used does not change with the markers if none of them has its name. -/
theorem isUsed_hidden {hiddenRows : List Text} {lines shown blanks : List SourceLine}
    (hlines : lines.map (SourceLine.hidden hiddenRows) = shown ++ blanks)
    (hblanks : ∀ line ∈ blanks, line.code = []) {method declared : Entry}
    (h : ∀ line ∈ linesOf lines.toArray method, line.isMarker →
      containsWord line.code declared.name = false) :
    isUsed (linesOf shown.toArray method) declared =
      isUsed (linesOf lines.toArray method) declared := by
  have hempty : containsWord [] declared.name = false := by simp [containsWord, occursFrom]
  have hat (i : Nat) : (shown ++ blanks)[i]? = lines[i]?.map (SourceLine.hidden hiddenRows) := by
    rw [← hlines, List.getElem?_map]
  rw [Bool.eq_iff_iff, isUsed_iff, isUsed_iff]
  constructor
  · rintro ⟨line', hmem, hindex, hword⟩
    obtain ⟨i, hstart, hstop, hi⟩ := (mem_linesOf shown method line').1 hmem
    obtain ⟨hlt, _⟩ := List.getElem?_eq_some_iff.1 hi
    have hhidden := hat i
    rw [List.getElem?_append_left hlt, hi, eq_comm, Option.map_eq_some_iff] at hhidden
    obtain ⟨line, hline, rfl⟩ := hhidden
    cases hmarker : line.isMarker with
    | true =>
      rw [hidden_of_isMarker hmarker, hempty] at hword
      cases hword
    | false =>
      rw [hidden_of_not_isMarker hmarker] at hindex hword
      exact ⟨line, (mem_linesOf lines method line).2 ⟨i, hstart, hstop, hline⟩, hindex, hword⟩
  · rintro ⟨line, hmem, hindex, hword⟩
    have hmarker : line.isMarker = false := by
      rw [← Bool.not_eq_true]
      intro hmarker
      rw [h line hmem hmarker] at hword
      cases hword
    obtain ⟨i, hstart, hstop, hi⟩ := (mem_linesOf lines method line).1 hmem
    have hhidden := hat i
    rw [hi, Option.map_some, hidden_of_not_isMarker hmarker] at hhidden
    -- the line is none of the blank ones, because it has the name
    have hshown : shown[i]? = some { line with next := nextCode? hiddenRows line.index } := by
      rw [List.getElem?_append] at hhidden
      split at hhidden
      · exact hhidden
      · have hblank := hblanks _ (List.mem_of_getElem? hhidden)
        rw [show line.code = [] from hblank, hempty] at hword
        cases hword
    exact ⟨_, (mem_linesOf shown method _).2 ⟨i, hstart, hstop, hshown⟩, hindex, hword⟩

theorem unusedVariables_hidden {hiddenRows : List Text} {lines shown blanks : List SourceLine}
    (hlines : lines.map (SourceLine.hidden hiddenRows) = shown ++ blanks)
    (hblanks : ∀ line ∈ blanks, line.code = []) {forest : List Symbol}
    (h : LocalsApart lines forest) :
    unusedVariables shown (withoutRegions forest) = unusedVariables lines forest := by
  have hmethods := filter_flatten_withoutRegions (p := fun e ↦ e.kind.isMethodLike)
    (by intro e he; rw [e.kind_of_isRegion he]; rfl) forest
  rw [unusedVariables, unusedVariables]
  simp only [hmethods, List.flatMap_map]
  apply List.flatMap_congr
  intro method hmethod
  rw [List.mem_filter] at hmethod
  obtain ⟨hinside, hnames⟩ := h method hmethod.1 hmethod.2
  have hlocals := filter_withoutRegions
    (p := fun e ↦ e.isLocalVariable && !isUsed (linesOf shown.toArray method.toEntry) e)
    (by intro e he; simp [Entry.isLocalVariable, e.kind_of_isRegion he])
    fun s hs ↦ by rw [hinside s hs, Bool.false_and]
  change (List.filter _ (withoutRegions method.children)).map _ = _
  rw [toEntry_cleared, hlocals, List.map_map]
  have hsame : method.children.filter (fun v ↦
      v.isLocalVariable && !isUsed (linesOf shown.toArray method.toEntry) v.toEntry) =
        method.children.filter fun v ↦
          v.isLocalVariable && !isUsed (linesOf lines.toArray method.toEntry) v.toEntry := by
    apply List.filter_congr
    intro v hv
    cases hlocal : v.isLocalVariable with
    | true => rw [isUsed_hidden hlines hblanks (hnames v hv hlocal)]
    | false => rfl
  rw [hsame]
  rfl

/-! ## The checks of the content -/

def contentCodes : List String :=
  ["empty-block", "unused-variable", "missing-member", "duplicate-declaration"]

theorem withCodes_walk (limit : Nat) (lines : List SourceLine) :
    withCodes contentCodes (walk limit lines) = empties .start lines := by
  have hline (t : Tracker) (line : SourceLine) : withCodes contentCodes (atLine limit t line) =
      withCodes ["empty-block"] (t.step line).2 := by
    rw [atLine, withCodes_append,
      (codesIn_line limit t.surroundings line).withCodes_eq_nil (by simp [lineCodes, contentCodes]),
      List.nil_append]
    exact (t.codesIn_step line).withCodes_congr (by simp [blockCodes, contentCodes])
  rw [walk, withCodes_append, withCodes_flatMap,
    (Tracker.codesIn_finish _).withCodes_eq_nil (by simp [contentCodes]), List.append_nil]
  simp only [hline]
  rfl

/-- What the checks of the content find in a text. -/
def contents (text : Text) (others : List DocumentOutline) : List Diagnostic :=
  empties .start (readAll (lines text)) ++
    unusedVariables (readAll (lines text)) (Outline.ofText text) ++
    missingMembers (Outline.ofText text) others ++ duplicates (Outline.ofText text) others

theorem withCodes_validate_contents (limit : Nat) (text : Text) (others : List DocumentOutline)
    {codes : List String} (h : codes ⊆ contentCodes) :
    withCodes codes (validate ⟨limit, []⟩ text others) =
      sortByStart (withCodes codes (contents text others)) := by
  have hcontents : withCodes contentCodes (findings limit text others) = contents text others := by
    rw [findings, withCodes_append, withCodes_append, withCodes_append, withCodes_walk,
      (codesIn_unusedVariables _ _).withCodes_eq_self (by simp [contentCodes]),
      (codesIn_missingMembers _ _).withCodes_eq_self (by simp [contentCodes]),
      (codesIn_duplicates _ _).withCodes_eq_self (by simp [contentCodes])]
    rfl
  rw [withCodes_validate_all, ← withCodes_withCodes h, hcontents]

/-- Each code belongs to one of the checks. -/
theorem withCodes_contents (text : Text) (others : List DocumentOutline) :
    withCodes ["empty-block"] (contents text others) = empties .start (readAll (lines text)) ∧
    withCodes ["unused-variable"] (contents text others) =
      unusedVariables (readAll (lines text)) (Outline.ofText text) ∧
    withCodes ["missing-member"] (contents text others) =
      missingMembers (Outline.ofText text) others ∧
    withCodes ["duplicate-declaration"] (contents text others) =
      duplicates (Outline.ofText text) others := by
  have hempties : CodesIn ["empty-block"] (empties .start (readAll (lines text))) :=
    codesIn_flatMap fun p _ ↦ codesIn_withCodes _
  have hunused := codesIn_unusedVariables (readAll (lines text)) (Outline.ofText text)
  have hmissing := codesIn_missingMembers (Outline.ofText text) others
  have hduplicates := codesIn_duplicates (Outline.ofText text) others
  simp only [contents, withCodes_append]
  refine ⟨?_, ?_, ?_, ?_⟩
  · rw [hempties.withCodes_eq_self (List.Subset.refl _), hunused.withCodes_eq_nil (by simp),
      hmissing.withCodes_eq_nil (by simp), hduplicates.withCodes_eq_nil (by simp)]
    simp
  · rw [hempties.withCodes_eq_nil (by simp), hunused.withCodes_eq_self (List.Subset.refl _),
      hmissing.withCodes_eq_nil (by simp), hduplicates.withCodes_eq_nil (by simp)]
    simp
  · rw [hempties.withCodes_eq_nil (by simp), hunused.withCodes_eq_nil (by simp),
      hmissing.withCodes_eq_self (List.Subset.refl _), hduplicates.withCodes_eq_nil (by simp)]
    simp
  · rw [hempties.withCodes_eq_nil (by simp), hunused.withCodes_eq_nil (by simp),
      hmissing.withCodes_eq_nil (by simp), hduplicates.withCodes_eq_self (List.Subset.refl _)]
    simp

/-- In a balanced document none of whose markers is continued or parts a property from its accessor,
the markers make no difference to duplicates; to missing members if no type has the mark of an
interface inside a region; to unused variables if no method has a local variable inside a region and
no marker has the name of one of its variables; and to empty blocks if no region stands directly
inside a control block. -/
theorem contents_hideMarkers (limit : Nat) (text : Text) (others : List DocumentOutline)
    (hbalanced : ∀ d ∈ validate ⟨limit, []⟩ text others, d.code ∉ balanceCodes)
    (hmarkers : MarkersEnd (lines text))
    (haccessors : ∀ line ∈ readAll (lines text), line.AccessorFollows (lines (hideMarkers text))) :
    let report := validate ⟨limit, []⟩ text others
    let without := validate ⟨limit, []⟩ (hideMarkers text) others
    let marks := MarksApart (Outline.ofText text)
    let locals := LocalsApart (readAll (lines text)) (Outline.ofText text)
    let regions := RegionsApart .start (readAll (lines text))
    withCodes ["duplicate-declaration"] without = withCodes ["duplicate-declaration"] report ∧
    (marks → withCodes ["missing-member"] without = withCodes ["missing-member"] report) ∧
    (locals → withCodes ["unused-variable"] without = withCodes ["unused-variable"] report) ∧
    (regions → withCodes ["empty-block"] without = withCodes ["empty-block"] report) ∧
    (marks → locals → regions → withCodes contentCodes without = withCodes contentCodes report) := by
  intro report without marks locals regions
  rw [no_balanceCodes_iff] at hbalanced
  have hforest := Outline.ofText_hideMarkers hmarkers haccessors hbalanced
  obtain ⟨blanks, hlines, hblanks⟩ := readAll_hideMarkers hmarkers
  have hduplicates : duplicates (Outline.ofText (hideMarkers text)) others =
      duplicates (Outline.ofText text) others := by
    rw [hforest, duplicates_withoutRegions]
  have hmissing (h : marks) : missingMembers (Outline.ofText (hideMarkers text)) others =
      missingMembers (Outline.ofText text) others := by
    rw [hforest, missingMembers_withoutRegions h]
  have hunused (h : locals) :
      unusedVariables (readAll (lines (hideMarkers text))) (Outline.ofText (hideMarkers text)) =
        unusedVariables (readAll (lines text)) (Outline.ofText text) := by
    rw [hforest, unusedVariables_hidden hlines (fun line hline ↦ (hblanks line hline).2) h]
  have hempties (h : regions) : empties .start (readAll (lines (hideMarkers text))) =
      empties .start (readAll (lines text)) := by
    rw [← empties_append_blank .start _ fun line hline ↦ (hblanks line hline).1, ← hlines,
      empties_hidden (fun _ ↦ readIn_of_mem) haccessors hbalanced h]
  obtain ⟨hone, htwo, hthree, hfour⟩ := withCodes_contents text others
  obtain ⟨hone', htwo', hthree', hfour'⟩ := withCodes_contents (hideMarkers text) others
  have hcodes {codes : List String} (hcontent : codes ⊆ contentCodes)
      (hsame : withCodes codes (contents (hideMarkers text) others) =
        withCodes codes (contents text others)) :
      withCodes codes without = withCodes codes report := by
    rw [withCodes_validate_contents limit _ _ hcontent,
      withCodes_validate_contents limit _ _ hcontent, hsame]
  refine ⟨?_, ?_, ?_, ?_, ?_⟩
  · apply hcodes (by simp [contentCodes])
    rw [hfour, hfour', hduplicates]
  · intro hmarks
    apply hcodes (by simp [contentCodes])
    rw [hthree, hthree', hmissing hmarks]
  · intro hlocals
    apply hcodes (by simp [contentCodes])
    rw [htwo, htwo', hunused hlocals]
  · intro hregions
    apply hcodes (by simp [contentCodes])
    rw [hone, hone', hempties hregions]
  · intro hmarks hlocals hregions
    apply hcodes (List.Subset.refl _)
    rw [contents, contents, hempties hregions, hunused hlocals, hmissing hmarks, hduplicates]

/-- A region in a class, around a method with an empty block. -/
def regionInClass : Text :=
  "Class C\n#Region \"r\"\nSub F()\nIf x Then\nEnd If\nEnd Sub\n#End Region\nEnd Class".toList

theorem contents_hideMarkers_regionInClass :
    (∀ d ∈ validate ⟨120, []⟩ regionInClass [], d.code ∉ balanceCodes) ∧
    MarkersEnd (lines regionInClass) ∧
    (∀ line ∈ readAll (lines regionInClass),
      line.AccessorFollows (lines (hideMarkers regionInClass))) ∧
    MarksApart (Outline.ofText regionInClass) ∧
    LocalsApart (readAll (lines regionInClass)) (Outline.ofText regionInClass) ∧
    RegionsApart .start (readAll (lines regionInClass)) ∧
    withCodes contentCodes (validate ⟨120, []⟩ (hideMarkers regionInClass) []) =
      withCodes contentCodes (validate ⟨120, []⟩ regionInClass []) := by
  have hconditions : (readAll (lines regionInClass)).foldlM advance? [] = some [] ∧
      MarkersEnd (lines regionInClass) ∧
      (∀ line ∈ readAll (lines regionInClass),
        line.AccessorFollows (lines (hideMarkers regionInClass))) ∧
      MarksApart (Outline.ofText regionInClass) ∧
      LocalsApart (readAll (lines regionInClass)) (Outline.ofText regionInClass) ∧
      RegionsApart .start (readAll (lines regionInClass)) := by
    unfold MarkersEnd AccessorFollows MarksApart LocalsApart RegionsApart
    decide +kernel
  obtain ⟨hadvance, hmarkers, haccessors, hmarks, hlocals, hregions⟩ := hconditions
  have hbalanced := (no_balanceCodes_iff 120 regionInClass []).2 hadvance
  obtain ⟨_, _, _, _, hall⟩ := contents_hideMarkers 120 regionInClass [] hbalanced hmarkers haccessors
  exact ⟨hbalanced, hmarkers, haccessors, hmarks, hlocals, hregions, hall hmarks hlocals hregions⟩

/-- A region that is called like a variable. -/
def regionLikeVariable : Text :=
  "Sub M()\nDim total As Integer\n#Region \"total\"\n#End Region\nEnd Sub".toList

/-- The name of a region counts as a use of a variable. -/
theorem contents_regionLikeVariable :
    (∀ d ∈ validate ⟨120, []⟩ regionLikeVariable [], d.code ∉ balanceCodes) ∧
    withCodes contentCodes (validate ⟨120, []⟩ regionLikeVariable []) = [] ∧
    withCodes contentCodes (validate ⟨120, []⟩ (hideMarkers regionLikeVariable) []) =
      [⟨⟨⟨1, 4⟩, ⟨1, 9⟩⟩, .unusedVariable "total".toList⟩] := by
  have hfound : (readAll (lines regionLikeVariable)).foldlM advance? [] = some [] ∧
      withCodes contentCodes (contents regionLikeVariable []) = [] ∧
      withCodes contentCodes (contents (hideMarkers regionLikeVariable) []) =
        [⟨⟨⟨1, 4⟩, ⟨1, 9⟩⟩, .unusedVariable "total".toList⟩] := by
    decide +kernel
  obtain ⟨hadvance, hwith, hwithout⟩ := hfound
  have hcodes := List.Subset.refl contentCodes
  rw [withCodes_validate_contents 120 _ _ hcodes, withCodes_validate_contents 120 _ _ hcodes, hwith,
    hwithout]
  exact ⟨(no_balanceCodes_iff 120 regionLikeVariable []).2 hadvance, List.mergeSort_nil,
    List.mergeSort_singleton _⟩

end Check

end VbOutline
