import VbOutline.Proofs.Check.Simulation
import VbOutline.Proofs.Source.Hiding
import VbOutline.Proofs.Symbol.Regions

/-!
# Outlines without region markers

If the markers of a balanced document are hidden, its outline is the one of the document with every
region replaced by what is inside it. The pass over the hidden lines is compared with the pass over
the document by leaving out the open regions: what is inside an open region counts as being inside
the block around it. A marker then changes nothing, and any other line does the same in both.

A closing statement needs care. Its block may be the innermost one only once a region is left out.
In a balanced document this does not happen: if the innermost block of the outline does not fit, the
statement closes a block that the outline does not see, and such a block never fits.
-/

namespace VbOutline

open Text Line

theorem Block.ne_region_of_ofWord? {word : Text} {block : Block} (h : ofWord? word = some block) :
    block ≠ .region := by
  have hwords : ∀ p ∈ words, p.2 ≠ .region := by decide
  exact hwords _ (folded_mem_words h)

namespace Header

theorem block_ne_region {code : Text} {h : Header} (hparse : parse? code = some h) :
    h.block ≠ .region := by
  simp only [parse?] at hparse
  split at hparse
  · split at hparse
    · next block name hword hname =>
      rw [← Option.some.inj hparse]
      exact Block.ne_region_of_ofWord? hword
    · cases hparse
  · cases hparse

theorem detail_ne {h : Header} (hblock : h.block ≠ .region) :
    h.detail ≠ Block.region.keyword.toList := by
  intro hdetail
  have hhead := congrArg List.head? hdetail
  simp only [detail, List.append_assoc] at hhead
  revert hhead hblock
  cases h.block <;> simp [Block.keyword]

end Header

namespace Outline

open Check BlockAt VbOutline.Symbol

/-- The state of the pass without regions. What is inside an open region goes into the block around
it. -/
def clearedFrom : List OpenBlock → List Symbol → Outline
  | [], roots => ⟨[], (withoutRegions roots.reverse).reverse⟩
  | b :: rest, roots =>
    let around := clearedFrom rest roots
    if b.block = .region then
      (withoutRegions (b.symbol.children ++ b.inner.reverse)).foldl add around
    else
      { around with
        stack := ⟨b.block, b.symbol.cleared, (withoutRegions b.inner.reverse).reverse⟩ :: around.stack }

def cleared (o : Outline) : Outline := clearedFrom o.stack o.roots

theorem cleared_add (o : Outline) (s : Symbol) :
    (o.add s).cleared = (withoutRegions [s]).foldl add o.cleared := by
  obtain ⟨stack, roots⟩ := o
  cases stack with
  | nil =>
    change clearedFrom [] (s :: roots) = List.foldl add (clearedFrom [] roots) _
    rw [clearedFrom, clearedFrom, foldl_add_nil, List.reverse_cons, withoutRegions_append,
      List.reverse_append]
  | cons b rest =>
    change clearedFrom ({ b with inner := s :: b.inner } :: rest) roots =
      List.foldl add (clearedFrom (b :: rest) roots) _
    simp only [clearedFrom, List.reverse_cons]
    split
    · rw [← List.append_assoc, withoutRegions_append, List.foldl_append]
    · rw [foldl_add_cons, withoutRegions_append, List.reverse_append]

theorem cleared_foldl_add (o : Outline) (symbols : List Symbol) :
    (symbols.foldl add o).cleared = (withoutRegions symbols).foldl add o.cleared := by
  induction symbols generalizing o with
  | nil => rw [withoutRegions_nil, List.foldl_nil, List.foldl_nil]
  | cons s symbols ih =>
    rw [List.foldl_cons, ih, cleared_add, ← List.foldl_append, ← withoutRegions_append,
      List.singleton_append]

theorem cleared_push_region (o : Outline) (e : Entry) :
    (o.push .region ⟨e, []⟩).cleared = o.cleared := by
  change clearedFrom (⟨.region, ⟨e, []⟩, []⟩ :: o.stack) o.roots = _
  rw [clearedFrom, if_pos rfl, List.reverse_nil, List.append_nil, withoutRegions_nil]
  rfl

theorem cleared_push {block : Block} (hblock : block ≠ .region) {s : Symbol} (hs : s.cleared = s)
    (o : Outline) : (o.push block s).cleared = o.cleared.push block s := by
  change clearedFrom (⟨block, s, []⟩ :: o.stack) o.roots = _
  rw [clearedFrom, if_neg hblock, List.reverse_nil, withoutRegions_nil, hs]
  rfl

/-- The end of a region changes nothing. -/
theorem cleared_close_region {b : OpenBlock} (hblock : b.block = .region)
    (hsymbol : b.symbol.isRegion) (rest : List OpenBlock) (roots : List Symbol) (stop : Position) :
    (add ⟨rest, roots⟩ (b.close stop)).cleared = cleared ⟨b :: rest, roots⟩ := by
  have hclose : (b.close stop).isRegion = true := hsymbol
  rw [cleared_add, withoutRegions_singleton, hclose, if_pos rfl]
  change _ = clearedFrom (b :: rest) roots
  rw [clearedFrom, if_pos hblock]
  rfl

/-- The end of another block closes it without regions as well. -/
theorem cleared_close {b : OpenBlock} (hblock : b.block ≠ .region)
    (hsymbol : b.symbol.isRegion = false) (rest : List OpenBlock) (roots : List Symbol)
    (stop : Position) :
    (add ⟨rest, roots⟩ (b.close stop)).cleared = (cleared ⟨b :: rest, roots⟩).close b.block stop := by
  have hclose : (b.close stop).isRegion = false := hsymbol
  have hstack : cleared ⟨b :: rest, roots⟩ =
      { cleared ⟨rest, roots⟩ with
        stack := ⟨b.block, b.symbol.cleared, (withoutRegions b.inner.reverse).reverse⟩ ::
          (cleared ⟨rest, roots⟩).stack } := by
    change clearedFrom (b :: rest) roots = _
    rw [clearedFrom, if_neg hblock]
    rfl
  rw [cleared_add, withoutRegions_singleton, hclose, if_neg Bool.false_ne_true, hstack, close]
  simp only [beq_self_eq_true, if_true, List.foldl_cons, List.foldl_nil]
  congr 1
  simp only [OpenBlock.close, Symbol.cleared, withoutRegions_append, List.reverse_reverse]

theorem blocks_cleared (o : Outline) : o.cleared.blocks = o.blocks.filter fun b ↦ b.1 != .region := by
  obtain ⟨stack, roots⟩ := o
  induction stack with
  | nil => rfl
  | cons b rest ih =>
    have hblocks : blocks ⟨b :: rest, roots⟩ =
        (b.block, b.symbol.range.start.line) :: blocks ⟨rest, roots⟩ := rfl
    change (clearedFrom (b :: rest) roots).blocks = _
    rw [clearedFrom, hblocks]
    split
    · next hregion =>
      rw [blocks_foldl_add, List.filter_cons_of_neg (by simp [hregion])]
      exact ih
    · next hother =>
      rw [List.filter_cons_of_pos (by simp [hother]), ← ih]
      rfl

theorem enclosing_cleared (o : Outline) : o.cleared.enclosing = o.enclosing := by
  rw [enclosing_eq, enclosing_eq, BlockAt.enclosing, BlockAt.enclosing, blocks_cleared,
    List.find?_filter]
  simp only [and_self, Bool.decide_eq_true]

/-! ## The symbols of one line -/

theorem isRegion_leaf (line : SourceLine) (name : Text) (offset : Nat) {kind : SymbolKind}
    (hkind : kind ≠ .container) (detail : Text) :
    (leaf line name offset kind detail).isRegion = false := by
  simp [leaf, entry, Entry.isRegion, hkind]

theorem isRegion_arguments (line : SourceLine) (h : Header) :
    ∀ s ∈ arguments line h, s.isRegion = false := by
  unfold arguments
  split
  · rw [List.forall_mem_map]
    intro a _
    exact isRegion_leaf line a.name a.offset (by decide) _
  · simp

theorem isRegion_declared (line : SourceLine) (around : Option Block) (d : Declaration) :
    ∀ s ∈ declared line around d, s.isRegion = false := by
  have hkind : (if d.isConst then .constant else variableKind around) ≠ .container := by
    split
    · decide
    · unfold variableKind
      split <;> decide
  rw [declared, List.forall_mem_map]
  intro x _
  exact isRegion_leaf line x.name x.offset hkind _

theorem isRegion_enumMember (line : SourceLine) (around : Option Block) :
    ∀ s ∈ enumMember line around, s.isRegion = false := by
  unfold enumMember
  split
  · split
    · rw [List.forall_mem_singleton]
      exact isRegion_leaf line _ _ (by decide) _
    · simp
  · simp

section

variable {rows : List Text} {line : SourceLine}

theorem isRegion_header (hread : line.ReadIn rows) {h : Header}
    (hs : line.statement = some (.header h)) (kind : SymbolKind) (children : List Symbol) :
    (Symbol.mk (entry line h.name h.nameOffset kind h.detail) children).isRegion = false := by
  have hdetail := Header.detail_ne (Header.block_ne_region (hread.readFrom hs))
  simp [entry, Entry.isRegion, hdetail]

/-- Only a marker brings a region. -/
theorem isRegion_created (hread : line.ReadIn rows) (hmarker : line.isMarker = false)
    (o : Outline) : ∀ s ∈ flatten (o.created line), s.isRegion = false := by
  have hleaves {symbols : List Symbol} (hchildren : ∀ s ∈ symbols, IsLeafOn line s)
      (hregion : ∀ s ∈ symbols, s.isRegion = false) : ∀ s ∈ flatten symbols, s.isRegion = false := by
    rwa [flatten_eq_self fun s hs ↦ (hchildren s hs).2]
  cases hs : line.statement with
  | none => simp [created, hs]
  | some statement =>
    cases statement with
    | blockEnd e => simp [created, hs]
    | region p => simp [SourceLine.isMarker, hs] at hmarker
    | header h =>
      simp only [created, hs]
      split
      · rw [flatten_cons, flatten_nil, List.append_nil, List.forall_mem_cons]
        exact ⟨isRegion_header hread hs _ _,
          hleaves (isLeafOn_arguments line h) (isRegion_arguments line h)⟩
      · simp
    | imports p isAlias =>
      simp only [created, hs]
      exact hleaves (by simp [isLeafOn_leaf]) (by simp [isRegion_leaf])
    | implements names =>
      simp only [created, hs]
      exact hleaves (by simp [implemented, isLeafOn_leaf]) (by simp [implemented, isRegion_leaf])
    | declaration d =>
      simp only [created, hs]
      exact hleaves (by simp [declared, isLeafOn_leaf]) (isRegion_declared line _ d)
    | blank | control | branch | plain =>
      simp only [created, hs]
      exact hleaves (isLeafOn_enumMember line _) (isRegion_enumMember line _)

/-- A line opens a region if and only if its symbol is one. -/
theorem isRegion_opened {o : Outline} {block : Block} {s : Symbol} (hread : line.ReadIn rows)
    (hopened : o.opened? line = some block) (hcreated : o.created line = [s]) :
    s.isRegion = (block == .region) := by
  cases hs : line.statement with
  | none => simp [opened?, hs] at hopened
  | some statement =>
    cases statement with
    | header h =>
      have hblock := Header.block_ne_region (hread.readFrom hs)
      simp only [opened?, hs, Option.ite_none_right_eq_some, Option.some.injEq] at hopened
      simp only [created, hs] at hcreated
      split at hcreated
      · rw [← (List.cons.inj hcreated).1, isRegion_header hread hs, ← hopened.2]
        simp [hblock]
      · cases hcreated
    | region p =>
      simp only [opened?, hs, Option.some.injEq] at hopened
      simp only [created, hs] at hcreated
      rw [← (List.cons.inj hcreated).1, ← hopened]
      rfl
    | blank | blockEnd | imports | implements | control | branch | declaration | plain =>
      simp [opened?, hs] at hopened

/-- The open blocks that are regions have the symbols of regions. -/
def Marked (o : Outline) : Prop := ∀ b ∈ o.stack, b.symbol.isRegion = (b.block == .region)

theorem marked_foldl_add {o : Outline} (h : o.Marked) (symbols : List Symbol) :
    (symbols.foldl add o).Marked := by
  obtain ⟨_ | ⟨b, rest⟩, roots⟩ := o
  · rw [foldl_add_nil]
    exact h
  · rw [foldl_add_cons]
    rw [Marked, List.forall_mem_cons] at h ⊢
    exact h

theorem marked_step {o : Outline} (h : o.Marked) (hread : line.ReadIn rows) : (o.step line).Marked := by
  obtain ⟨e, hs, _, hstep⟩ | ⟨_, _, hstep⟩ | ⟨block, s, hopened, hcreated, hstep⟩ :=
    step_cases o line
  · obtain ⟨_, hclose⟩ | ⟨b, rest, hstack, _, hclose⟩ := close_cases o e.block line.stop
    · rwa [hstep, hclose]
    · rw [Marked, hstack, List.forall_mem_cons] at h
      rw [hstep, hclose]
      exact marked_foldl_add (o := ⟨rest, o.roots⟩) h.2 [b.close line.stop]
  · rw [hstep]
    exact marked_foldl_add h _
  · rw [hstep, Marked, push, List.forall_mem_cons]
    exact ⟨isRegion_opened hread hopened hcreated, h⟩

/-- A marker changes nothing but regions. -/
theorem cleared_step_of_isMarker {o : Outline} (hmarked : o.Marked) (hmarker : line.isMarker) :
    (o.step line).cleared = o.cleared := by
  unfold SourceLine.isMarker at hmarker
  split at hmarker
  · next p hs =>
    have hstep : o.step line =
        o.push .region (leaf line p.name p.offset .container Block.region.keyword.toList) := by
      simp [step, hs]
    rw [hstep]
    exact cleared_push_region o _
  · next e hs =>
    have hblock : e.block = .region := by simpa using hmarker
    have hstep : o.step line = o.close e.block line.stop := by simp [step, hs]
    rw [hstep]
    obtain ⟨_, hclose⟩ | ⟨b, rest, hstack, hfits, hclose⟩ := close_cases o e.block line.stop
    · rw [hclose]
    · have hregion : b.block = .region := hfits.trans hblock
      have hsymbol := hmarked b (by simp [hstack])
      rw [hregion, beq_self_eq_true] at hsymbol
      rw [hclose, cleared_close_region hregion hsymbol, ← hstack]
  · cases hmarker

end

end Outline

/-- If a closing statement fits the innermost of all blocks and not the innermost one that the outline
sees, it does not fit the innermost one that is no region either. -/
theorem BlockAt.Hides.enclosing_ne {seen all : List BlockAt} (h : Hides seen all) {block : Block}
    (hall : all.head?.map Prod.fst = some block) (hseen : seen.head?.map Prod.fst ≠ some block) :
    enclosing seen ≠ some block := by
  have hkinds := h.symbolKind?_isSome
  cases h with
  | nil => cases hall
  | shared b _ _ => exact absurd hall hseen
  | hidden b hhidden _ =>
    obtain rfl : b.1 = block := by simpa using hall
    intro henclosing
    obtain hkind | ⟨hinterface, hmember⟩ := hhidden
    · obtain ⟨c, hc, hblock⟩ := Option.map_eq_some_iff.1 henclosing
      have hsome := hkinds c (List.mem_of_find?_eq_some hc)
      rw [hblock, hkind] at hsome
      cases hsome
    · rw [henclosing, Option.some.injEq] at hinterface
      simp [hinterface] at hmember

namespace SourceLine

def isProperty (line : SourceLine) : Bool :=
  match line.statement with
  | some (.header h) => h.block == .property
  | _ => false

/-- The line is no property that is parted from its first accessor by markers: whether an accessor
comes next is the same with the given rows, in which the markers are hidden. -/
def AccessorFollows (rows : List Text) (line : SourceLine) : Prop :=
  line.isProperty → (nextCode? rows line.index).any isAccessor = line.next.any isAccessor

/-- A header opens a block or not whatever comes next, unless it is a property. -/
theorem AccessorFollows.opensBlock_eq {rows : List Text} {line : SourceLine}
    (h : line.AccessorFollows rows) {header : Header}
    (hs : line.statement = some (.header header)) (inside : Bool) :
    header.opensBlock inside (nextCode? rows line.index) = header.opensBlock inside line.next :=
  Header.opensBlock_congr (fun hblock ↦ h (by simp [isProperty, hs, hblock])) inside

end SourceLine

namespace Outline

open Check BlockAt VbOutline.Symbol

section

variable {rows : List Text} {line : SourceLine} {o : Outline} {all all' : List BlockAt}

/-- A closing statement of a balanced document, other than the end of a region. -/
theorem cleared_close_of_fits (hmarked : o.Marked) (h : Hides o.blocks all) {block : Block}
    (hregion : block ≠ .region) (hall : all.head?.map Prod.fst = some block) (stop : Position) :
    (o.close block stop).cleared = o.cleared.close block stop := by
  obtain ⟨hother, hclose⟩ | ⟨b, rest, hstack, rfl, hclose⟩ := close_cases o block stop
  · rw [hclose]
    obtain ⟨_, hclosed⟩ | ⟨c, below, hcleared, hblock, _⟩ := close_cases o.cleared block stop
    · exact hclosed.symm
    · have hseen : o.blocks.head?.map Prod.fst ≠ some block := by
        rw [blocks, List.head?_map, Option.map_map]
        exact hother
      have hhead : BlockAt.enclosing o.blocks = some block := by
        rw [BlockAt.enclosing, ← List.head?_filter, ← blocks_cleared, blocks, hcleared]
        exact congrArg some hblock
      exact absurd hhead (h.enclosing_ne hall hseen)
  · have hsymbol := hmarked b (by simp [hstack])
    rw [beq_eq_false_iff_ne.2 hregion] at hsymbol
    rw [hclose, cleared_close hregion hsymbol, ← hstack]

/-- A line of a balanced document that is no marker does the same without regions. -/
theorem cleared_step (hread : line.ReadIn rows) (hmarker : line.isMarker = false)
    (hmarked : o.Marked) (h : Hides o.blocks all) (hadvance : advance? all line = some all')
    {next : Option Text} (hnext : ∀ header, line.statement = some (.header header) →
      ∀ inside, header.opensBlock inside next = header.opensBlock inside line.next) :
    (o.step line).cleared = o.cleared.step { line with next } := by
  have hcreated : o.cleared.created { line with next } = o.created line := by
    simp only [created, enclosing_cleared]
    rfl
  have hopened : o.cleared.opened? { line with next } = o.opened? line := by
    cases hs : line.statement with
    | none => simp [opened?, hs]
    | some statement =>
      cases statement with
      | header header =>
        simp only [opened?, hs, enclosing_cleared, hnext header hs]
      | _ => simp [opened?, hs]
  have hregion := isRegion_created hread hmarker o
  obtain ⟨e, hs, _, hstep⟩ | ⟨hother, hnone, hstep⟩ | ⟨block, s, hsome, hone, hstep⟩ :=
    step_cases o line
  · have hblock : e.block ≠ .region := by simpa [SourceLine.isMarker, hs] using hmarker
    have hclosed : closed? line = some e.block := (closed?_eq_some_iff line e.block).2 ⟨e, hs, rfl⟩
    simp only [advance?, hclosed, Option.ite_none_right_eq_some] at hadvance
    rw [hstep, cleared_close_of_fits hmarked h hblock hadvance.1]
    simp [step, hs]
    rfl
  · obtain ⟨e, hs, _⟩ | ⟨_, _, hstep'⟩ | ⟨block, s, hsome, _⟩ :=
      step_cases o.cleared { line with next }
    · exact absurd hs (hother e)
    · rw [hstep, hstep', hcreated, cleared_foldl_add, withoutRegions_eq_self hregion]
    · rw [hopened, hnone] at hsome
      cases hsome
  · rw [hone, flatten_cons, flatten_nil, List.append_nil, List.forall_mem_cons] at hregion
    have hblock : block ≠ .region := by
      rw [isRegion_opened hread hsome hone] at hregion
      simpa using hregion.1
    have hcleared : s.cleared = s := by
      obtain ⟨entry, children⟩ := s
      rw [Symbol.cleared, withoutRegions_eq_self hregion.2]
    obtain ⟨e, hs, _⟩ | ⟨_, hnone, _⟩ | ⟨block', s', hsome', hone', hstep'⟩ :=
      step_cases o.cleared { line with next }
    · simp [opened?, show line.statement = _ from hs] at hsome
    · rw [hopened, hsome] at hnone
      cases hnone
    · rw [hopened, hsome] at hsome'
      rw [hcreated, hone] at hone'
      obtain rfl := Option.some.inj hsome'
      obtain rfl := (List.cons.inj hone').1
      rw [hstep, hstep', cleared_push hblock hcleared]

end

/-! ## Whole documents -/

/-- The pass over the lines of a balanced document without markers. -/
theorem cleared_foldl_step {rows hiddenRows : List Text} {lines : List SourceLine} {o : Outline}
    {all final : List BlockAt} (hread : ∀ line ∈ lines, line.ReadIn rows)
    (hnext : ∀ line ∈ lines, line.AccessorFollows hiddenRows) (hmarked : o.Marked)
    (h : Hides o.blocks all) (hbalanced : lines.foldlM advance? all = some final) :
    (lines.foldl step o).cleared = (lines.map (SourceLine.hidden hiddenRows)).foldl step o.cleared ∧
      Hides (lines.foldl step o).blocks final := by
  induction lines generalizing o all with
  | nil =>
    obtain rfl := Option.some.inj hbalanced
    exact ⟨rfl, h⟩
  | cons line lines ih =>
    rw [List.forall_mem_cons] at hread hnext
    obtain ⟨all', hadvance, hrest⟩ := Option.bind_eq_some_iff.1 hbalanced
    have hmove := move_step hread.1 h hadvance
    have hstep : (o.step line).cleared = o.cleared.step (line.hidden hiddenRows) := by
      cases hmarker : line.isMarker with
      | true => rw [cleared_step_of_isMarker hmarked hmarker, SourceLine.hidden, if_pos hmarker]; rfl
      | false =>
        rw [SourceLine.hidden, hmarker, if_neg Bool.false_ne_true]
        exact cleared_step hread.1 hmarker hmarked h hadvance fun _ ↦ hnext.1.opensBlock_eq
    rw [List.foldl_cons, List.map_cons, List.foldl_cons, ← hstep]
    exact ih hread.2 hnext.2 (marked_step hmarked hread.1) (hmove.hides h) hrest

theorem foldl_step_of_blank {blanks : List SourceLine} (h : ∀ line ∈ blanks, line.statement = none)
    (o : Outline) : blanks.foldl step o = o := by
  induction blanks with
  | nil => rfl
  | cons line blanks ih =>
    rw [List.forall_mem_cons] at h
    have hstep : o.step line = o := by simp [step, h.1]
    rw [List.foldl_cons, hstep, ih h.2]

/-- The outline of a balanced document without its markers is its outline without regions. -/
theorem ofText_hideMarkers {text : Text} (hmarkers : SourceLine.MarkersEnd (lines text))
    (hnext : ∀ line ∈ SourceLine.readAll (lines text),
      line.AccessorFollows (lines (SourceLine.hideMarkers text)))
    (hbalanced : (SourceLine.readAll (lines text)).foldlM advance? [] = some []) :
    ofText (SourceLine.hideMarkers text) = withoutRegions (ofText text) := by
  obtain ⟨hrun, hhides⟩ := cleared_foldl_step (o := start) (fun _ ↦ SourceLine.readIn_of_mem) hnext
    (by simp [Marked, start]) .nil hbalanced
  obtain ⟨blanks, hlines, hblanks⟩ := SourceLine.readAll_hideMarkers hmarkers
  rw [hlines, List.foldl_append, foldl_step_of_blank fun line hline ↦ (hblanks line hline).1] at hrun
  have hstart : start.cleared = start := by
    change clearedFrom [] [] = _
    rw [clearedFrom, List.reverse_nil, withoutRegions_nil]
    rfl
  have hstack : ((SourceLine.readAll (lines text)).foldl step start).stack = [] := by
    have hnil := List.sublist_nil.1 hhides.sublist
    exact List.map_eq_nil_iff.1 hnil
  rw [cleared, hstack, hstart, clearedFrom] at hrun
  rw [ofText, ofLines, finish, ofText, ofLines, finish, ← hrun, hstack, closeAll, closeAll,
    List.reverse_reverse]

end Outline

end VbOutline
