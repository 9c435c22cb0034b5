import VbOutline.Proofs.Check.Balance
import VbOutline.Proofs.Outline.Origin

/-!
# Outlines of balanced documents

The outline and the checks keep stacks of their own. The stack of the checks also holds control
blocks and accessors, and therefore methods that stand in an interface for the outline but in a
control block for the checks. Such a block is hidden from the outline, both when it is opened and
when it is closed.

On a balanced document the two stacks stay aligned. A line opens or closes a block on both stacks, or
it opens or closes a block that is hidden from the outline; the closing statement of a hidden block
never fits the innermost block of the outline. So at the end of the document nothing is open in the
outline either.
-/

namespace VbOutline

open Text Line

namespace Block

theorem words_plain : ∀ p ∈ words, ∀ c ∈ p.1.toList, c ≠ 'ſ' ∧ c ≠ '\u212A' := by
  simp only [words, List.forall_mem_cons]
  simp

/-- A word that names a block in ASCII case is one of the words up to case folding too. -/
theorem folded_mem_words {word : Text} {block : Block} (h : ofWord? word = some block) :
    (folded word, block) ∈ words := by
  have hmem : (String.ofList (asciiLower word), block) ∈ words := by
    obtain ⟨front, back, hwords, _⟩ := List.lookup_eq_some_iff.1 h
    rw [hwords]
    simp
  have hplain := words_plain _ hmem
  rw [String.toList_ofList] at hplain
  have hfold : word.map foldChar = asciiLower word := by
    apply List.map_congr_left
    intro c hc
    obtain ⟨hs, hk⟩ := hplain c.toLower (List.mem_map_of_mem hc)
    have hnots : c ≠ 'ſ' := by
      rintro rfl
      exact hs (by decide)
    have hnotk : c ≠ '\u212A' := by
      rintro rfl
      exact hk (by decide)
    simp [foldChar, hnots, hnotk]
  rwa [folded, hfold]

end Block

namespace ControlStart

theorem words_symbolKind? : ∀ p ∈ Block.words, p.1 ∈ ["get", "set"] ∨ p.1 ∈ words →
    p.2.symbolKind? = none := by
  simp only [Block.words, List.forall_mem_cons]
  simp [words, Block.symbolKind?]

/-- The word with which a control block or an accessor begins. -/
theorem folded_mem_of_word {text word : Text}
    (h : (accessorWord? text).or ((keyword? words text).map (·.1)) = some word) :
    folded word ∈ ["get", "set"] ∨ folded word ∈ words := by
  have hkeyword {keywords : List String} {s rest : Text}
      (hk : keyword? keywords s = some (word, rest)) : folded word ∈ keywords := by
    rw [keyword?, Option.ite_none_right_eq_some, Option.some.injEq, Prod.mk.injEq] at hk
    obtain ⟨hone, rfl, _⟩ := hk
    exact List.contains_iff_mem.1 hone
  rw [Option.or_eq_some_iff] at h
  obtain haccessor | ⟨_, hcontrol⟩ := h
  · unfold accessorWord? at haccessor
    split at haccessor
    · next found rest hk =>
      obtain rfl : found = word := by
        split at haccessor <;> simp_all
      exact .inl (hkeyword hk)
    · cases haccessor
  · obtain ⟨⟨found, rest⟩, hk, rfl⟩ := Option.map_eq_some_iff.1 hcontrol
    exact .inr (hkeyword hk)

theorem symbolKind?_eq_none {text : Text} {start : ControlStart} (h : parse? text = some start) :
    start.block.symbolKind? = none := by
  unfold parse? at h
  split at h
  · next word hword =>
    obtain ⟨block, hblock, hstart⟩ := Option.map_eq_some_iff.1 h
    have hkind := words_symbolKind? _ (Block.folded_mem_words hblock) (folded_mem_of_word hword)
    split at hstart
    · have hif : (ofIf text).block = .ifThen := by
        unfold ofIf
        split <;> rfl
      rw [← hstart, hif]
      rfl
    · rw [← hstart]
      exact hkind
  · cases h

end ControlStart

namespace BlockAt

/-- A block that the outline with the given open blocks does not see. -/
def IsHidden (seen : List BlockAt) (block : Block) : Prop :=
  block.symbolKind? = none ∨
    (enclosing seen = some .interfaceType ∧ block ∈ [.sub, .function, .property])

/-- The blocks `seen` are the blocks `all` without the hidden ones. -/
inductive Hides : List BlockAt → List BlockAt → Prop where
  | nil : Hides [] []
  | shared {seen all : List BlockAt} (b : BlockAt) (hkind : b.1.symbolKind?.isSome)
      (h : Hides seen all) : Hides (b :: seen) (b :: all)
  | hidden {seen all : List BlockAt} (b : BlockAt) (hhidden : IsHidden seen b.1)
      (h : Hides seen all) : Hides seen (b :: all)

theorem IsHidden.ne_region {seen : List BlockAt} {block : Block} (h : IsHidden seen block) :
    block ≠ .region := by
  rintro rfl
  simp [IsHidden, Block.symbolKind?] at h

theorem IsHidden.ne_interfaceType {seen : List BlockAt} {block : Block} (h : IsHidden seen block) :
    block ≠ .interfaceType := by
  rintro rfl
  simp [IsHidden, Block.symbolKind?] at h

namespace Hides

variable {seen all : List BlockAt}

theorem sublist (h : Hides seen all) : seen.Sublist all := by
  induction h with
  | nil => exact .slnil
  | shared b _ _ ih => exact ih.cons_cons b
  | hidden b _ _ ih => exact ih.cons b

theorem symbolKind?_isSome (h : Hides seen all) : ∀ b ∈ seen, b.1.symbolKind?.isSome := by
  induction h with
  | nil => simp
  | shared b hkind _ ih => exact List.forall_mem_cons.2 ⟨hkind, ih⟩
  | hidden _ _ _ ih => exact ih

/-- What stands in an interface does so for the outline as well. -/
theorem enclosing_interface (h : Hides seen all) (hall : enclosing all = some .interfaceType) :
    enclosing seen = some .interfaceType := by
  induction h with
  | nil => exact hall
  | shared b _ _ ih =>
    by_cases hregion : b.1 = .region
    · rw [enclosing_cons_region hregion] at hall ⊢
      exact ih hall
    · rwa [enclosing_cons_of_ne hregion] at hall ⊢
  | hidden b hhidden _ _ =>
    rw [enclosing_cons_of_ne hhidden.ne_region, Option.some.injEq] at hall
    exact absurd hall hhidden.ne_interfaceType

/-- The closing statement of a hidden block does not fit the innermost block of the outline. -/
theorem head_ne (h : Hides seen all) {block : Block} (hhidden : IsHidden seen block) :
    seen.head?.map Prod.fst ≠ some block := by
  intro hhead
  obtain ⟨b, hb, rfl⟩ := Option.map_eq_some_iff.1 hhead
  obtain hkind | ⟨haround, hmember⟩ := hhidden
  · have hsome := h.symbolKind?_isSome b (List.mem_of_mem_head? hb)
    rw [hkind] at hsome
    cases hsome
  · obtain ⟨rest, rfl⟩ := List.head?_eq_some_iff.1 hb
    rw [enclosing_cons_of_ne (by rintro hregion; simp [hregion] at hmember),
      Option.some.injEq] at haround
    simp [haround] at hmember

end Hides

/-- What a line with number `i` does to the blocks that the outline sees and to all blocks. -/
inductive Move (i : Nat) : List BlockAt → List BlockAt → List BlockAt → List BlockAt → Prop where
  | stay {seen all : List BlockAt} : Move i seen all seen all
  | openShared {seen all : List BlockAt} (block : Block) (hkind : block.symbolKind?.isSome) :
      Move i seen all ((block, i) :: seen) ((block, i) :: all)
  | openHidden {seen all : List BlockAt} (block : Block) (hhidden : IsHidden seen block) :
      Move i seen all seen ((block, i) :: all)
  | closeShared {seen all : List BlockAt} (b : BlockAt) (h : Hides seen all) :
      Move i (b :: seen) (b :: all) seen all
  | closeHidden {seen all : List BlockAt} (b : BlockAt) (h : Hides seen all) :
      Move i seen (b :: all) seen all

/-- What a line opens in the outline, which sees the given blocks, and what it opens altogether. -/
inductive Opening (seen : List BlockAt) : Option Block → Option Block → Prop where
  | none : Opening seen none none
  | shared (block : Block) (hkind : block.symbolKind?.isSome) :
      Opening seen (some block) (some block)
  | hidden (block : Block) (hhidden : IsHidden seen block) : Opening seen Option.none (some block)

/-- Later blocks come first, and all of them were opened before line `i`. -/
def Recent (i : Nat) (all : List BlockAt) : Prop :=
  (∀ b ∈ all, b.2 < i) ∧ all.Pairwise fun a b ↦ b.2 < a.2

theorem Recent.mono {i j : Nat} {all : List BlockAt} (h : Recent i all) (hij : i ≤ j) :
    Recent j all :=
  ⟨fun b hb ↦ (h.1 b hb).trans_le hij, h.2⟩

namespace Move

variable {i : Nat} {seen all seen' all' : List BlockAt}

theorem hides (hmove : Move i seen all seen' all') (h : Hides seen all) : Hides seen' all' := by
  cases hmove with
  | stay => exact h
  | openShared block hkind => exact .shared (block, i) hkind h
  | openHidden block hhidden => exact .hidden (block, i) hhidden h
  | closeShared _ hrest | closeHidden _ hrest => exact hrest

theorem recent (hmove : Move i seen all seen' all') (h : Recent i all) : Recent (i + 1) all' := by
  obtain ⟨hbefore, hsorted⟩ := h
  have hlater : ∀ b ∈ all, b.2 < i + 1 := fun b hb ↦ Nat.lt_succ_of_lt (hbefore b hb)
  cases hmove with
  | stay => exact ⟨hlater, hsorted⟩
  | openShared block _ | openHidden block _ =>
    exact ⟨List.forall_mem_cons.2 ⟨Nat.lt_succ_self i, hlater⟩,
      List.pairwise_cons.2 ⟨hbefore, hsorted⟩⟩
  | closeShared b _ | closeHidden b _ =>
    exact ⟨(List.forall_mem_cons.1 hlater).2, (List.pairwise_cons.1 hsorted).2⟩

/-- A block that the outline opens is opened on the same line in both. -/
theorem opened (hmove : Move i seen all seen' all') (h : Recent i all) {b : BlockAt}
    (hb : b ∈ seen') (hnew : b ∉ seen) : b.2 = i ∧ b ∈ all' ∧ b ∉ all := by
  cases hmove with
  | stay => exact absurd hb hnew
  | openShared block hkind =>
    obtain rfl | hb := List.mem_cons.1 hb
    · exact ⟨rfl, List.mem_cons_self, fun hmem ↦ (h.1 _ hmem).ne rfl⟩
    · exact absurd hb hnew
  | openHidden block hhidden => exact absurd hb hnew
  | closeShared c _ => exact absurd (List.mem_cons_of_mem c hb) hnew
  | closeHidden c _ => exact absurd hb hnew

/-- A block of the outline is closed on the same line in both. -/
theorem closed_iff (hmove : Move i seen all seen' all') (h : Recent i all) (hhides : Hides seen all)
    {b : BlockAt} (hb : b ∈ seen) : b ∉ seen' ↔ b ∉ all' := by
  have hsublist := (hmove.hides hhides).sublist
  constructor
  · intro hgone hmem
    cases hmove with
    | stay => exact hgone hb
    | openShared block hkind => exact hgone (List.mem_cons_of_mem _ hb)
    | openHidden block hhidden => exact hgone hb
    | closeShared c _ =>
      obtain rfl | hb := List.mem_cons.1 hb
      · exact ((List.pairwise_cons.1 h.2).1 b hmem).ne rfl
      · exact hgone hb
    | closeHidden c _ => exact hgone hb
  · intro hgone hmem
    apply hgone
    exact hsublist.subset hmem

end Move

end BlockAt

/-! ## The steps of the outline -/

namespace Outline

open Check

def blocks (o : Outline) : List BlockAt :=
  o.stack.map fun b ↦ (b.block, b.symbol.range.start.line)

theorem enclosing_eq (o : Outline) : o.enclosing = BlockAt.enclosing o.blocks := by
  rw [enclosing, BlockAt.enclosing, blocks, List.find?_map, Option.map_map]
  rfl

theorem blocks_foldl_add (o : Outline) (symbols : List Symbol) :
    (symbols.foldl add o).blocks = o.blocks := by
  obtain ⟨_ | ⟨b, rest⟩, roots⟩ := o
  · rw [foldl_add_nil]
    rfl
  · rw [foldl_add_cons]
    rfl

theorem blocks_step_of_closed?_eq_some (o : Outline) {line : SourceLine} {block : Block}
    (h : closed? line = some block) :
    (o.step line).blocks =
      if o.blocks.head?.map Prod.fst = some block then o.blocks.tail else o.blocks := by
  obtain ⟨e, hs, rfl⟩ := (closed?_eq_some_iff line block).1 h
  have hstep : o.step line = o.close e.block line.stop := by simp [step, hs]
  have hhead : o.blocks.head?.map Prod.fst = o.stack.head?.map OpenBlock.block := by
    rw [blocks, List.head?_map, Option.map_map]
    rfl
  rw [hstep, hhead]
  obtain ⟨hother, hclose⟩ | ⟨b, rest, hstack, hblock, hclose⟩ := close_cases o e.block line.stop
  · rw [hclose, if_neg hother]
  · have htail : o.blocks.tail = blocks ⟨rest, o.roots⟩ := by simp [blocks, hstack]
    rw [hclose, if_pos (by simp [hstack, hblock]), htail]
    exact blocks_foldl_add ⟨rest, o.roots⟩ [b.close line.stop]

theorem blocks_step_of_closed?_eq_none (o : Outline) {line : SourceLine} (h : closed? line = none) :
    (o.step line).blocks = ((o.opened? line).map fun b ↦ (b, line.index)).toList ++ o.blocks := by
  obtain ⟨e, hs, _⟩ | ⟨_, hopened, hstep⟩ | ⟨block, s, hopened, hcreated, hstep⟩ :=
    step_cases o line
  · simp [closed?, hs] at h
  · rw [hstep, hopened, blocks_foldl_add]
    rfl
  · have hmem : s ∈ o.created line := by simp [hcreated]
    have hrange := (shape_of_mem_created hmem).1
    rw [hstep, hopened, blocks, push, List.map_cons, hrange]
    rfl

end Outline

/-- Whether a header opens a block depends on an interface around it for three kinds only. -/
theorem Header.opensBlock_eq_true {h : Header} (hblock : h.block ∉ [.sub, .function, .property])
    (insideInterface : Bool) (next : Option Text) : h.opensBlock insideInterface next = true := by
  unfold opensBlock
  split <;> simp_all

theorem Header.opensBlock_interface {h : Header} (hblock : h.block ∈ [.sub, .function, .property])
    (next : Option Text) : h.opensBlock true next = false := by
  unfold opensBlock
  split <;> simp_all

namespace Outline

open Check BlockAt

section

variable {rows : List Text} {line : SourceLine} {o : Outline} {all all' : List BlockAt}

/-- A closing statement that fits the innermost of all blocks. -/
theorem move_of_closed?_eq_some {block : Block} (hclosed : closed? line = some block)
    (h : Hides o.blocks all) (hadvance : advance? all line = some all') :
    Move line.index o.blocks all (o.step line).blocks all' := by
  rw [blocks_step_of_closed?_eq_some o hclosed]
  simp only [advance?, hclosed, Option.ite_none_right_eq_some, Option.some.injEq] at hadvance
  obtain ⟨hhead, rfl⟩ := hadvance
  generalize o.blocks = seen at h ⊢
  cases h with
  | nil => cases hhead
  | shared b hkind h =>
    obtain rfl : b.1 = block := by simpa using hhead
    rw [if_pos (by simp)]
    exact .closeShared b h
  | hidden b hhidden h =>
    obtain rfl : b.1 = block := by simpa using hhead
    rw [if_neg (h.head_ne hhidden)]
    exact .closeHidden b h

/-- A header opens a block in both, only for the checks, or in none of them. -/
theorem opening_header (h : Hides o.blocks all) {header : Header}
    (hs : line.statement = some (.header header)) :
    Opening o.blocks (o.opened? line) (Check.opened? (BlockAt.enclosing all) line) := by
  simp only [opened?, Check.opened?, hs, enclosing_eq]
  by_cases hmember : header.block ∈ [.sub, .function, .property]
  · have hkind : header.block.symbolKind?.isSome := by
      revert hmember
      generalize header.block = block
      revert block
      decide
    by_cases hin : BlockAt.enclosing o.blocks = some .interfaceType
    · -- nothing is opened in the outline, and what the checks open is hidden
      rw [hin, beq_self_eq_true, Header.opensBlock_interface hmember, Bool.and_false,
        if_neg Bool.false_ne_true]
      split
      · exact .hidden header.block (.inr ⟨hin, hmember⟩)
      · exact .none
    · have hout : BlockAt.enclosing all ≠ some .interfaceType := mt h.enclosing_interface hin
      rw [beq_eq_false_iff_ne.2 hin, beq_eq_false_iff_ne.2 hout, hkind, Bool.true_and]
      split
      · exact .shared header.block hkind
      · exact .none
  · have hopens := Header.opensBlock_eq_true hmember
    rw [hopens, hopens, Bool.and_true, if_pos rfl]
    cases hkind : header.block.symbolKind? with
    | none => exact .hidden header.block (.inl hkind)
    | some kind => exact .shared header.block (by simp [hkind])

/-- What a line opens in the outline it opens for the checks, and anything else that it opens there
is hidden. -/
theorem opening_line (hread : line.ReadIn rows) (h : Hides o.blocks all) :
    Opening o.blocks (o.opened? line) (Check.opened? (BlockAt.enclosing all) line) := by
  cases hs : line.statement with
  | none =>
    simp only [opened?, Check.opened?, hs]
    exact .none
  | some s =>
    cases s with
    | header header => exact opening_header h hs
    | region p =>
      simp only [opened?, Check.opened?, hs]
      exact .shared .region rfl
    | control c =>
      have hkind := ControlStart.symbolKind?_eq_none (hread.readFrom hs)
      simp only [opened?, Check.opened?, hs]
      split
      · exact .none
      · exact .hidden c.block (.inl hkind)
    | blank | blockEnd | imports | implements | branch | declaration | plain =>
      simp only [opened?, Check.opened?, hs]
      exact .none

/-- One line of a balanced document keeps the two stacks aligned. -/
theorem move_step (hread : line.ReadIn rows) (h : Hides o.blocks all)
    (hadvance : advance? all line = some all') :
    Move line.index o.blocks all (o.step line).blocks all' := by
  cases hclosed : closed? line with
  | some block => exact move_of_closed?_eq_some hclosed h hadvance
  | none =>
    have hopening := opening_line hread h
    rw [blocks_step_of_closed?_eq_none o hclosed]
    simp only [advance?, hclosed] at hadvance
    generalize o.opened? line = seen? at hopening ⊢
    generalize Check.opened? (BlockAt.enclosing all) line = all? at hopening hadvance
    cases hopening with
    | none =>
      rw [← Option.some.inj hadvance]
      exact .stay
    | shared block hkind =>
      rw [← Option.some.inj hadvance]
      exact .openShared block hkind
    | hidden block hhidden =>
      rw [← Option.some.inj hadvance]
      exact .openHidden block hhidden

end

end Outline

/-! ## Whole documents -/

/-- The outline pass before line `k`. -/
def Outline.before (text : Text) (k : Nat) : Outline :=
  ((SourceLine.readAll (lines text)).take k).foldl step start

/-- The pass over the blocks before line `k`. -/
def Check.Tracker.before (text : Text) (k : Nat) : Tracker :=
  ((SourceLine.readAll (lines text)).take k).foldl track start

namespace Outline

open Check BlockAt

section

variable {text : Text} (h : (SourceLine.readAll (lines text)).foldlM advance? [] = some [])

include h

theorem foldlM_take (k : Nat) :
    ((SourceLine.readAll (lines text)).take k).foldlM advance? [] =
      some (Tracker.before text k).blocks := by
  obtain ⟨hblocks, _⟩ | ⟨hnone, _⟩ :=
    states_spec 0 .start ((SourceLine.readAll (lines text)).take k)
  · exact hblocks.symm
  · change List.foldlM advance? [] _ = none at hnone
    rw [← List.take_append_drop k (SourceLine.readAll (lines text)), List.foldlM_append, hnone] at h
    cases h

theorem move_before (k : Nat) (hhides : Hides (before text k).blocks (Tracker.before text k).blocks) :
    Move k (before text k).blocks (Tracker.before text k).blocks
      (before text (k + 1)).blocks (Tracker.before text (k + 1)).blocks := by
  cases hline : (SourceLine.readAll (lines text))[k]? with
  | none =>
    have htake : (SourceLine.readAll (lines text)).take (k + 1) =
        (SourceLine.readAll (lines text)).take k := by
      rw [List.take_add_one, hline]
      simp
    rw [before, before, Tracker.before, Tracker.before, htake]
    exact .stay
  | some line =>
    have htake : (SourceLine.readAll (lines text)).take (k + 1) =
        (SourceLine.readAll (lines text)).take k ++ [line] := by
      rw [List.take_add_one, hline]
      rfl
    have hstep : before text (k + 1) = (before text k).step line := by
      rw [before, htake, List.foldl_concat]
      rfl
    have hadvance : advance? (Tracker.before text k).blocks line =
        some (Tracker.before text (k + 1)).blocks := by
      have hnext := foldlM_take h (k + 1)
      rw [htake, List.foldlM_append, foldlM_take h k] at hnext
      simpa using hnext
    obtain rfl := SourceLine.index_of_getElem?_readAll hline
    rw [hstep]
    exact move_step (SourceLine.readIn_of_mem (List.mem_of_getElem? hline)) hhides hadvance

/-- The two stacks are aligned before every line of a balanced document. -/
theorem aligned_before (k : Nat) :
    Hides (before text k).blocks (Tracker.before text k).blocks ∧
      Recent k (Tracker.before text k).blocks := by
  induction k with
  | zero => exact ⟨.nil, by simp [Tracker.before, Tracker.blocks, Tracker.start], .nil⟩
  | succ k ih =>
    have hmove := move_before h k ih.1
    exact ⟨hmove.hides ih.1, hmove.recent ih.2⟩

end

/-- If the checks find a document balanced, the open blocks of the outline are among the open blocks
of the checks before every line and at the end. A block that the outline opens is opened on that
line for the checks, and both close it on the same line. So the outline has no open block at the end,
and its symbols do not depend on where the document ends. -/
theorem follows_tracker (limit : Nat) (text : Text) (others : List DocumentOutline)
    (h : ∀ d ∈ validate ⟨limit, []⟩ text others, d.code ∉ balanceCodes) :
    (∀ k, (before text k).blocks.Sublist (Tracker.before text k).blocks) ∧
    (∀ k, ∀ b ∈ (before text (k + 1)).blocks, b ∉ (before text k).blocks →
      b.2 = k ∧ b ∈ (Tracker.before text (k + 1)).blocks ∧ b ∉ (Tracker.before text k).blocks) ∧
    (∀ k, ∀ b ∈ (before text k).blocks,
      (b ∉ (before text (k + 1)).blocks ↔ b ∉ (Tracker.before text (k + 1)).blocks)) ∧
    (before text (lines text).length).stack = [] ∧
    ∀ stop, closeAll stop (before text (lines text).length).stack
      (before text (lines text).length).roots = ofText text := by
  rw [no_balanceCodes_iff] at h
  have hall : (SourceLine.readAll (lines text)).take (lines text).length =
      SourceLine.readAll (lines text) := by
    rw [← SourceLine.length_readAll, List.take_length]
  have hempty : (before text (lines text).length).stack = [] := by
    have hsublist := (aligned_before h (lines text).length).1.sublist
    have hrun := foldlM_take h (lines text).length
    rw [hall, h, Option.some.injEq] at hrun
    rw [← hrun, List.sublist_nil] at hsublist
    exact List.map_eq_nil_iff.1 hsublist
  refine ⟨?_, ?_, ?_, hempty, ?_⟩
  · intro k
    exact (aligned_before h k).1.sublist
  · intro k b hb hnew
    obtain ⟨hhides, hrecent⟩ := aligned_before h k
    exact (move_before h k hhides).opened hrecent hb hnew
  · intro k b hb
    obtain ⟨hhides, hrecent⟩ := aligned_before h k
    exact (move_before h k hhides).closed_iff hrecent hhides hb
  · intro stop
    have hrun : (SourceLine.readAll (lines text)).foldl step start =
        before text (lines text).length := by rw [before, hall]
    rw [ofText, ofLines, finish, hrun, hempty, closeAll, closeAll]

/-- An interface with a control block in it, inside of which the checks see a method. -/
def hiddenMethod : Text :=
  "Interface I\nIf x Then\nSub F()\nEnd Sub\nEnd If\nEnd Interface".toList

theorem follows_tracker_hiddenMethod :
    (∀ d ∈ validate ⟨120, []⟩ hiddenMethod [], d.code ∉ balanceCodes) ∧
    (before hiddenMethod 3).blocks = [(.interfaceType, 0)] ∧
    (Tracker.before hiddenMethod 3).blocks = [(.sub, 2), (.ifThen, 1), (.interfaceType, 0)] ∧
    (before hiddenMethod (lines hiddenMethod).length).stack = [] := by
  have hbalanced : ∀ d ∈ validate ⟨120, []⟩ hiddenMethod [], d.code ∉ balanceCodes := by
    rw [no_balanceCodes_iff]
    decide +kernel
  obtain ⟨_, _, _, hempty, _⟩ := follows_tracker 120 hiddenMethod [] hbalanced
  exact ⟨hbalanced, by decide +kernel, by decide +kernel, hempty⟩

end Outline

end VbOutline
