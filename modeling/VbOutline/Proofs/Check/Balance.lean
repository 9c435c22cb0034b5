import VbOutline.Proofs.Check.Reports
import VbOutline.Proofs.Source.Lines

/-!
# Balance of the blocks

Three of the findings say that the blocks of a document are not balanced. They come from the closing
statements that do not fit the innermost open block, and from the blocks that are open at the end. So
a document has none of them if and only if a pass over its lines, which gives up at such a closing
statement, reaches the end with nothing open. This pass knows an open block only by its kind and by
the line that opened it.
-/

namespace VbOutline

open Text

/-- An open block, given by its kind, and the number of the line that opened it. -/
abbrev BlockAt := Block × Nat

namespace BlockAt

/-- The innermost open block that is not a region. -/
def enclosing (blocks : List BlockAt) : Option Block :=
  (blocks.find? fun b ↦ b.1 != .region).map (·.1)

theorem enclosing_cons_of_ne {b : BlockAt} (h : b.1 ≠ .region) (blocks : List BlockAt) :
    enclosing (b :: blocks) = some b.1 := by
  simp [enclosing, h]

theorem enclosing_cons_region {b : BlockAt} (h : b.1 = .region) (blocks : List BlockAt) :
    enclosing (b :: blocks) = enclosing blocks := by
  simp [enclosing, h]

end BlockAt

/-! ## Findings about balance -/

/-- Whether the finding is about blocks that are not balanced. -/
def Finding.isBalance : Finding → Bool
  | mismatchedBlock _ _ _ | unexpectedClosing _ | missingClosing _ _ => true
  | _ => false

namespace Check

def balanceCodes : List String := ["mismatched-block", "unexpected-closing", "missing-closing"]

theorem code_mem_balanceCodes (d : Diagnostic) : d.code ∈ balanceCodes ↔ d.finding.isBalance := by
  obtain ⟨range, finding⟩ := d
  cases finding <;> simp [Diagnostic.code, Finding.code, balanceCodes, Finding.isBalance]

/-- None of the diagnostics is about balance. -/
def Quiet (ds : List Diagnostic) : Prop := ∀ d ∈ ds, d.finding.isBalance = false

@[simp]
theorem quiet_nil : Quiet [] := by simp [Quiet]

@[simp]
theorem quiet_singleton (d : Diagnostic) : Quiet [d] ↔ d.finding.isBalance = false :=
  List.forall_mem_singleton

@[simp]
theorem quiet_append (left right : List Diagnostic) :
    Quiet (left ++ right) ↔ Quiet left ∧ Quiet right :=
  List.forall_mem_append

theorem CodesIn.quiet {own : List String} {ds : List Diagnostic} (h : CodesIn own ds)
    (hown : ∀ code ∈ own, code ∉ balanceCodes) : Quiet ds := by
  intro d hd
  rw [← Bool.not_eq_true, ← code_mem_balanceCodes]
  exact hown d.code (h d hd)

theorem quiet_emptySegment (frame : Frame) : Quiet (Tracker.emptySegment frame) :=
  (Tracker.codesIn_emptySegment frame).quiet (by simp [balanceCodes])

/-- The checks of single lines do not look at balance. -/
theorem quiet_line (limit : Nat) (around : Surroundings) (line : SourceLine) :
    Quiet (Check.line limit around line) :=
  (codesIn_line limit around line).quiet (by simp [lineCodes, balanceCodes])

/-- The checks of the outline do not look at balance. -/
theorem quiet_unusedVariables (lines : List SourceLine) (forest : List Symbol) :
    Quiet (unusedVariables lines forest) :=
  (codesIn_unusedVariables lines forest).quiet (by simp [balanceCodes])

theorem quiet_missingMembers (forest : List Symbol) (others : List DocumentOutline) :
    Quiet (missingMembers forest others) :=
  (codesIn_missingMembers forest others).quiet (by simp [balanceCodes])

theorem quiet_duplicates (forest : List Symbol) (others : List DocumentOutline) :
    Quiet (duplicates forest others) :=
  (codesIn_duplicates forest others).quiet (by simp [balanceCodes])

/-- Without disabled codes it is the pass over the lines that decides about balance. -/
theorem quiet_validate (limit : Nat) (text : Text) (others : List DocumentOutline) :
    Quiet (validate ⟨limit, []⟩ text others) ↔
      Quiet (walk limit (SourceLine.readAll (lines text))) := by
  have hmem (d : Diagnostic) :
      d ∈ validate ⟨limit, []⟩ text others ↔ d ∈ findings limit text others := by
    rw [validate, sortByStart, List.mem_mergeSort, List.mem_filter]
    simp [Options.isEnabled]
  have hfindings : Quiet (validate ⟨limit, []⟩ text others) ↔
      Quiet (findings limit text others) := by
    simp only [Quiet, hmem]
  rw [hfindings, findings]
  simp [quiet_unusedVariables, quiet_missingMembers, quiet_duplicates]

/-! ## The pass over the open blocks -/

/-- The block that a line opens inside the given block. -/
def opened? (around : Option Block) (line : SourceLine) : Option Block :=
  match line.statement with
  | some (.header h) =>
    if h.opensBlock (around == some .interfaceType) line.next then some h.block else none
  | some (.region _) => some .region
  | some (.control c) => if c.singleLine then none else some c.block
  | _ => none

/-- The block that a line closes. -/
def closed? (line : SourceLine) : Option Block :=
  match line.statement with
  | some (.blockEnd e) => some e.block
  | _ => none

theorem closed?_eq_some_iff (line : SourceLine) (block : Block) :
    closed? line = some block ↔ ∃ e, line.statement = some (.blockEnd e) ∧ e.block = block := by
  cases hs : line.statement with
  | none => simp [closed?, hs]
  | some s => cases s <;> simp [closed?, hs]

/-- The open blocks after one more line, unless it closes a block that is not the innermost one. -/
def advance? (blocks : List BlockAt) (line : SourceLine) : Option (List BlockAt) :=
  match closed? line with
  | some block => if blocks.head?.map Prod.fst = some block then some blocks.tail else none
  | none =>
    match opened? (BlockAt.enclosing blocks) line with
    | some block => some ((block, line.index) :: blocks)
    | none => some blocks

namespace Tracker

def blocks (t : Tracker) : List BlockAt := t.stack.map fun f ↦ (f.block, f.line.index)

theorem enclosing_eq (t : Tracker) : t.enclosing = BlockAt.enclosing t.blocks := by
  rw [enclosing, BlockAt.enclosing, blocks, List.find?_map, Option.map_map]
  rfl

/-- The open blocks with the lines that opened them, the innermost one first. -/
def openings (t : Tracker) : List (Block × SourceLine) := t.stack.map fun f ↦ (f.block, f.line)

theorem blocks_eq (t : Tracker) : t.blocks = t.openings.map fun o ↦ (o.1, o.2.index) := by
  rw [openings, List.map_map]
  rfl

@[simp]
theorem openings_setDead (t : Tracker) (dead : Bool) : (t.setDead dead).openings = t.openings := by
  obtain ⟨_ | _, _⟩ := t <;> rfl

@[simp]
theorem openings_markContent (t : Tracker) : t.markContent.openings = t.openings := by
  obtain ⟨_ | _, _⟩ := t <;> rfl

@[simp]
theorem openings_push (t : Tracker) (block : Block) (line : SourceLine) :
    (t.push block line).openings = (block, line) :: t.openings := by
  rw [← openings_setDead t false]
  rfl

@[simp]
theorem openings_branch (t : Tracker) (line : SourceLine) (b : Branch) :
    (t.branch line b).1.openings = t.openings := by
  unfold branch
  split
  · rfl
  · next frame rest hstack =>
    split
    · simp [openings, hstack]
    · rfl

@[simp]
theorem openings_simple (t : Tracker) (line : SourceLine) (leaves : Bool) :
    (t.simple line leaves).1.openings = t.openings := by
  cases leaves <;> simp [simple]

theorem quiet_branch (t : Tracker) (line : SourceLine) (b : Branch) :
    Quiet (t.branch line b).2 :=
  (t.codesIn_branch line b).quiet (by simp [balanceCodes])

theorem quiet_simple (t : Tracker) (line : SourceLine) (leaves : Bool) :
    Quiet (t.simple line leaves).2 :=
  (t.codesIn_simple line leaves).quiet (by simp [balanceCodes])

/-- A line that closes no block adds the block that it opens. -/
theorem openings_step_of_closed?_eq_none (t : Tracker) {line : SourceLine} (h : closed? line = none) :
    (t.step line).1.openings =
        ((opened? t.enclosing line).map fun block ↦ (block, line)).toList ++ t.openings ∧
      Quiet (t.step line).2 := by
  cases hs : line.statement with
  | none => simp [step, opened?, hs]
  | some s =>
    cases s with
    | blockEnd e => simp [closed?, hs] at h
    | header h =>
      have haround : t.markContent.enclosing = t.enclosing := by simp [enclosing_eq, blocks_eq]
      simp only [step, opened?, hs, haround]
      split <;> simp
    | control c =>
      simp only [step, opened?, hs]
      split <;> simp [quiet_simple]
    | region => simp [step, opened?, hs]
    | blank => simp [step, opened?, hs]
    | branch => simp [step, opened?, hs, quiet_branch]
    | imports | implements | declaration | plain => simp [step, opened?, hs, quiet_simple]

/-- A line that does not close a block changes the open blocks as `advance?` tells. -/
theorem step_of_closed?_eq_none (t : Tracker) {line : SourceLine} (h : closed? line = none) :
    some (t.step line).1.blocks = advance? t.blocks line ∧ Quiet (t.step line).2 := by
  obtain ⟨hopenings, hquiet⟩ := t.openings_step_of_closed?_eq_none h
  refine ⟨?_, hquiet⟩
  rw [advance?, h, ← t.enclosing_eq, blocks_eq, hopenings, blocks_eq]
  cases opened? t.enclosing line <;> rfl

/-- A closing statement is reported if and only if it does not fit the innermost block. -/
theorem step_of_closed?_eq_some (t : Tracker) {line : SourceLine} {block : Block}
    (h : closed? line = some block) :
    (some (t.step line).1.blocks = advance? t.blocks line ∧ Quiet (t.step line).2) ∨
      (advance? t.blocks line = none ∧ ¬ Quiet (t.step line).2) := by
  obtain ⟨e, hs, rfl⟩ := (closed?_eq_some_iff line block).1 h
  rw [advance?, h, step, hs]
  obtain ⟨stack, dead⟩ := t
  cases stack with
  | nil => exact .inr ⟨rfl, by simp [close, Finding.isBalance]⟩
  | cons frame rest =>
    by_cases hblock : frame.block = e.block
    · refine .inl ⟨?_, ?_⟩
      · have hrest := openings_setDead ⟨rest, dead⟩ false
        simp only [close, beq_iff_eq, hblock, if_pos, blocks_eq, hrest]
        simp [openings, hblock]
      · simp [close, hblock, quiet_emptySegment]
    · exact .inr ⟨by simp [blocks, hblock], by simp [close, hblock, Finding.isBalance]⟩

theorem quiet_finish (t : Tracker) : Quiet t.finish ↔ t.blocks = [] := by
  obtain ⟨stack, dead⟩ := t
  cases stack with
  | nil => simp [finish, blocks]
  | cons frame rest => simp [finish, blocks, Finding.isBalance]

end Tracker

/-- What one line does to the open blocks, and what is reported at it. -/
theorem atLine_spec (limit : Nat) (t : Tracker) (line : SourceLine) :
    (some (track t line).blocks = advance? t.blocks line ∧ Quiet (atLine limit t line)) ∨
      (advance? t.blocks line = none ∧ ¬ Quiet (atLine limit t line)) := by
  simp only [atLine, track, quiet_append, quiet_line, true_and]
  cases h : closed? line with
  | none => exact .inl (t.step_of_closed?_eq_none h)
  | some block => exact t.step_of_closed?_eq_some h

/-- What a run over lines does to the open blocks, and what is reported on the way. -/
theorem states_spec (limit : Nat) (t : Tracker) (lines : List SourceLine) :
    (some (lines.foldl track t).blocks = lines.foldlM advance? t.blocks ∧
      Quiet ((states track t lines).flatMap fun (t, line) ↦ atLine limit t line)) ∨
    (lines.foldlM advance? t.blocks = none ∧
      ¬ Quiet ((states track t lines).flatMap fun (t, line) ↦ atLine limit t line)) := by
  induction lines generalizing t with
  | nil => exact .inl ⟨rfl, quiet_nil⟩
  | cons line lines ih =>
    rw [List.foldlM_cons, List.foldl_cons, states_cons, List.flatMap_cons, quiet_append]
    obtain ⟨hblocks, hquiet⟩ | ⟨hblocks, hquiet⟩ := atLine_spec limit t line
    · simpa [← hblocks, hquiet] using ih (track t line)
    · exact .inr ⟨by simp [hblocks], fun h ↦ hquiet h.1⟩

/-- A document is reported as balanced if and only if the pass over its open blocks does not stop
before the end, and nothing is open there. -/
theorem no_balanceCodes_iff (limit : Nat) (text : Text) (others : List DocumentOutline) :
    (∀ d ∈ validate ⟨limit, []⟩ text others, d.code ∉ balanceCodes) ↔
      (SourceLine.readAll (lines text)).foldlM advance? [] = some [] := by
  have hcodes : (∀ d ∈ validate ⟨limit, []⟩ text others, d.code ∉ balanceCodes) ↔
      Quiet (validate ⟨limit, []⟩ text others) := by
    simp [Quiet, code_mem_balanceCodes]
  rw [hcodes, quiet_validate, walk, quiet_append, Tracker.quiet_finish]
  obtain ⟨hblocks, hquiet⟩ | ⟨hblocks, hquiet⟩ :=
    states_spec limit .start (SourceLine.readAll (lines text))
  · change _ = List.foldlM advance? [] _ at hblocks
    rw [← hblocks, Option.some.injEq]
    exact and_iff_right hquiet
  · change List.foldlM advance? [] _ = none at hblocks
    rw [hblocks]
    simp [hquiet]

end Check

end VbOutline
