import VbOutline.Proofs.Check.Turns

/-!
# Segments that end empty

What is reported about empty blocks depends on little of the stack: on the open blocks that are no
regions, and for each of them on what would be reported if its segment ended now. This is enough to
go on from one line to the next, provided that no region stands directly inside a control block.
There a statement inside the region would count as content of the region and not of the block.
-/

namespace VbOutline.Check

open Text SourceLine

/-- The open blocks that are no regions, the innermost one first, each with what is reported if its
segment ends now. -/
abbrev Pending := List (Block × List Diagnostic)

namespace Pending

/-- The segment of the innermost block has content. -/
def fill : Pending → Pending
  | [] => []
  | (block, _) :: rest => (block, []) :: rest

/-- What is reported if the first segment of a block ends without content. -/
def fresh (block : Block) (line : SourceLine) : List Diagnostic :=
  if block.isControl && block != .selectCase then
    [⟨line.codeSpan, .emptyBlock block.keyword false⟩]
  else []

/-- A branch ends the segment of the innermost block and begins the next one. -/
def branch (line : SourceLine) (b : Branch) : Pending → Pending × List Diagnostic
  | [] => ([], [])
  | (block, ended) :: rest =>
    if block.isControl then
      ((block, [⟨line.codeSpan, .emptyBlock b.keyword true⟩]) :: rest, ended)
    else ((block, ended) :: rest, [])

/-- The open blocks after one more line, and what is reported about empty segments at it. -/
def step (pending : Pending) (line : SourceLine) : Pending × List Diagnostic :=
  match line.statement with
  | none | some .blank | some (.region _) => (pending, [])
  | some (.blockEnd e) =>
    if e.block = .region then (pending, [])
    else (pending.tail, (pending.head?.map Prod.snd).getD [])
  | some (.branch b) => pending.branch line b
  | some _ =>
    match opened? (pending.head?.map Prod.fst) line with
    | some block => ((block, fresh block line) :: pending.fill, [])
    | none => (pending.fill, [])

/-- Content fills the segment of the innermost block, and it may open another block. -/
theorem step_of_fills {line : SourceLine} (h : fills line) (pending : Pending) :
    pending.step line =
      match opened? (pending.head?.map Prod.fst) line with
      | some block => ((block, fresh block line) :: pending.fill, [])
      | none => (pending.fill, []) := by
  cases hs : line.statement with
  | none => simp [fills, hs] at h
  | some statement =>
    cases statement with
    | blank | region | branch | blockEnd => simp [fills, hs] at h
    | _ => simp only [step, hs]

theorem branch_eq_self {pending : Pending}
    (h : (pending.head?.map Prod.fst).any Block.isControl = false) (line : SourceLine)
    (b : Branch) : pending.branch line b = (pending, []) := by
  cases pending with
  | nil => rfl
  | cons p rest =>
    rw [List.head?_cons, Option.map_some, Option.any_some] at h
    rw [branch, h, if_neg Bool.false_ne_true]

/-- What is reported about empty segments on the way over lines. -/
def reports (pending : Pending) (lines : List SourceLine) : List Diagnostic :=
  (states (fun pending line ↦ (step pending line).1) pending lines).flatMap fun p ↦ (step p.1 p.2).2

theorem reports_cons (pending : Pending) (line : SourceLine) (lines : List SourceLine) :
    pending.reports (line :: lines) =
      (pending.step line).2 ++ (pending.step line).1.reports lines := by
  rw [reports, states_cons, List.flatMap_cons]
  rfl

end Pending

/-! ## The open blocks of the pass -/

theorem emptySegment_of_not_isControl {frame : Frame} (h : frame.block.isControl = false) :
    Tracker.emptySegment frame = [] := by
  simp [Tracker.emptySegment, h]

theorem withCodes_emptySegment (frame : Frame) :
    withCodes ["empty-block"] (Tracker.emptySegment frame) = Tracker.emptySegment frame :=
  (Tracker.codesIn_emptySegment frame).withCodes_eq_self (List.Subset.refl _)

namespace Tracker

def pending (t : Tracker) : Pending :=
  (t.stack.filter fun f ↦ f.block != .region).map fun f ↦ (f.block, emptySegment f)

theorem enclosing_eq_pending (t : Tracker) : t.enclosing = t.pending.head?.map Prod.fst := by
  rw [enclosing, pending, List.head?_map, List.head?_filter, Option.map_map]
  rfl

/-- If the innermost block is a region, it does not stand directly inside a control block. -/
def TopApart (t : Tracker) : Prop :=
  t.stack.head?.map Frame.block = some .region → t.enclosing.any Block.isControl = false

theorem pending_of_region {f : Frame} (h : f.block = .region) (rest : List Frame)
    (dead : Bool) : pending ⟨f :: rest, dead⟩ = pending ⟨rest, dead⟩ := by
  rw [pending, List.filter_cons_of_neg (by simp [h])]
  rfl

theorem pending_of_ne_region {f : Frame} (h : f.block ≠ .region) (rest : List Frame)
    (dead : Bool) :
    pending ⟨f :: rest, dead⟩ = (f.block, emptySegment f) :: pending ⟨rest, dead⟩ := by
  rw [pending, List.filter_cons_of_pos (by simp [h])]
  rfl

@[simp]
theorem pending_setDead (t : Tracker) (dead : Bool) : (t.setDead dead).pending = t.pending := by
  obtain ⟨_ | ⟨frame, rest⟩, isDead⟩ := t
  · rfl
  · by_cases hregion : frame.block = .region
    · rw [pending_of_region hregion]
      exact pending_of_region (f := { frame with isDead := dead }) hregion rest isDead
    · rw [pending_of_ne_region hregion]
      exact pending_of_ne_region (f := { frame with isDead := dead }) hregion rest isDead

/-- Nothing is pending for a block that is no control block. -/
theorem fill_pending {t : Tracker} (h : t.enclosing.any Block.isControl = false) :
    t.pending.fill = t.pending := by
  rw [enclosing_eq_pending] at h
  cases hpending : t.pending with
  | nil => rfl
  | cons p rest =>
    have hmem : p ∈ t.pending := by simp [hpending]
    obtain ⟨frame, _, rfl⟩ := List.mem_map.1 hmem
    rw [hpending] at h
    rw [Pending.fill, emptySegment_of_not_isControl h]

theorem pending_markContent {t : Tracker} (h : t.TopApart) :
    t.markContent.pending = t.pending.fill := by
  obtain ⟨_ | ⟨frame, rest⟩, dead⟩ := t
  · rfl
  · let marked : Frame := { frame with segment := { frame.segment with hasContent := true } }
    change pending ⟨marked :: rest, dead⟩ = _
    by_cases hregion : frame.block = .region
    · -- nothing is pending for the block around the region, so there is nothing to fill
      rw [fill_pending (h (by rw [List.head?_cons, Option.map_some, hregion])),
        pending_of_region (f := marked) hregion, pending_of_region hregion]
    · have hmarked : emptySegment marked = [] := by simp [emptySegment, marked]
      rw [pending_of_ne_region (f := marked) hregion, pending_of_ne_region hregion, hmarked]
      rfl

theorem pending_push (t : Tracker) {block : Block} (h : block ≠ .region) (line : SourceLine) :
    (t.push block line).pending = (block, Pending.fresh block line) :: t.pending := by
  rw [← pending_setDead t false]
  refine (pending_of_ne_region h _ _).trans ?_
  congr 2
  simp only [emptySegment, Pending.fresh, Bool.not_false, Bool.and_true]
  rfl

theorem pending_push_region (t : Tracker) (line : SourceLine) :
    (t.push .region line).pending = t.pending := by
  rw [← pending_setDead t false]
  exact pending_of_region rfl _ _

theorem isControl_enclosing {t : Tracker} (h : t.TopApart)
    (houtside : ∀ frame ∈ t.stack.head?, frame.block.isControl = false) :
    t.enclosing.any Block.isControl = false := by
  obtain ⟨_ | ⟨frame, rest⟩, dead⟩ := t
  · rfl
  · by_cases hregion : frame.block = .region
    · exact h (by rw [List.head?_cons, Option.map_some, hregion])
    · rw [enclosing_eq_pending, pending_of_ne_region hregion]
      exact houtside frame rfl

theorem pending_simple {t : Tracker} (h : t.TopApart) (line : SourceLine) (leaves : Bool) :
    ((t.simple line leaves).1.pending, withCodes ["empty-block"] (t.simple line leaves).2) =
      (t.pending.fill, []) := by
  have hpending : (t.simple line leaves).1.pending = t.pending.fill := by
    cases leaves <;> simp [simple, pending_markContent h]
  rw [hpending, (t.codesIn_simple line leaves).withCodes_eq_nil (by simp)]

/-- The end of the innermost block ends its segment. -/
theorem pending_closes {t : Tracker} {line : SourceLine} {frame : Frame} {rest : List Frame}
    (hstack : t.stack = frame :: rest) (hclosed : closed? line = some frame.block) :
    (({ t with stack := rest }.setDead false).pending,
        withCodes ["empty-block"] (emptySegment frame)) = t.pending.step line := by
  obtain ⟨e, hs, hblock⟩ := (closed?_eq_some_iff line _).1 hclosed
  obtain ⟨_, dead⟩ := t
  subst hstack
  rw [withCodes_emptySegment, pending_setDead]
  simp only [Pending.step, hs, hblock]
  split
  · next hregion =>
    rw [pending_of_region hregion, emptySegment_of_not_isControl (by rw [hregion]; rfl)]
  · next hregion =>
    rw [pending_of_ne_region hregion]
    rfl

/-- A branch ends the segment of the innermost block and begins another one. -/
theorem pending_branches {t : Tracker} {line : SourceLine} {frame : Frame} {rest : List Frame}
    {b : Branch} (hs : line.statement = some (.branch b)) (hstack : t.stack = frame :: rest)
    (hcontrol : frame.block.isControl) :
    (Tracker.pending { t with
        stack := { frame with
          segment := ⟨b.keyword, true, line, false, false⟩, isDead := false } :: rest },
      withCodes ["empty-block"] (emptySegment frame)) = t.pending.step line := by
  have hregion : frame.block ≠ .region := by
    intro hregion
    rw [hregion] at hcontrol
    cases hcontrol
  let next : Frame :=
    { frame with segment := ⟨b.keyword, true, line, false, false⟩, isDead := false }
  have hnext : emptySegment next = [⟨line.codeSpan, .emptyBlock b.keyword true⟩] := by
    simp [emptySegment, next, hcontrol]
  obtain ⟨_, dead⟩ := t
  subst hstack
  rw [withCodes_emptySegment, pending_of_ne_region (f := next) hregion, hnext]
  simp only [Pending.step, hs, pending_of_ne_region hregion, Pending.branch, hcontrol, if_true]
  rfl

/-- What one line of a balanced document does to the segments. -/
theorem pending_step {t : Tracker} {line : SourceLine} (h : t.TopApart)
    (hopened : ∀ around, opened? around line = some .region → ∃ p, line.statement = some (.region p))
    (hfits : ∀ block, closed? line = some block → t.stack.head?.map Frame.block = some block) :
    ((t.step line).1.pending, withCodes ["empty-block"] (t.step line).2) = t.pending.step line := by
  have hfills : Check.fills line = (t.role line).fills := rfl
  have hturn := t.turn_step line
  generalize t.step line = result at hturn ⊢
  cases hturn with
  | closes stack closed role => exact pending_closes stack closed
  | misfits closed other codes role => exact absurd (hfits _ closed) other
  | branches statement stack control role => exact pending_branches statement stack control
  | @passes b statement outside role =>
    have haround := isControl_enclosing h outside
    rw [enclosing_eq_pending] at haround
    simp only [Pending.step, statement, Pending.branch_eq_self haround, withCodes_nil]
  | opensRegion statement role =>
    rw [pending_push_region, withCodes_nil]
    simp only [Pending.step, statement]
  | @opens block opened role =>
    rw [role] at hfills
    have hblock : block ≠ .region := by
      rintro rfl
      obtain ⟨p, hs⟩ := hopened _ opened
      rw [Check.fills, hs] at hfills
      cases hfills
    rw [pending_push _ hblock, pending_markContent h, withCodes_nil, Pending.step_of_fills hfills,
      ← enclosing_eq_pending, opened]
  | declares opened role =>
    rw [role] at hfills
    rw [pending_markContent h, withCodes_nil, Pending.step_of_fills hfills, ← enclosing_eq_pending,
      opened]
  | states role =>
    have hopens : (opened? t.enclosing line).isSome = (t.role line).opens := rfl
    rw [role] at hfills hopens
    have hnone : opened? t.enclosing line = none := by simpa using hopens
    rw [pending_simple h, Pending.step_of_fills hfills, ← enclosing_eq_pending, hnone]
  | idles statement role =>
    obtain hs | hs := statement
    · simp only [Pending.step, hs, withCodes_nil]
    · simp only [Pending.step, hs, withCodes_nil]

end Tracker

/-! ## Runs -/

/-- No region is opened directly inside a control block. -/
def RegionsApart (t : Tracker) (lines : List SourceLine) : Prop :=
  ∀ p ∈ states track t lines, opened? p.1.enclosing p.2 = some .region →
    p.1.enclosing.any Block.isControl = false

/-- What is reported about empty blocks on the way over lines. -/
def empties (t : Tracker) (lines : List SourceLine) : List Diagnostic :=
  (states track t lines).flatMap fun p ↦ withCodes ["empty-block"] (p.1.step p.2).2

theorem empties_cons (t : Tracker) (line : SourceLine) (lines : List SourceLine) :
    empties t (line :: lines) =
      withCodes ["empty-block"] (t.step line).2 ++ empties (track t line) lines := by
  rw [empties, states_cons, List.flatMap_cons]
  rfl

/-- None of the open regions stands directly inside a control block. -/
def AllApart : List BlockAt → Prop
  | [] => True
  | b :: rest =>
    (b.1 = .region → (BlockAt.enclosing rest).any Block.isControl = false) ∧ AllApart rest

theorem topApart_of_allApart {t : Tracker} (h : AllApart t.blocks) : t.TopApart := by
  intro hregion
  rw [Tracker.enclosing_eq]
  obtain ⟨_ | ⟨frame, rest⟩, dead⟩ := t
  · cases hregion
  · have hblock : frame.block = .region := by simpa using hregion
    change (BlockAt.enclosing ((frame.block, _) :: _)).any _ = false
    rw [BlockAt.enclosing_cons_region hblock]
    exact h.1 hblock

theorem allApart_advance? {blocks blocks' : List BlockAt} {line : SourceLine} (h : AllApart blocks)
    (hline : opened? (BlockAt.enclosing blocks) line = some .region →
      (BlockAt.enclosing blocks).any Block.isControl = false)
    (hadvance : advance? blocks line = some blocks') : AllApart blocks' := by
  unfold advance? at hadvance
  split at hadvance
  · rw [Option.ite_none_right_eq_some, Option.some.injEq] at hadvance
    rw [← hadvance.2]
    cases blocks with
    | nil => exact h
    | cons b rest => exact h.2
  · split at hadvance
    · next block hopened =>
      rw [← Option.some.inj hadvance]
      refine ⟨?_, h⟩
      intro hregion
      exact hline (hopened.trans (congrArg some hregion))
    · rwa [← Option.some.inj hadvance]

/-- The run over the lines of a balanced document reports what follows from the segments. -/
theorem empties_eq {lines : List SourceLine} {t : Tracker} {final : List BlockAt}
    (hbalanced : lines.foldlM advance? t.blocks = some final)
    (hopened : ∀ line ∈ lines, ∀ around, opened? around line = some .region →
      ∃ p, line.statement = some (.region p))
    (hregions : RegionsApart t lines) (hall : AllApart t.blocks) :
    empties t lines = t.pending.reports lines := by
  induction lines generalizing t with
  | nil => rfl
  | cons line lines ih =>
    rw [RegionsApart, states_cons, List.forall_mem_cons, Tracker.enclosing_eq] at hregions
    rw [List.forall_mem_cons] at hopened
    obtain ⟨blocks, hadvance, hrest⟩ := Option.bind_eq_some_iff.1 hbalanced
    have htrack : (track t line).blocks = blocks := by
      rw [blocks_track, hadvance, Option.getD_some]
    have hfits : ∀ block, closed? line = some block → t.stack.head?.map Frame.block = some block := by
      intro block hclosed
      simp only [advance?, hclosed, Option.ite_none_right_eq_some] at hadvance
      rw [← hadvance.1, Tracker.blocks, List.head?_map, Option.map_map]
      rfl
    have hstep := Tracker.pending_step (topApart_of_allApart hall) hopened.1 hfits
    have hnext := ih (t := track t line) (by rwa [htrack]) hopened.2 hregions.2
      (by rw [htrack]; exact allApart_advance? hall hregions.1 hadvance)
    rw [Pending.reports_cons, ← hstep, empties_cons, hnext]
    rfl

end VbOutline.Check
