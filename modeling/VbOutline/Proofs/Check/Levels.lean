import VbOutline.Check.Levels
import VbOutline.Proofs.Check.Reachability

/-!
# Marks of the levels and of the frames

The row of marks is told by the open blocks and by the mark of the current level alone, since the
marks of the levels around it are never set: a block is opened with the level around it reachable,
and what stands in the row behind a level is cut off before the level is current again. So the row
and the marks that the tracker keeps with its frames agree on the current level at every line, and
the same statements are reported.
-/

namespace VbOutline.Check

open Text SourceLine

namespace Levels

/-- Setting the mark at the end of the row. -/
theorem mark_concat (blocks : List Block) (marks : List Bool) (old dead : Bool) :
    mark ⟨blocks, marks ++ [old]⟩ marks.length dead = ⟨blocks, marks ++ [dead]⟩ := by
  have hpad : (marks ++ [old]).rightpad (marks.length + 1) false = marks ++ [old] := by
    simp [List.rightpad]
  rw [mark, hpad, List.set_append_right _ _ le_rfl, Nat.sub_self]
  rfl

/-- Setting a mark right behind the end of the row. -/
theorem mark_length (blocks : List Block) (marks : List Bool) (dead : Bool) :
    mark ⟨blocks, marks⟩ marks.length dead = ⟨blocks, marks ++ [dead]⟩ := by
  have hpad : marks.rightpad (marks.length + 1) false = marks ++ [false] := by
    simp [List.rightpad]
  rw [mark, hpad, List.set_append_right _ _ le_rfl, Nat.sub_self]
  rfl

variable {l : Levels} {line : SourceLine} {block : Block}

theorem step_of_opened? (h : opened? l.enclosing line = some block) :
    l.step line = (l.push block, []) := by
  unfold opened? at h
  split at h
  · next hs =>
    rw [Option.ite_none_right_eq_some, Option.some.injEq] at h
    simp [step, hs, h.1, h.2]
  · next hs =>
    cases h
    simp [step, hs]
  · next hs =>
    rw [Option.ite_none_left_eq_some, Option.some.injEq] at h
    simp [step, hs, h.1, h.2]
  · cases h

theorem step_of_closed? (h : closed? line = some block) :
    ∃ e : BlockEnd, e.block = block ∧ l.step line = (l.close e, []) := by
  obtain ⟨e, hs, hblock⟩ := (closed?_eq_some_iff line block).1 h
  exact ⟨e, hblock, by simp [step, hs]⟩

theorem step_of_isSimple (h : isSimple line) : l.step line = l.simple line (leavesBlock line) := by
  rw [step, leavesBlock]
  cases hs : line.statement with
  | none => simp [isSimple, hs] at h
  | some statement =>
    cases statement with
    | control c =>
      rw [isSimple, hs] at h
      dsimp only at h ⊢
      rw [if_pos h]
    | plain | imports | implements | declaration => rfl
    | _ => simp [isSimple, hs] at h

/-- A header that opens no block leaves the marks alone. -/
theorem step_eq_self (hfills : fills line) (hsimple : isSimple line = false)
    (h : opened? l.enclosing line = none) : l.step line = (l, []) := by
  rw [step]
  cases hs : line.statement with
  | none => rfl
  | some statement =>
    cases statement with
    | header header =>
      rw [opened?, hs] at h
      dsimp only at h ⊢
      rw [if_neg fun hopens ↦ by simp [hopens] at h]
    | control c =>
      rw [isSimple, hs] at hsimple
      rw [opened?, hs] at h
      simp [hsimple] at h
    | blank => rfl
    | plain | imports | implements | declaration => simp [isSimple, hs] at hsimple
    | region | branch | blockEnd => simp [fills, hs] at hfills

end Levels

namespace Tracker

/-- The open blocks, with no mark set but the one of the current level. -/
def levels (t : Tracker) : Levels :=
  ⟨t.stack.map Frame.block, List.replicate t.stack.length false ++ [t.atDeadEnd]⟩

variable (t : Tracker)

/-- The mark that stands in the row at the number of open blocks. -/
@[simp]
theorem atDeadEnd_levels : t.levels.atDeadEnd = t.atDeadEnd := by
  simp [Levels.atDeadEnd, Levels.depth, levels]

theorem enclosing_levels : t.levels.enclosing = t.enclosing := by
  rw [Levels.enclosing, levels, enclosing, List.find?_map]
  rfl

@[simp]
theorem levels_markContent : t.markContent.levels = t.levels := by
  obtain ⟨_ | _, _⟩ := t <;> rfl

theorem mark_levels (dead : Bool) : t.levels.mark t.levels.depth dead =
    ⟨t.stack.map Frame.block, List.replicate t.stack.length false ++ [dead]⟩ := by
  have hdepth : t.levels.depth = (List.replicate t.stack.length false).length := by
    simp [Levels.depth, levels]
  rw [hdepth, levels, Levels.mark_concat]

theorem levels_setDead (dead : Bool) :
    (t.setDead dead).levels = t.levels.mark t.levels.depth dead := by
  rw [mark_levels, levels, atDeadEnd_setDead]
  obtain ⟨_ | _, _⟩ := t <;> rfl

theorem levels_push (block : Block) (line : SourceLine) :
    (t.push block line).levels = t.levels.push block := by
  have hopen : (t.push block line).stack.map Frame.block = block :: t.stack.map Frame.block := by
    obtain ⟨_ | _, _⟩ := t <;> rfl
  have hlength : (t.push block line).stack.length = t.stack.length + 1 := by
    simpa using congrArg List.length hopen
  have hdepth : t.levels.depth + 1 = (List.replicate (t.stack.length + 1) false).length := by
    simp [Levels.depth, levels]
  rw [Levels.push, mark_levels, ← List.replicate_succ', hdepth, Levels.mark_length, levels, hopen,
    hlength, atDeadEnd_push]
  rfl

variable {t}

/-- What stands in the row for the level of the block is cut off. -/
theorem levels_close {frame : Frame} {rest : List Frame} {e : BlockEnd}
    (hstack : t.stack = frame :: rest) (hblock : e.block = frame.block) :
    ({ t with stack := rest }.setDead false).levels = t.levels.close e := by
  have hcut : t.levels.marks.take (rest.length + 1) =
      List.replicate rest.length false ++ [false] := by
    rw [levels, hstack, List.length_cons, List.take_left' List.length_replicate,
      List.replicate_succ']
  have hclose : t.levels.close e = Levels.mark
      ⟨rest.map Frame.block, t.levels.marks.take (rest.length + 1)⟩ rest.length false := by
    simp [Levels.close, levels, hstack, hblock]
  have hmark := Levels.mark_concat (rest.map Frame.block) (List.replicate rest.length false)
    false false
  rw [List.length_replicate] at hmark
  rw [hclose, hcut, hmark, levels_setDead, mark_levels]

theorem levels_branch {frame : Frame} {rest : List Frame} (segment : Segment)
    (hstack : t.stack = frame :: rest) (hcontrol : frame.block.isControl) :
    Tracker.levels { t with stack := { frame with segment, isDead := false } :: rest } =
      t.levels.branch := by
  have hbranch : t.levels.branch = t.levels.mark t.levels.depth false := by
    simp [Levels.branch, levels, hstack, hcontrol]
  rw [hbranch, mark_levels, hstack]
  rfl

theorem simple_levels (t : Tracker) (line : SourceLine) (leaves : Bool) :
    t.levels.simple line leaves =
      ((t.simple line leaves).1.levels, (t.simple line leaves).2) := by
  rw [Levels.simple, simple, atDeadEnd_levels, atDeadEnd_markContent]
  cases leaves with
  | false => rw [if_neg Bool.false_ne_true, if_neg Bool.false_ne_true, levels_markContent]
  | true => rw [if_pos rfl, if_pos rfl, levels_setDead, levels_markContent]

/-- At every line the row goes on as the tracker does, and the same statements are reported. -/
theorem step_levels (t : Tracker) (line : SourceLine) :
    t.levels.step line =
      ((track t line).levels, withCodes ["unreachable-code"] (t.step line).2) := by
  have hfills : Check.fills line = (t.role line).fills := rfl
  have hsimple : isSimple line = (t.role line).states := rfl
  have hempty (frame : Frame) : withCodes ["unreachable-code"] (emptySegment frame) = [] :=
    (codesIn_emptySegment frame).withCodes_eq_nil (by simp)
  rw [track]
  have hturn := t.turn_step line
  generalize t.step line = result at hturn ⊢
  cases hturn with
  | closes stack closed role =>
    obtain ⟨e, hblock, hstep⟩ := t.levels.step_of_closed? closed
    rw [hstep, hempty, levels_close stack hblock]
  | misfits closed other codes role =>
    obtain ⟨e, rfl, hstep⟩ := t.levels.step_of_closed? closed
    have hclose : t.levels.close e = t.levels := by
      obtain ⟨_ | ⟨frame, rest⟩, dead⟩ := t
      · rfl
      · simp only [List.head?_cons, Option.map_some, ne_eq, Option.some.injEq] at other
        simp [Levels.close, levels, other]
    rw [hstep, hclose, codes.withCodes_eq_nil (by simp)]
  | branches statement stack control role =>
    rw [hempty, levels_branch _ stack control]
    simp only [Levels.step, statement]
  | passes statement outside role =>
    have hbranch : t.levels.branch = t.levels := by
      obtain ⟨_ | ⟨frame, rest⟩, dead⟩ := t
      · rfl
      · simp [Levels.branch, levels, outside frame rfl]
    simp only [Levels.step, statement, hbranch, withCodes_nil]
  | opensRegion statement role =>
    rw [levels_push, withCodes_nil]
    simp only [Levels.step, statement]
  | opens opened role =>
    rw [Levels.step_of_opened? (by rw [enclosing_levels, opened]), levels_push, levels_markContent,
      withCodes_nil]
  | declares opened role =>
    rw [role] at hfills hsimple
    rw [Levels.step_eq_self hfills hsimple (by rw [enclosing_levels, opened]), levels_markContent,
      withCodes_nil]
  | states role =>
    rw [role] at hsimple
    rw [Levels.step_of_isSimple hsimple, simple_levels,
      (t.codesIn_simple line _).withCodes_eq_self (List.Subset.refl _)]
  | idles statement role =>
    obtain hs | hs := statement
    · simp only [Levels.step, hs, withCodes_nil]
    · simp only [Levels.step, hs, withCodes_nil]

end Tracker

/-- The rows with which a run comes to the lines are those of the tracker. -/
theorem states_levels (t : Tracker) (lines : List SourceLine) :
    states (fun l line ↦ (Levels.step l line).1) t.levels lines =
      (states track t lines).map fun p ↦ (p.1.levels, p.2) := by
  induction lines generalizing t with
  | nil => rfl
  | cons line lines ih =>
    rw [states_cons, states_cons, List.map_cons, ← ih, t.step_levels]

/-- The statements that are reported as unreachable are those of the row of marks, and at every line
the mark at the number of open blocks is the one that the tracker keeps for the current level. -/
theorem unreachable_eq_levels {o : Options} (henabled : o.isEnabled "unreachable-code")
    (text : Text) (others : List DocumentOutline) :
    let run := states (fun l line ↦ (Levels.step l line).1) .start (readAll (lines text))
    withCodes ["unreachable-code"] (validate o text others) =
        sortByStart (run.flatMap fun p ↦ (p.1.step p.2).2) ∧
      run.map (fun p ↦ (p.1.atDeadEnd, p.2)) = (pass text).map fun p ↦ (p.1.atDeadEnd, p.2) := by
  intro run
  have hrun : run = (pass text).map fun p ↦ (p.1.levels, p.2) := states_levels .start _
  rw [hrun]
  constructor
  · rw [withCodes_block_validate (by simp [blockCodes]) henabled, List.flatMap_map]
    simp only [Tracker.step_levels]
  · simp

end VbOutline.Check
