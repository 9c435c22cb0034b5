import VbOutline.Proofs.Check.Simulation

/-!
# Every opening and every closing is accounted for

A closing statement that does not fit the innermost open block leaves everything as it is, so blocks
may stay open for the rest of the document, and any number of closing statements may fit nothing.
Still nothing is lost and nothing is reported twice. A line that opens a block is closed by exactly
one later line, or it is reported at the end of the document, once and by its own number. A closing
statement closes the block that was opened last, or it is reported, once, and changes nothing.

What is open is followed through the pass as a list of blocks with the lines that opened them. The
lines are numbered, so the numbers in this list fall from the innermost block outwards, and a line
that has left the list does not come back.
-/

namespace VbOutline.Check

open Text SourceLine BlockAt

/-- What is reported about balance at a line. -/
def misfit (t : Tracker) (line : SourceLine) : List Diagnostic :=
  match line.statement with
  | some (.blockEnd e) =>
    match t.openings with
    | [] => [⟨line.codeSpan, .unexpectedClosing e.statement⟩]
    | (block, first) :: _ =>
      if block = e.block then []
      else [⟨line.codeSpan, .mismatchedBlock block (first.index + 1) e.statement⟩]
  | _ => []

theorem closed?_eq_none_of_opened? {around : Option Block} {line : SourceLine} {block : Block}
    (h : opened? around line = some block) : closed? line = none := by
  unfold opened? at h
  split at h
  · next hs => simp [closed?, hs]
  · next hs => simp [closed?, hs]
  · next hs => simp [closed?, hs]
  · cases h

/-- A closing statement closes the innermost block, or it is reported and changes nothing. -/
theorem closing_cases {line : SourceLine} {e : BlockEnd} (h : line.statement = some (.blockEnd e))
    (t : Tracker) :
    (∃ frame rest, t.stack = frame :: rest ∧ frame.block = e.block ∧
      track t line = { t with stack := rest }.setDead false ∧ misfit t line = []) ∨
    (t.stack = [] ∧ track t line = t ∧
      misfit t line = [⟨line.codeSpan, .unexpectedClosing e.statement⟩]) ∨
    (∃ frame rest, t.stack = frame :: rest ∧ frame.block ≠ e.block ∧ track t line = t ∧
      misfit t line =
        [⟨line.codeSpan, .mismatchedBlock frame.block (frame.line.index + 1) e.statement⟩]) := by
  obtain ⟨stack, dead⟩ := t
  cases stack with
  | nil =>
    refine .inr (.inl ⟨rfl, ?_, ?_⟩)
    · simp [track, Tracker.step, h, Tracker.close]
    · simp [misfit, h, Tracker.openings]
  | cons frame rest =>
    by_cases hblock : frame.block = e.block
    · refine .inl ⟨frame, rest, rfl, hblock, ?_, ?_⟩
      · simp [track, Tracker.step, h, Tracker.close, hblock]
      · simp [misfit, h, Tracker.openings, hblock]
    · refine .inr (.inr ⟨frame, rest, rfl, hblock, ?_, ?_⟩)
      · simp [track, Tracker.step, h, Tracker.close, hblock]
      · simp [misfit, h, Tracker.openings, hblock]

/-- What one line does to the open blocks. -/
theorem track_cases (t : Tracker) (line : SourceLine) :
    (closed? line = none ∧
      (track t line).openings =
        ((opened? t.enclosing line).map fun block ↦ (block, line)).toList ++ t.openings) ∨
    (∃ e frame rest, line.statement = some (.blockEnd e) ∧ t.stack = frame :: rest ∧
      frame.block = e.block ∧ track t line = { t with stack := rest }.setDead false) ∨
    (∃ e, line.statement = some (.blockEnd e) ∧ t.stack.head?.map Frame.block ≠ some e.block ∧
      track t line = t) := by
  cases hclosed : closed? line with
  | none => exact .inl ⟨rfl, (t.openings_step_of_closed?_eq_none hclosed).1⟩
  | some block =>
    obtain ⟨e, hs, rfl⟩ := (closed?_eq_some_iff line block).1 hclosed
    obtain ⟨frame, rest, hstack, hblock, htrack, _⟩ | ⟨hstack, htrack, _⟩ |
      ⟨frame, rest, hstack, hblock, htrack, _⟩ := closing_cases hs t
    · exact .inr (.inl ⟨e, frame, rest, hs, hstack, hblock, htrack⟩)
    · exact .inr (.inr ⟨e, hs, by simp [hstack], htrack⟩)
    · exact .inr (.inr ⟨e, hs, by simpa [hstack] using hblock, htrack⟩)

theorem blocks_track (t : Tracker) (line : SourceLine) :
    (track t line).blocks = (advance? t.blocks line).getD t.blocks := by
  cases hclosed : closed? line with
  | none => rw [← (t.step_of_closed?_eq_none hclosed).1, Option.getD_some, track]
  | some block =>
    obtain ⟨e, hs, rfl⟩ := (closed?_eq_some_iff line block).1 hclosed
    obtain ⟨frame, rest, hstack, hblock, htrack, _⟩ | ⟨hstack, htrack, _⟩ |
      ⟨frame, rest, hstack, hblock, htrack, _⟩ := closing_cases hs t
    · rw [htrack, Tracker.blocks_eq, Tracker.openings_setDead]
      simp [advance?, hclosed, Tracker.blocks, Tracker.openings, hstack, hblock]
    · rw [htrack]
      simp [advance?, hclosed, Tracker.blocks, hstack]
    · rw [htrack]
      simp [advance?, hclosed, Tracker.blocks, hstack, hblock]

theorem Quiet.withCodes_eq_nil {ds : List Diagnostic} (h : Quiet ds) :
    withCodes balanceCodes ds = [] := by
  rw [withCodes, List.filter_eq_nil_iff]
  intro d hd
  rw [List.contains_iff_mem, code_mem_balanceCodes, h d hd]
  exact Bool.false_ne_true

theorem misfit_of_closed?_eq_none (t : Tracker) {line : SourceLine} (h : closed? line = none) :
    misfit t line = [] := by
  unfold misfit
  split
  · next e hs => simp [closed?, hs] at h
  · rfl

theorem withCodes_atLine (limit : Nat) (t : Tracker) (line : SourceLine) :
    withCodes balanceCodes (atLine limit t line) = misfit t line := by
  rw [atLine, withCodes_append, (quiet_line limit _ line).withCodes_eq_nil, List.nil_append]
  cases hclosed : closed? line with
  | none =>
    rw [(t.openings_step_of_closed?_eq_none hclosed).2.withCodes_eq_nil,
      misfit_of_closed?_eq_none t hclosed]
  | some block =>
    obtain ⟨e, hs, rfl⟩ := (closed?_eq_some_iff line block).1 hclosed
    obtain ⟨stack, dead⟩ := t
    cases stack with
    | nil =>
      simp [Tracker.step, hs, Tracker.close, misfit, Tracker.openings, withCodes, balanceCodes,
        Diagnostic.code, Finding.code]
    | cons frame rest =>
      by_cases hblock : frame.block = e.block
      · have hquiet := (quiet_emptySegment frame).withCodes_eq_nil
        simp [Tracker.step, hs, Tracker.close, misfit, Tracker.openings, hblock, hquiet]
      · simp [Tracker.step, hs, Tracker.close, misfit, Tracker.openings, hblock, withCodes,
          balanceCodes, Diagnostic.code, Finding.code]

/-- What is reported about a block that is still open at the end of the document. -/
def missing (o : Block × SourceLine) : Diagnostic :=
  ⟨o.2.codeSpan, .missingClosing o.1 (o.2.index + 1)⟩

theorem finish_eq (t : Tracker) : t.finish = t.openings.reverse.map missing := by
  rw [Tracker.finish, Tracker.openings, ← List.map_reverse, List.map_map]
  rfl

/-- The lines of a text, each with the tracker that comes to it. -/
def pass (text : Text) : List (Tracker × SourceLine) := states track .start (readAll (lines text))

/-- The tracker at the end of a text. -/
def final (text : Text) : Tracker := (readAll (lines text)).foldl track .start

theorem withCodes_findings (limit : Nat) (text : Text) (others : List DocumentOutline) :
    withCodes balanceCodes (findings limit text others) =
      ((pass text).flatMap fun p ↦ misfit p.1 p.2) ++ (final text).finish := by
  have hfinish := (final text).codesIn_finish.withCodes_eq_self
    (List.cons_subset.2 ⟨by simp [balanceCodes], List.nil_subset balanceCodes⟩)
  rw [findings, withCodes_append, withCodes_append, withCodes_append,
    (quiet_unusedVariables _ _).withCodes_eq_nil, (quiet_missingMembers _ _).withCodes_eq_nil,
    (quiet_duplicates _ _).withCodes_eq_nil, walk, withCodes_append, withCodes_flatMap]
  simp only [withCodes_atLine, List.append_nil]
  rw [pass, ← hfinish]
  rfl

theorem recent_iff (t : Tracker) (i : Nat) :
    Recent i t.blocks ↔ (∀ o ∈ t.openings, o.2.index < i) ∧
      t.openings.Pairwise fun a b ↦ b.2.index < a.2.index := by
  simp only [Recent, Tracker.blocks_eq, List.forall_mem_map, List.pairwise_map]

theorem openings_of_stack_eq_cons {t : Tracker} {frame : Frame} {rest : List Frame}
    (h : t.stack = frame :: rest) :
    t.openings = (frame.block, frame.line) :: (Tracker.setDead { t with stack := rest } false).openings := by
  rw [Tracker.openings_setDead, Tracker.openings, h]
  rfl

/-- A block that is open after a line was open before it or is opened by it. -/
theorem mem_openings_track {t : Tracker} {line : SourceLine} {o : Block × SourceLine}
    (h : o ∈ (track t line).openings) :
    o ∈ t.openings ∨ (o.2 = line ∧ closed? line = none) := by
  obtain ⟨hclosed, htrack⟩ | ⟨e, frame, rest, _, hstack, _, htrack⟩ | ⟨e, _, _, htrack⟩ :=
    track_cases t line
  · rw [htrack, List.mem_append, Option.mem_toList, Option.map_eq_some_iff] at h
    obtain ⟨block, _, rfl⟩ | h := h
    · exact .inr ⟨rfl, hclosed⟩
    · exact .inl h
  · rw [htrack] at h
    rw [openings_of_stack_eq_cons hstack]
    exact .inl (List.mem_cons_of_mem _ h)
  · rw [htrack] at h
    exact .inl h

theorem recent_track {t : Tracker} {line : SourceLine} (h : Recent line.index t.blocks) :
    Recent (line.index + 1) (track t line).blocks := by
  rw [recent_iff] at h ⊢
  obtain ⟨hbefore, hsorted⟩ := h
  constructor
  · intro o ho
    obtain ho | ⟨rfl, _⟩ := mem_openings_track ho
    · exact Nat.lt_succ_of_lt (hbefore o ho)
    · exact Nat.lt_succ_self _
  · obtain ⟨_, htrack⟩ | ⟨e, frame, rest, _, hstack, _, htrack⟩ | ⟨e, _, _, htrack⟩ :=
      track_cases t line
    · rw [htrack]
      cases opened? t.enclosing line with
      | none => exact hsorted
      | some block => exact List.pairwise_cons.2 ⟨hbefore, hsorted⟩
    · rw [openings_of_stack_eq_cons hstack, ← htrack] at hsorted
      exact (List.pairwise_cons.1 hsorted).2
    · rwa [htrack]

/-- The lines are numbered in rising order from `n` on. -/
def Rising (n : Nat) (lines : List SourceLine) : Prop :=
  (∀ line ∈ lines, n ≤ line.index) ∧ lines.Pairwise fun a b ↦ a.index < b.index

theorem rising_cons {n : Nat} {line : SourceLine} {lines : List SourceLine}
    (h : Rising n (line :: lines)) : n ≤ line.index ∧ Rising (line.index + 1) lines := by
  obtain ⟨hfrom, hsorted⟩ := h
  rw [List.pairwise_cons] at hsorted
  exact ⟨hfrom line List.mem_cons_self, hsorted⟩

theorem rising_readAll (rows : List Text) : Rising 0 (readAll rows) := by
  refine ⟨fun line _ ↦ Nat.zero_le line.index, ?_⟩
  rw [← List.pairwise_map, map_index_readAll]
  exact List.pairwise_lt_range

theorem recent_start : Recent 0 Tracker.start.blocks :=
  ⟨by simp [Tracker.blocks, Tracker.start], .nil⟩

theorem recent_states {lines : List SourceLine} {n : Nat} (hlines : Rising n lines) {t : Tracker}
    (h : Recent n t.blocks) :
    (∀ p ∈ states track t lines, Recent p.2.index p.1.blocks) ∧
      ∃ m, Recent m (lines.foldl track t).blocks := by
  induction lines generalizing n t with
  | nil => exact ⟨by simp, n, h⟩
  | cons line lines ih =>
    obtain ⟨hfrom, hrest⟩ := rising_cons hlines
    have hline : Recent line.index t.blocks := h.mono hfrom
    obtain ⟨hstates, hfinal⟩ := ih hrest (recent_track hline)
    rw [states_cons, List.forall_mem_cons]
    exact ⟨⟨hline, hstates⟩, hfinal⟩

/-- The tracker comes to a closing statement for its innermost block, which `first` opened. -/
def ClosesBlockOf (first : SourceLine) (p : Tracker × SourceLine) : Prop :=
  ∃ frame rest, p.1.stack = frame :: rest ∧ frame.line = first ∧ closed? p.2 = some frame.block

theorem not_closesBlockOf_of_closed?_eq_none {first : SourceLine} {t : Tracker} {line : SourceLine}
    (h : closed? line = none) : ¬ ClosesBlockOf first (t, line) := by
  rintro ⟨frame, rest, _, _, hclosed⟩
  rw [h] at hclosed
  cases hclosed

theorem openings_of_closesBlockOf {first : SourceLine} {t : Tracker} {line : SourceLine}
    (h : ClosesBlockOf first (t, line)) :
    ∃ block, t.openings = (block, first) :: (track t line).openings := by
  obtain ⟨frame, rest, hstack, rfl, hclosed⟩ := h
  obtain ⟨hnone, _⟩ | ⟨e, top, below, _, htop, _, htrack⟩ | ⟨e, hs, hother, _⟩ := track_cases t line
  · rw [hnone] at hclosed
    cases hclosed
  · rw [hstack, List.cons.injEq] at htop
    obtain ⟨rfl, rfl⟩ := htop
    exact ⟨frame.block, by rw [htrack, openings_of_stack_eq_cons hstack]⟩
  · have hblock : e.block = frame.block := by simpa [closed?, hs] using hclosed
    rw [hstack, hblock] at hother
    exact absurd rfl hother

theorem mem_openings_track_of_not_closesBlockOf {t : Tracker} {line : SourceLine}
    {o : Block × SourceLine} (ho : o ∈ t.openings) (h : ¬ ClosesBlockOf o.2 (t, line)) :
    o ∈ (track t line).openings := by
  obtain ⟨_, htrack⟩ | ⟨e, frame, rest, hs, hstack, hblock, htrack⟩ | ⟨e, _, _, htrack⟩ :=
    track_cases t line
  · rw [htrack]
    exact List.mem_append_right _ ho
  · rw [openings_of_stack_eq_cons hstack, ← htrack, List.mem_cons] at ho
    obtain rfl | ho := ho
    · exact absurd ⟨frame, rest, hstack, rfl, by simp [closed?, hs, hblock]⟩ h
    · exact ho
  · rwa [htrack]

/-- A line that opened none of the open blocks, and does not come later, stays away. -/
theorem not_closesBlockOf_of_gone {first : SourceLine} {lines : List SourceLine} {t : Tracker}
    (hgone : ∀ o ∈ t.openings, o.2.index ≠ first.index)
    (hnew : ∀ line ∈ lines, line.index ≠ first.index) :
    (∀ p ∈ states track t lines, ¬ ClosesBlockOf first p) ∧
      ∀ o ∈ (lines.foldl track t).openings, o.2.index ≠ first.index := by
  induction lines generalizing t with
  | nil => exact ⟨by simp, hgone⟩
  | cons line lines ih =>
    rw [List.forall_mem_cons] at hnew
    have hstep : ∀ o ∈ (track t line).openings, o.2.index ≠ first.index := by
      intro o ho
      obtain ho | ⟨rfl, _⟩ := mem_openings_track ho
      · exact hgone o ho
      · exact hnew.1
    obtain ⟨hstates, hfinal⟩ := ih hstep hnew.2
    rw [states_cons, List.forall_mem_cons]
    refine ⟨⟨?_, hstates⟩, hfinal⟩
    intro hcloses
    obtain ⟨block, hopenings⟩ := openings_of_closesBlockOf hcloses
    exact hgone (block, first) (by simp [hopenings]) rfl

/-- An open block stays open to the end, or exactly one line closes it. -/
theorem open_or_closed_once {lines : List SourceLine} {n : Nat} (hlines : Rising n lines)
    {t : Tracker} (hrecent : Recent n t.blocks) {o : Block × SourceLine} (ho : o ∈ t.openings) :
    (o ∈ (lines.foldl track t).openings ∧ ∀ p ∈ states track t lines, ¬ ClosesBlockOf o.2 p) ∨
    ((∀ o' ∈ (lines.foldl track t).openings, o'.2.index ≠ o.2.index) ∧
      ∃ p ∈ states track t lines, ClosesBlockOf o.2 p ∧
        ∀ q ∈ states track t lines, ClosesBlockOf o.2 q → q = p) := by
  induction lines generalizing n t with
  | nil => exact .inl ⟨ho, by simp⟩
  | cons line lines ih =>
    obtain ⟨hfrom, hrest⟩ := rising_cons hlines
    have hrecent : Recent line.index t.blocks := hrecent.mono hfrom
    by_cases hline : ClosesBlockOf o.2 (t, line)
    · -- the line closes the block, and from then on its opening line is gone
      right
      obtain ⟨hbefore, hsorted⟩ := (recent_iff t line.index).1 hrecent
      have hearlier := hbefore o ho
      obtain ⟨block, hopenings⟩ := openings_of_closesBlockOf hline
      rw [hopenings, List.pairwise_cons] at hsorted
      have hgone : ∀ o' ∈ (track t line).openings, o'.2.index ≠ o.2.index := by
        intro o' ho'
        exact Nat.ne_of_lt (hsorted.1 o' ho')
      have hnew : ∀ l ∈ lines, l.index ≠ o.2.index := by
        intro l hl
        have hlater := hrest.1 l hl
        omega
      obtain ⟨hstates, hfinal⟩ := not_closesBlockOf_of_gone hgone hnew
      refine ⟨hfinal, (t, line), by simp, hline, ?_⟩
      rw [states_cons, List.forall_mem_cons]
      exact ⟨fun _ ↦ rfl, fun q hq hcloses ↦ absurd hcloses (hstates q hq)⟩
    · have hstays := mem_openings_track_of_not_closesBlockOf ho hline
      rw [states_cons, List.forall_mem_cons]
      obtain ⟨hopen, hnever⟩ | ⟨hgone, p, hp, hcloses, honly⟩ :=
        ih hrest (recent_track hrecent) hstays
      · exact .inl ⟨hopen, hline, hnever⟩
      · right
        refine ⟨hgone, p, List.mem_cons_of_mem _ hp, hcloses, ?_⟩
        rw [List.forall_mem_cons]
        exact ⟨fun h ↦ absurd h hline, honly⟩

/-! ## Whole documents -/

section

variable {text : Text} {p : Tracker × SourceLine}

/-- A line splits the pass. What comes before it knows nothing of its block, and the lines after it
have greater numbers. -/
theorem exists_split_of_mem_pass (hp : p ∈ pass text) :
    ∃ front back, pass text = front ++ p :: states track (track p.1 p.2) back ∧
      final text = back.foldl track (track p.1 p.2) ∧
      (∀ q ∈ front, ¬ ClosesBlockOf p.2 q) ∧ (∀ o ∈ p.1.openings, o.2.index ≠ p.2.index) ∧
      Rising (p.2.index + 1) back := by
  obtain ⟨front, back, hlines, hfront⟩ := exists_append_of_mem_states hp
  obtain ⟨_, hsorted⟩ := rising_readAll (lines text)
  rw [hlines, List.pairwise_append, List.pairwise_cons] at hsorted
  have hnot : ∀ line ∈ front, line.index ≠ p.2.index := by
    intro line hline
    exact Nat.ne_of_lt (hsorted.2.2 line hline p.2 List.mem_cons_self)
  have hstart : ∀ o ∈ Tracker.start.openings, o.2.index ≠ p.2.index := by
    simp [Tracker.openings, Tracker.start]
  obtain ⟨hnever, hgone⟩ := not_closesBlockOf_of_gone hstart hnot
  rw [← hfront] at hgone
  refine ⟨states track .start front, back, ?_, ?_, hnever, hgone, hsorted.2.1⟩
  · rw [pass, hlines, states_append, states_cons, ← hfront]
  · rw [final, hlines, List.foldl_append, List.foldl_cons, ← hfront]

theorem recent_pass (hp : p ∈ pass text) : Recent p.2.index p.1.blocks :=
  (recent_states (rising_readAll _) recent_start).1 p hp

/-- A line that opens a block is closed by exactly one later line, or its block is open at the end. -/
theorem opening_of_mem_pass (hp : p ∈ pass text) {block : Block}
    (hopens : opened? p.1.enclosing p.2 = some block) :
    ((block, p.2) ∈ (final text).openings ∧ ∀ q ∈ pass text, ¬ ClosesBlockOf p.2 q) ∨
    ((∀ o ∈ (final text).openings, o.2.index ≠ p.2.index) ∧
      ∃ q ∈ pass text, p.2.index < q.2.index ∧ ClosesBlockOf p.2 q ∧
        ∀ q' ∈ pass text, ClosesBlockOf p.2 q' → q' = q) := by
  obtain ⟨front, back, hpass, hfinal, hfront, _, hback⟩ := exists_split_of_mem_pass hp
  have hclosed := closed?_eq_none_of_opened? hopens
  have hself : ¬ ClosesBlockOf p.2 p := not_closesBlockOf_of_closed?_eq_none hclosed
  have hopened : (block, p.2) ∈ (track p.1 p.2).openings := by
    rw [track, (p.1.openings_step_of_closed?_eq_none hclosed).1, hopens]
    exact List.mem_cons_self
  rw [hpass, List.forall_mem_append, List.forall_mem_cons, hfinal]
  obtain ⟨hopen, hnever⟩ | ⟨hgone, q, hq, hcloses, honly⟩ :=
    open_or_closed_once hback (recent_track (recent_pass hp)) hopened
  · exact .inl ⟨hopen, hfront, hself, hnever⟩
  · refine .inr ⟨hgone, q, ?_, ?_, hcloses, ?_⟩
    · exact List.mem_append_right _ (List.mem_cons_of_mem _ hq)
    · exact hback.1 q.2 (mem_of_mem_states hq)
    · rw [List.forall_mem_append, List.forall_mem_cons]
      exact ⟨fun q' hq' h ↦ absurd h (hfront q' hq'), fun h ↦ absurd h hself, honly⟩

/-- A closing statement opens nothing. -/
theorem ne_of_mem_openings_final (hp : p ∈ pass text) {block : Block}
    (hclosed : closed? p.2 = some block) :
    ∀ o ∈ (final text).openings, o.2.index ≠ p.2.index := by
  obtain ⟨front, back, _, hfinal, _, hgone, hback⟩ := exists_split_of_mem_pass hp
  rw [hfinal]
  refine (not_closesBlockOf_of_gone ?_ ?_).2
  · intro o ho
    obtain ho | ⟨_, hnone⟩ := mem_openings_track ho
    · exact hgone o ho
    · rw [hnone] at hclosed
      cases hclosed
  · intro line hline
    exact Ne.symm (Nat.ne_of_lt (hback.1 line hline))

/-- The diagnostics about balance that start on a line. -/
def balanceAt (line : SourceLine) (report : List Diagnostic) : List Diagnostic :=
  (withCodes balanceCodes report).filter fun d ↦ d.range.start.line == line.index

theorem line_of_mem_misfit {t : Tracker} {line : SourceLine} {d : Diagnostic}
    (h : d ∈ misfit t line) : d.range.start.line = line.index := by
  unfold misfit at h
  split at h
  · split at h
    · rw [List.mem_singleton.1 h]
      rfl
    · split at h
      · cases h
      · rw [List.mem_singleton.1 h]
        rfl
  · cases h

/-- What is reported on a line comes from the line itself and from the block that it opened. -/
theorem balanceAt_validate (limit : Nat) (others : List DocumentOutline) (hp : p ∈ pass text) :
    balanceAt p.2 (validate ⟨limit, []⟩ text others) =
      sortByStart (misfit p.1 p.2 ++
        (final text).finish.filter fun d ↦ d.range.start.line == p.2.index) := by
  have hsorted : (pass text).Pairwise fun a b ↦ a.2.index ≠ b.2.index := by
    have hlines := (rising_readAll (lines text)).2
    rw [← map_snd_states track .start (readAll (lines text)), List.pairwise_map] at hlines
    exact hlines.imp Nat.ne_of_lt
  have hmisfit := filter_flatMap_of_mem
    (fun (q : Tracker × SourceLine) d (hd : d ∈ misfit q.1 q.2) ↦ line_of_mem_misfit hd) hsorted hp
  rw [balanceAt, withCodes_validate_all, filter_sortByStart, withCodes_findings, List.filter_append,
    hmisfit]

theorem finish_filter_of_mem {o : Block × SourceLine} (ho : o ∈ (final text).openings) :
    (final text).finish.filter (fun d ↦ d.range.start.line == o.2.index) = [missing o] := by
  obtain ⟨n, hrecent⟩ := (recent_states (rising_readAll (lines text)) recent_start).2
  have hsorted : (final text).openings.reverse.Pairwise fun a b ↦ a.2.index ≠ b.2.index := by
    rw [List.pairwise_reverse]
    exact ((recent_iff (final text) n).1 hrecent).2.imp Nat.ne_of_lt
  rw [finish_eq, List.map_eq_flatMap]
  refine filter_flatMap_of_mem ?_ hsorted (List.mem_reverse.2 ho)
  intro o d hd
  rw [List.mem_singleton.1 hd]
  rfl

theorem finish_filter_eq_nil {i : Nat} (h : ∀ o ∈ (final text).openings, o.2.index ≠ i) :
    (final text).finish.filter (fun d ↦ d.range.start.line == i) = [] := by
  rw [finish_eq, List.filter_eq_nil_iff]
  intro d hd
  obtain ⟨o, ho, rfl⟩ := List.mem_map.1 hd
  rw [beq_iff_eq]
  exact h o (List.mem_reverse.1 ho)

end

/-! ## Numbers of openings and closings -/

/-- The line opens a block. -/
def opens (p : Tracker × SourceLine) : Bool := (opened? p.1.enclosing p.2).isSome

/-- The line is a closing statement. -/
def closes (p : Tracker × SourceLine) : Bool := (closed? p.2).isSome

/-- The line is a closing statement for the innermost open block. -/
def pops (p : Tracker × SourceLine) : Bool :=
  p.1.stack.head?.any fun frame ↦ closed? p.2 == some frame.block

theorem opens_of_blockEnd (t : Tracker) {line : SourceLine} {e : BlockEnd}
    (h : line.statement = some (.blockEnd e)) : opens (t, line) = false := by
  simp [opens, opened?, h]

theorem pops_of_ne {t : Tracker} {line : SourceLine} {e : BlockEnd}
    (h : line.statement = some (.blockEnd e))
    (hother : t.stack.head?.map Frame.block ≠ some e.block) : pops (t, line) = false := by
  rw [pops, Option.any_eq_false]
  intro frame hframe
  rw [hframe, Option.map_some, ne_eq, Option.some.injEq] at hother
  simpa [closed?, h] using Ne.symm hother

/-- Of the lines that change the number of open blocks, openings raise it and pops lower it. -/
theorem countP_opens (t : Tracker) (lines : List SourceLine) :
    (states track t lines).countP opens + t.openings.length =
      (states track t lines).countP pops + (lines.foldl track t).openings.length := by
  induction lines generalizing t with
  | nil => rfl
  | cons line lines ih =>
    have hrest := ih (track t line)
    rw [states_cons, List.countP_cons, List.countP_cons, List.foldl_cons]
    obtain ⟨hclosed, htrack⟩ | ⟨e, frame, rest, hs, hstack, hblock, htrack⟩ | ⟨e, hs, hother, htrack⟩ :=
      track_cases t line
    · have hpops : pops (t, line) = false := by simp [pops, hclosed]
      have hlength : (track t line).openings.length =
          t.openings.length + if opens (t, line) then 1 else 0 := by
        rw [htrack, opens]
        cases opened? t.enclosing line <;> simp
      rw [hpops, if_neg Bool.false_ne_true]
      omega
    · have hpops : pops (t, line) = true := by simp [pops, hstack, closed?, hs, hblock]
      have hlength : t.openings.length = (track t line).openings.length + 1 := by
        rw [openings_of_stack_eq_cons hstack, htrack, List.length_cons]
      rw [opens_of_blockEnd t hs, hpops, if_neg Bool.false_ne_true, if_pos rfl]
      omega
    · rw [opens_of_blockEnd t hs, pops_of_ne hs hother, if_neg Bool.false_ne_true]
      rw [htrack] at hrest ⊢
      exact hrest

/-- A closing statement is a pop or it is reported. -/
theorem countP_closes (passed : List (Tracker × SourceLine)) :
    passed.countP closes =
      passed.countP pops + (passed.flatMap fun p ↦ misfit p.1 p.2).length := by
  induction passed with
  | nil => rfl
  | cons p passed ih =>
    obtain ⟨t, line⟩ := p
    rw [List.countP_cons, List.countP_cons, List.flatMap_cons, List.length_append, ih]
    cases hclosed : closed? line with
    | none =>
      have hcloses : closes (t, line) = false := by simp [closes, hclosed]
      have hpops : pops (t, line) = false := by simp [pops, hclosed]
      rw [hcloses, hpops, misfit_of_closed?_eq_none t hclosed]
      simp
    | some block =>
      have hcloses : closes (t, line) = true := by simp [closes, hclosed]
      obtain ⟨e, hs, rfl⟩ := (closed?_eq_some_iff line block).1 hclosed
      obtain ⟨frame, rest, hstack, hblock, _, hmisfit⟩ | ⟨hstack, _, hmisfit⟩ |
        ⟨frame, rest, hstack, hblock, _, hmisfit⟩ := closing_cases hs t
      · have hpops : pops (t, line) = true := by simp [pops, hstack, hclosed, hblock]
        rw [hcloses, hpops, hmisfit]
        simp only [if_true, List.length_nil]
        omega
      · rw [hcloses, pops_of_ne hs (by simp [hstack]), hmisfit]
        simp only [if_true, Bool.false_eq_true, if_false, List.length_singleton]
        omega
      · rw [hcloses, pops_of_ne hs (by simpa [hstack] using hblock), hmisfit]
        simp only [if_true, Bool.false_eq_true, if_false, List.length_singleton]
        omega

theorem codesIn_misfit (t : Tracker) (line : SourceLine) :
    CodesIn ["unexpected-closing", "mismatched-block"] (misfit t line) := by
  unfold misfit
  split
  · split
    · simp [Finding.code]
    · split <;> simp [Finding.code]
  · exact codesIn_nil

theorem length_withCodes_pair {first second : String} (hne : first ≠ second)
    {ds : List Diagnostic} (h : CodesIn [first, second] ds) :
    (withCodes [first] ds).length + (withCodes [second] ds).length = ds.length := by
  rw [withCodes, withCodes, ← List.countP_eq_length_filter, ← List.countP_eq_length_filter,
    List.length_eq_countP_add_countP fun d ↦ [first].contains d.code]
  congr 1
  apply List.countP_congr
  intro d hd
  have hcode := h d hd
  simp only [List.mem_cons, List.not_mem_nil, or_false] at hcode
  obtain hcode | hcode := hcode
  · simp [hcode, hne]
  · simp [hcode, hne.symm]

theorem length_withCodes_validate (limit : Nat) (text : Text) (others : List DocumentOutline)
    {code : String} (h : code ∈ balanceCodes) :
    (withCodes [code] (validate ⟨limit, []⟩ text others)).length =
      (withCodes [code] ((pass text).flatMap fun p ↦ misfit p.1 p.2)).length +
        (withCodes [code] (final text).finish).length := by
  rw [withCodes_validate_all, sortByStart, List.length_mergeSort,
    ← withCodes_withCodes (List.cons_subset.2 ⟨h, List.nil_subset _⟩), withCodes_findings,
    withCodes_append, List.length_append]

/-- Blocks are accounted for line by line and in number. A line that opens a block is closed by
exactly one later line, or it has one diagnostic with its own number. A closing statement closes the
block that was opened last and is not reported, or it has one diagnostic, which tells whether no block
is open or the innermost one is of another kind, and it leaves the open blocks, their segments and
what is known to be unreachable as they are. -/
theorem openings_and_closings_accounted (limit : Nat) (text : Text)
    (others : List DocumentOutline) :
    let report := validate ⟨limit, []⟩ text others
    (∀ p ∈ pass text, ∀ block, opened? p.1.enclosing p.2 = some block →
      ((∃ q ∈ pass text, p.2.index < q.2.index ∧ ClosesBlockOf p.2 q ∧
          ∀ q' ∈ pass text, ClosesBlockOf p.2 q' → q' = q) ∧
        balanceAt p.2 report = []) ∨
      ((∀ q ∈ pass text, ¬ ClosesBlockOf p.2 q) ∧
        balanceAt p.2 report = [⟨p.2.codeSpan, .missingClosing block (p.2.index + 1)⟩])) ∧
    (∀ p ∈ pass text, ∀ e, p.2.statement = some (.blockEnd e) →
      (∃ frame rest, p.1.stack = frame :: rest ∧ frame.block = e.block ∧
        (∀ other ∈ rest, other.line.index < frame.line.index) ∧
        track p.1 p.2 = { p.1 with stack := rest }.setDead false ∧
        balanceAt p.2 report = []) ∨
      (p.1.stack = [] ∧ track p.1 p.2 = p.1 ∧
        balanceAt p.2 report = [⟨p.2.codeSpan, .unexpectedClosing e.statement⟩]) ∨
      (∃ frame rest, p.1.stack = frame :: rest ∧ frame.block ≠ e.block ∧ track p.1 p.2 = p.1 ∧
        balanceAt p.2 report =
          [⟨p.2.codeSpan, .mismatchedBlock frame.block (frame.line.index + 1) e.statement⟩])) ∧
    (pass text).countP opens = (pass text).countP pops + (withCodes ["missing-closing"] report).length ∧
    (pass text).countP closes = (pass text).countP pops +
      (withCodes ["unexpected-closing"] report).length +
      (withCodes ["mismatched-block"] report).length := by
  intro report
  have hmisfits := codesIn_flatMap fun (p : Tracker × SourceLine) (_ : p ∈ pass text) ↦
    codesIn_misfit p.1 p.2
  have hfinish := (final text).codesIn_finish
  refine ⟨?_, ?_, ?_, ?_⟩
  · intro p hp block hopens
    have hclosed : closed? p.2 = none := closed?_eq_none_of_opened? hopens
    rw [balanceAt_validate limit others hp, misfit_of_closed?_eq_none p.1 hclosed, List.nil_append]
    obtain ⟨hopen, hnever⟩ | ⟨hgone, hcloses⟩ := opening_of_mem_pass hp hopens
    · right
      rw [finish_filter_of_mem hopen]
      exact ⟨hnever, List.mergeSort_singleton _⟩
    · left
      rw [finish_filter_eq_nil hgone]
      exact ⟨hcloses, List.mergeSort_nil⟩
  · intro p hp e hs
    have hclosed : closed? p.2 = some e.block := (closed?_eq_some_iff _ _).2 ⟨e, hs, rfl⟩
    rw [balanceAt_validate limit others hp,
      finish_filter_eq_nil (ne_of_mem_openings_final hp hclosed), List.append_nil]
    obtain ⟨frame, rest, hstack, hblock, htrack, hmisfit⟩ | ⟨hstack, htrack, hmisfit⟩ |
      ⟨frame, rest, hstack, hblock, htrack, hmisfit⟩ := closing_cases hs p.1
    · left
      have hsorted := ((recent_iff p.1 _).1 (recent_pass hp)).2
      rw [Tracker.openings, hstack, List.map_cons, List.pairwise_cons, List.forall_mem_map] at hsorted
      exact ⟨frame, rest, hstack, hblock, hsorted.1, htrack, by rw [hmisfit]; exact List.mergeSort_nil⟩
    · exact .inr (.inl ⟨hstack, htrack, by rw [hmisfit]; exact List.mergeSort_singleton _⟩)
    · exact .inr (.inr ⟨frame, rest, hstack, hblock, htrack,
        by rw [hmisfit]; exact List.mergeSort_singleton _⟩)
  · have hcount := countP_opens .start (readAll (lines text))
    rw [length_withCodes_validate limit text others (by simp [balanceCodes]),
      hmisfits.withCodes_eq_nil (by simp), hfinish.withCodes_eq_self (List.Subset.refl _), finish_eq,
      List.length_map, List.length_reverse, List.length_nil, Nat.zero_add]
    exact hcount
  · rw [countP_closes, length_withCodes_validate limit text others (by simp [balanceCodes]),
      length_withCodes_validate limit text others (by simp [balanceCodes]),
      hfinish.withCodes_eq_nil (by simp), hfinish.withCodes_eq_nil (by simp),
      ← length_withCodes_pair (by simp) hmisfits, List.length_nil, Nat.add_zero, Nat.add_zero,
      Nat.add_assoc]

end VbOutline.Check
