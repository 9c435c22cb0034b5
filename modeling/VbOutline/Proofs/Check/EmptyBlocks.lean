import VbOutline.Proofs.Check.Reachability
import VbOutline.Proofs.Check.Segments

/-!
# Empty blocks

A block consists of segments, one from its first line on and one from each branch that the tracker
comes to while the block is the innermost one. A segment ends at the next such branch or where the
block is closed, and nothing but these lines ends it: closing statements that fit no block, branches
of blocks inside and everything between the first line and the end of such a block pass it by. It is
reported, on the line with which it begins, if it ends without a line of its own that counts as
content. Segments that do not end are not reported, nor are those of blocks that are no control
blocks and the one before the first case of a selection.

A segment is followed from its first line on. In the stack of the tracker a segment begins on a later
line than all segments of outer blocks, so it is told by the number of this line, and what is reported
on this line is what is reported about this segment.
-/

namespace VbOutline.Check

open Text SourceLine

/-- An open block with its segment, apart from what is known about reachability. -/
structure Part where
  block : Block
  /-- The line that opened the block. -/
  first : SourceLine
  segment : Segment

/-- The segment that begins on a line, still without content. -/
def begun? (p : Tracker × SourceLine) : Option Part :=
  match opened? p.1.enclosing p.2 with
  | some block =>
    some ⟨block, p.2, ⟨block.keyword, false, p.2, false, block == .selectCase⟩⟩
  | none =>
    match p.2.statement, p.1.stack.head? with
    | some (.branch b), some frame =>
      some ⟨frame.block, frame.line, ⟨b.keyword, true, p.2, false, false⟩⟩
    | _, _ => none

/-- The block that the given line opened is the innermost one. -/
def isInnermost (first : SourceLine) (t : Tracker) : Bool :=
  t.stack.head?.any fun frame ↦ frame.line.index == first.index

def isBranch (line : SourceLine) : Bool :=
  match line.statement with
  | some (.branch _) => true
  | _ => false

/-- The line ends a segment of the block that the given line opened. -/
def endsSegment (first : SourceLine) (q : Tracker × SourceLine) : Bool :=
  isInnermost first q.1 && (pops q || isBranch q.2)

/-- The line is content of a segment of the block that the given line opened. -/
def fillsSegment (first : SourceLine) (q : Tracker × SourceLine) : Bool :=
  isInnermost first q.1 && isContent q.2

/-- The segment of a control block that begins at `p` may not be empty, but it ends without content. -/
def EndsEmpty (text : Text) (p : Tracker × SourceLine) (part : Part) : Prop :=
  part.block.isControl ∧ ¬ (part.block = .selectCase ∧ part.segment.isBranch = false) ∧
    ∃ q ∈ pass text, p.2.index < q.2.index ∧ endsSegment part.first q ∧
      ∀ r ∈ pass text, p.2.index < r.2.index → r.2.index < q.2.index →
        endsSegment part.first r = false ∧ fillsSegment part.first r = false

instance (text : Text) (p : Tracker × SourceLine) (part : Part) :
    Decidable (EndsEmpty text p part) :=
  inferInstanceAs (Decidable (part.block.isControl ∧
    ¬ (part.block = .selectCase ∧ part.segment.isBranch = false) ∧
    ∃ q ∈ pass text, p.2.index < q.2.index ∧ endsSegment part.first q ∧
      ∀ r ∈ pass text, p.2.index < r.2.index → r.2.index < q.2.index →
        endsSegment part.first r = false ∧ fillsSegment part.first r = false))

/-- The diagnostics that start on the line with a number. -/
def startingAt (i : Nat) (ds : List Diagnostic) : List Diagnostic :=
  ds.filter fun d ↦ d.range.start.line == i

theorem startingAt_append (i : Nat) (left right : List Diagnostic) :
    startingAt i (left ++ right) = startingAt i left ++ startingAt i right :=
  List.filter_append left right

namespace Part

/-- What is reported about the segment if it ends now. -/
def verdict (a : Part) : List Diagnostic :=
  if a.block.isControl && !a.segment.hasContent && !a.segment.isExempt then
    [⟨a.segment.line.codeSpan, .emptyBlock a.segment.label a.segment.isBranch⟩]
  else []

/-- The part after a line that is content or not. -/
def fill (a : Part) (content : Bool) : Part :=
  { a with segment := { a.segment with hasContent := a.segment.hasContent || content } }

def fillHead (content : Bool) : List Part → List Part
  | [] => []
  | a :: rest => a.fill content :: rest

@[simp]
theorem fill_false (a : Part) : a.fill false = a := by simp [fill]

@[simp]
theorem fillHead_false (parts : List Part) : fillHead false parts = parts := by
  cases parts <;> simp [fillHead]

theorem verdict_fill (a : Part) (content : Bool) :
    (a.fill content).verdict = if content then [] else a.verdict := by
  cases content <;> simp [verdict, fill]

/-- What is reported about a segment is reported where it begins. -/
theorem startingAt_verdict_eq_nil {a : Part} {i : Nat}
    (h : a.segment.line.index = i → a.block.isControl = false) : startingAt i a.verdict = [] := by
  rw [startingAt, List.filter_eq_nil_iff]
  intro d hd
  rw [verdict, List.mem_ite_nil_right, List.mem_singleton] at hd
  obtain ⟨hcontrol, rfl⟩ := hd
  rw [beq_iff_eq]
  intro hline
  simp [h hline] at hcontrol

theorem startingAt_verdict_self (a : Part) :
    startingAt a.segment.line.index a.verdict = a.verdict := by
  rw [startingAt, List.filter_eq_self]
  intro d hd
  rw [verdict, List.mem_ite_nil_right, List.mem_singleton] at hd
  rw [hd.2, beq_iff_eq]
  rfl

theorem exists_of_mem_fillHead {a : Part} {content : Bool} {parts : List Part}
    (h : a ∈ fillHead content parts) :
    ∃ b ∈ parts, b.block = a.block ∧ b.segment.line = a.segment.line := by
  cases parts with
  | nil => cases h
  | cons b rest =>
    obtain rfl | h := List.mem_cons.1 h
    · exact ⟨b, List.mem_cons_self, rfl, rfl⟩
    · exact ⟨a, List.mem_cons_of_mem b h, rfl, rfl⟩

end Part

def Frame.part (f : Frame) : Part := ⟨f.block, f.line, f.segment⟩

namespace Tracker

def parts (t : Tracker) : List Part := t.stack.map Frame.part

theorem withCodes_emptySegment_eq (f : Frame) :
    withCodes ["empty-block"] (emptySegment f) = f.part.verdict :=
  withCodes_emptySegment f

@[simp]
theorem parts_setDead (t : Tracker) (dead : Bool) : (t.setDead dead).parts = t.parts := by
  obtain ⟨_ | _, _⟩ := t <;> rfl

@[simp]
theorem parts_markContent (t : Tracker) : t.markContent.parts = Part.fillHead true t.parts := by
  obtain ⟨_ | ⟨f, rest⟩, _⟩ := t
  · rfl
  · simp [markContent, parts, Part.fillHead, Part.fill, Frame.part]

@[simp]
theorem parts_push (t : Tracker) (block : Block) (line : SourceLine) :
    (t.push block line).parts =
      ⟨block, line, ⟨block.keyword, false, line, false, block == .selectCase⟩⟩ :: t.parts := by
  rw [← parts_setDead t false]
  rfl

@[simp]
theorem parts_simple (t : Tracker) (line : SourceLine) (leaves : Bool) :
    (t.simple line leaves).1.parts = Part.fillHead true t.parts := by
  cases leaves <;> simp [simple]

/-- What one line does to the parts, and what is reported about empty blocks at it: it closes the
innermost block, or it is a branch of it, or it reports nothing, and it may then be content of the
innermost block and may open another one. -/
theorem parts_step {rows : List Text} {line : SourceLine} (hread : line.ReadIn rows) (t : Tracker) :
    (∃ a rest, t.parts = a :: rest ∧ pops (t, line) ∧ isContent line = false ∧
      withCodes ["empty-block"] (t.step line).2 = a.verdict ∧ (track t line).parts = rest) ∨
    (∃ a rest b, t.parts = a :: rest ∧ branches (t, line) ∧ isContent line = false ∧
      begun? (t, line) = some b ∧ b.first = a.first ∧
      withCodes ["empty-block"] (t.step line).2 = a.verdict ∧ (track t line).parts = b :: rest) ∨
    (pops (t, line) = false ∧ branches (t, line) = false ∧
      withCodes ["empty-block"] (t.step line).2 = [] ∧
      (track t line).parts =
        (if opens (t, line) then (begun? (t, line)).toList else []) ++
          Part.fillHead (isContent line) t.parts) := by
  have hcontent : isContent line = (t.role line).fills := isContent_eq_fills hread
  have hopens : Check.opens (t, line) = (t.role line).opens := rfl
  have hpops : pops (t, line) = (t.role line).pops := rfl
  have hbranches : branches (t, line) = (t.role line).branches := rfl
  rw [hcontent, hopens, hpops, hbranches, track]
  have hturn := t.turn_step line
  generalize t.step line = result at hturn ⊢
  cases hturn with
  | @closes frame rest stack closed role =>
    refine .inl ⟨frame.part, rest.map Frame.part, ?_, by rw [role], by rw [role],
      withCodes_emptySegment_eq frame, parts_setDead _ _⟩
    rw [parts, stack, List.map_cons]
  | @branches frame rest b statement stack control role =>
    let next : Part := ⟨frame.block, frame.line, ⟨b.keyword, true, line, false, false⟩⟩
    refine .inr (.inl ⟨frame.part, rest.map Frame.part, next, ?_, by rw [role], by rw [role], ?_,
      rfl, withCodes_emptySegment_eq frame, rfl⟩)
    · rw [parts, stack, List.map_cons]
    · simp [begun?, opened?, statement, stack, next]
  | misfits closed other codes role =>
    exact .inr (.inr (by simp [role, codes.withCodes_eq_nil]))
  | opensRegion statement role =>
    exact .inr (.inr (by simp [role, begun?, opened?, statement]))
  | opens opened role => exact .inr (.inr (by simp [role, begun?, opened]))
  | declares opened role => exact .inr (.inr (by simp [role]))
  | states role =>
    refine .inr (.inr ?_)
    rw [(t.codesIn_simple line _).withCodes_eq_nil (by simp), parts_simple, role]
    exact ⟨rfl, rfl, rfl, rfl⟩
  | passes statement outside role => exact .inr (.inr (by simp [role]))
  | idles statement role => exact .inr (.inr (by simp [role]))

end Tracker

/-- A segment begins on the first line of its block or later, and before the block inside begins. All
these lines are among the first `n`. -/
structure Layered (n : Nat) (parts : List Part) : Prop where
  within : ∀ a ∈ parts, a.first.index ≤ a.segment.line.index ∧ a.segment.line.index < n
  nested : parts.Pairwise fun inner outer ↦ outer.segment.line.index < inner.first.index

namespace Layered

variable {n : Nat} {a b : Part} {parts : List Part}

theorem mono {m : Nat} (h : Layered n parts) (hle : n ≤ m) : Layered m parts :=
  ⟨fun a ha ↦ ⟨(h.within a ha).1, (h.within a ha).2.trans_le hle⟩, h.nested⟩

theorem tail (h : Layered n (a :: parts)) : Layered n parts :=
  ⟨fun b hb ↦ h.within b (List.mem_cons_of_mem a hb), h.nested.of_cons⟩

theorem fillHead (h : Layered n parts) (content : Bool) :
    Layered n (Part.fillHead content parts) := by
  cases parts with
  | nil => exact h
  | cons a rest =>
    obtain ⟨hwithin, hnested⟩ := h
    rw [List.forall_mem_cons] at hwithin
    rw [List.pairwise_cons] at hnested
    exact ⟨List.forall_mem_cons.2 hwithin, List.pairwise_cons.2 hnested⟩

/-- The next line begins a block or a segment of the innermost one. -/
theorem cons {line : SourceLine} (h : Layered line.index parts) (hline : b.segment.line = line)
    (hfirst : b.first = line ∨ ∃ a, b.first = a.first ∧ Layered line.index (a :: parts)) :
    Layered (line.index + 1) (b :: parts) := by
  refine ⟨List.forall_mem_cons.2 ⟨?_, (h.mono (Nat.le_succ _)).within⟩,
    List.pairwise_cons.2 ⟨?_, h.nested⟩⟩
  · rw [hline]
    obtain hfirst | ⟨a, hfirst, ha⟩ := hfirst
    · rw [hfirst]
      exact ⟨le_rfl, Nat.lt_succ_self _⟩
    · rw [hfirst]
      obtain ⟨hle, hlt⟩ := ha.within a List.mem_cons_self
      exact ⟨hle.trans hlt.le, Nat.lt_succ_self _⟩
  · intro c hc
    obtain hfirst | ⟨a, hfirst, ha⟩ := hfirst
    · rw [hfirst]
      exact (h.within c hc).2
    · rw [hfirst]
      exact (List.pairwise_cons.1 ha.nested).1 c hc

end Layered

theorem line_of_begun? {p : Tracker × SourceLine} {a : Part} (h : begun? p = some a) :
    a.segment.line = p.2 := by
  unfold begun? at h
  split at h
  · rw [← Option.some.inj h]
  · split at h
    · rw [← Option.some.inj h]
    · cases h

theorem exists_begun_of_opens {p : Tracker × SourceLine} (h : opens p) :
    ∃ a, begun? p = some a ∧ a.first = p.2 := by
  obtain ⟨block, hopened⟩ := Option.isSome_iff_exists.1 h
  exact ⟨_, by rw [begun?, hopened], rfl⟩

section

variable {rows : List Text} {line : SourceLine} {t : Tracker} {a : Part}

theorem isInnermost_eq (first : SourceLine) (t : Tracker) :
    isInnermost first t = t.parts.head?.any fun a ↦ a.first.index == first.index := by
  rw [isInnermost, Tracker.parts, List.head?_map, Option.any_map]
  rfl

theorem branches_eq (t : Tracker) (line : SourceLine) :
    branches (t, line) = (isBranch line && t.parts.head?.any fun a ↦ a.block.isControl) := by
  rw [Tracker.parts, List.head?_map, Option.any_map, branches, isBranch]
  cases line.statement with
  | none => rfl
  | some statement => cases statement <;> rfl

theorem layered_track (hread : line.ReadIn rows) (h : Layered line.index t.parts) :
    Layered (line.index + 1) (track t line).parts := by
  obtain ⟨a, rest, hparts, -, -, -, htrack⟩ | ⟨a, rest, b, hparts, -, -, hbegun, hfirst, -, htrack⟩ |
    ⟨-, -, -, htrack⟩ := Tracker.parts_step hread t
  · rw [hparts] at h
    rw [htrack]
    exact h.tail.mono (Nat.le_succ _)
  · rw [hparts] at h
    rw [htrack]
    exact h.tail.cons (line_of_begun? hbegun) (.inr ⟨a, hfirst, h⟩)
  · rw [htrack]
    split
    · next hopens =>
      obtain ⟨b, hbegun, hfirst⟩ := exists_begun_of_opens hopens
      rw [hbegun]
      exact (h.fillHead _).cons (line_of_begun? hbegun) (.inl hfirst)
    · exact (h.fillHead _).mono (Nat.le_succ _)

/-- A segment of the stack begins at the line, or it was there before. -/
theorem begun?_or_of_mem_parts_track (hread : line.ReadIn rows) (ha : a ∈ (track t line).parts) :
    begun? (t, line) = some a ∨
      ∃ b ∈ t.parts, b.block = a.block ∧ b.segment.line = a.segment.line := by
  obtain ⟨b, rest, hparts, -, -, -, htrack⟩ | ⟨b, rest, c, hparts, -, -, hbegun, -, -, htrack⟩ |
    ⟨-, -, -, htrack⟩ := Tracker.parts_step hread t
  · rw [htrack] at ha
    exact .inr ⟨a, by simp [hparts, ha], rfl, rfl⟩
  · rw [htrack, List.mem_cons] at ha
    obtain rfl | ha := ha
    · exact .inl hbegun
    · exact .inr ⟨a, by simp [hparts, ha], rfl, rfl⟩
  · rw [htrack, List.mem_append, List.mem_ite_nil_right, Option.mem_toList] at ha
    obtain ⟨-, hbegun⟩ | ha := ha
    · exact .inl hbegun
    · exact .inr (Part.exists_of_mem_fillHead ha)

/-- What is reported at a line starts where a segment of an open control block begins. -/
theorem startingAt_step_eq_nil {i : Nat} (hread : line.ReadIn rows)
    (hparts : ∀ a ∈ t.parts, a.segment.line.index = i → a.block.isControl = false) :
    startingAt i (withCodes ["empty-block"] (t.step line).2) = [] := by
  obtain ⟨a, rest, h, -, -, hstep, -⟩ | ⟨a, rest, b, h, -, -, -, -, hstep, -⟩ | ⟨-, -, hstep, -⟩ :=
    Tracker.parts_step hread t
  · rw [hstep]
    exact Part.startingAt_verdict_eq_nil (hparts a (by simp [h]))
  · rw [hstep]
    exact Part.startingAt_verdict_eq_nil (hparts a (by simp [h]))
  · rw [hstep]
    rfl

theorem begun?_eq_none_of_pops (h : pops (t, line)) : begun? (t, line) = none := by
  cases hs : line.statement with
  | none => simp [pops, closed?, hs] at h
  | some statement =>
    cases statement with
    | blockEnd e => simp [begun?, opened?, hs]
    | _ => simp [pops, closed?, hs] at h

/-- A segment that begins at a line is one of the stack, unless it is a branch of a block that is no
control block. -/
theorem mem_parts_track_of_begun? (hread : line.ReadIn rows) (hbegun : begun? (t, line) = some a) :
    a ∈ (track t line).parts ∨ a.block.isControl = false := by
  obtain ⟨_, _, -, hpops, -⟩ | ⟨b, rest, c, hparts, -, -, hbegun', -, -, htrack⟩ |
    ⟨-, hbranches, -, htrack⟩ := Tracker.parts_step hread t
  · cases hbegun.symm.trans (begun?_eq_none_of_pops hpops)
  · rw [hbegun', Option.some.injEq] at hbegun
    rw [htrack, hbegun]
    exact .inl List.mem_cons_self
  · cases hopens : opens (t, line) with
    | true =>
      rw [htrack, hopens, hbegun]
      exact .inl List.mem_cons_self
    | false =>
      rw [opens, Option.isSome_eq_false_iff, Option.isNone_iff_eq_none] at hopens
      rw [begun?, hopens] at hbegun
      dsimp only at hbegun
      split at hbegun
      · next frame hs hhead =>
        rw [← Option.some.inj hbegun]
        right
        simpa [branches, hs, hhead] using hbranches
      · cases hbegun

theorem exists_parts_eq_cons (h : Layered line.index t.parts) (ha : a ∈ t.parts)
    (hinner : isInnermost a.first t) : ∃ rest, t.parts = a :: rest := by
  rw [isInnermost_eq] at hinner
  cases hparts : t.parts with
  | nil => simp [hparts] at ha
  | cons b rest =>
    rw [hparts] at h ha hinner
    rw [List.head?_cons, Option.any_some, beq_iff_eq] at hinner
    obtain rfl | ha := List.mem_cons.1 ha
    · exact ⟨rest, rfl⟩
    · have hle := (h.within a (List.mem_cons_of_mem b ha)).1
      have hlt := (List.pairwise_cons.1 h.nested).1 a ha
      omega

/-- Where a segment of a control block ends, it is reported or not, and nothing is left of it. -/
theorem step_of_endsSegment (hread : line.ReadIn rows) (h : Layered line.index t.parts)
    (ha : a ∈ t.parts) (hcontrol : a.block.isControl) (hends : endsSegment a.first (t, line)) :
    withCodes ["empty-block"] (t.step line).2 = a.verdict ∧
      ∀ b ∈ (track t line).parts, b.segment.line.index ≠ a.segment.line.index := by
  rw [endsSegment, Bool.and_eq_true, Bool.or_eq_true] at hends
  obtain ⟨rest, hparts⟩ := exists_parts_eq_cons h ha hends.1
  have hend : pops (t, line) ∨ branches (t, line) := by
    rw [branches_eq, hparts, List.head?_cons, Option.any_some, hcontrol, Bool.and_true]
    exact hends.2
  rw [hparts] at h
  have houter : ∀ b ∈ rest, b.segment.line.index ≠ a.segment.line.index := by
    intro b hb
    have hle := (h.within a List.mem_cons_self).1
    have hlt := (List.pairwise_cons.1 h.nested).1 b hb
    omega
  obtain ⟨a', rest', hparts', -, -, hstep, htrack⟩ |
    ⟨a', rest', b, hparts', -, -, hbegun, -, hstep, htrack⟩ | ⟨hpops, hbranches, -⟩ :=
    Tracker.parts_step hread t
  · obtain ⟨rfl, rfl⟩ := List.cons.inj (hparts.symm.trans hparts')
    rw [htrack]
    exact ⟨hstep, houter⟩
  · obtain ⟨rfl, rfl⟩ := List.cons.inj (hparts.symm.trans hparts')
    rw [htrack, List.forall_mem_cons, line_of_begun? hbegun]
    exact ⟨hstep, (h.within a List.mem_cons_self).2.ne', houter⟩
  · simp [hpops, hbranches] at hend

/-- A segment that does not end at a line is not reported at it, and it stays open. -/
theorem step_of_not_endsSegment (hread : line.ReadIn rows) (h : Layered line.index t.parts)
    (ha : a ∈ t.parts) (hends : endsSegment a.first (t, line) = false) :
    startingAt a.segment.line.index (withCodes ["empty-block"] (t.step line).2) = [] ∧
      a.fill (fillsSegment a.first (t, line)) ∈ (track t line).parts := by
  cases hinner : isInnermost a.first t with
  | true =>
    obtain ⟨rest, hparts⟩ := exists_parts_eq_cons h ha hinner
    rw [endsSegment, hinner, Bool.true_and, Bool.or_eq_false_iff] at hends
    have hbranches : branches (t, line) = false := by rw [branches_eq, hends.2, Bool.false_and]
    obtain ⟨_, _, -, hpops, -⟩ | ⟨_, _, _, -, hbranches', -⟩ | ⟨-, -, hstep, htrack⟩ :=
      Tracker.parts_step hread t
    · cases hpops.symm.trans hends.1
    · cases hbranches'.symm.trans hbranches
    · rw [hstep, htrack, hparts, fillsSegment, hinner, Bool.true_and]
      exact ⟨rfl, List.mem_append_right _ List.mem_cons_self⟩
  | false =>
    rw [fillsSegment, hinner, Bool.false_and, Part.fill_false]
    cases hparts : t.parts with
    | nil => simp [hparts] at ha
    | cons c rest =>
      rw [hparts] at h ha
      rw [isInnermost_eq, hparts, List.head?_cons, Option.any_some, beq_eq_false_iff_ne] at hinner
      have ha : a ∈ rest := (List.mem_cons.1 ha).resolve_left fun h ↦ hinner (h ▸ rfl)
      have hne : c.segment.line.index ≠ a.segment.line.index := by
        have hle := (h.within c List.mem_cons_self).1
        have hlt := (List.pairwise_cons.1 h.nested).1 a ha
        omega
      obtain ⟨c', rest', hparts', -, -, hstep, htrack⟩ |
        ⟨c', rest', b, hparts', -, -, -, -, hstep, htrack⟩ | ⟨-, -, hstep, htrack⟩ :=
        Tracker.parts_step hread t
      · obtain ⟨rfl, rfl⟩ := List.cons.inj (hparts.symm.trans hparts')
        rw [hstep, htrack]
        exact ⟨Part.startingAt_verdict_eq_nil (absurd · hne), ha⟩
      · obtain ⟨rfl, rfl⟩ := List.cons.inj (hparts.symm.trans hparts')
        rw [hstep, htrack]
        exact ⟨Part.startingAt_verdict_eq_nil (absurd · hne), List.mem_cons_of_mem b ha⟩
      · rw [hstep, htrack, hparts]
        exact ⟨rfl, List.mem_append_right _ (List.mem_cons_of_mem _ ha)⟩

end

/-! ## Runs -/

/-- On the way over some lines a segment of the block that the given line opened ends, and until then
there is no content. -/
def EndsIdle (first : SourceLine) (run : List (Tracker × SourceLine)) : Prop :=
  ∃ q ∈ run, endsSegment first q ∧ ∀ r ∈ run, r.2.index < q.2.index →
    endsSegment first r = false ∧ fillsSegment first r = false

instance (first : SourceLine) (run : List (Tracker × SourceLine)) : Decidable (EndsIdle first run) :=
  inferInstanceAs (Decidable (∃ q ∈ run, endsSegment first q ∧ ∀ r ∈ run, r.2.index < q.2.index →
    endsSegment first r = false ∧ fillsSegment first r = false))

section

variable {first : SourceLine} {q : Tracker × SourceLine} {run : List (Tracker × SourceLine)}

theorem endsIdle_cons_of_endsSegment (hafter : ∀ r ∈ run, q.2.index < r.2.index)
    (h : endsSegment first q) : EndsIdle first (q :: run) := by
  refine ⟨q, List.mem_cons_self, h, List.forall_mem_cons.2 ⟨?_, ?_⟩⟩
  · exact fun hlt ↦ absurd hlt (Nat.lt_irrefl _)
  · exact fun r hr hlt ↦ absurd hlt (Nat.lt_asymm (hafter r hr))

theorem endsIdle_cons_iff (hafter : ∀ r ∈ run, q.2.index < r.2.index)
    (h : endsSegment first q = false) :
    EndsIdle first (q :: run) ↔ fillsSegment first q = false ∧ EndsIdle first run := by
  constructor
  · rintro ⟨p, hp, hends, hclear⟩
    rw [List.forall_mem_cons] at hclear
    obtain rfl | hp := List.mem_cons.1 hp
    · cases h.symm.trans hends
    · exact ⟨(hclear.1 (hafter p hp)).2, p, hp, hends, hclear.2⟩
  · rintro ⟨hfills, p, hp, hends, hclear⟩
    refine ⟨p, List.mem_cons_of_mem q hp, hends, List.forall_mem_cons.2 ⟨?_, hclear⟩⟩
    exact fun _ ↦ ⟨h, hfills⟩

end

theorem startingAt_empties_cons (i : Nat) (t : Tracker) (line : SourceLine)
    (lines : List SourceLine) :
    startingAt i (empties t (line :: lines)) =
      startingAt i (withCodes ["empty-block"] (t.step line).2) ++
        startingAt i (empties (track t line) lines) := by
  rw [empties_cons, startingAt_append]

section

variable {rows : List Text} {lines : List SourceLine} {t : Tracker}

/-- Nothing is reported where no segment of a control block begins. -/
theorem startingAt_empties_eq_nil {i : Nat} (hread : ∀ line ∈ lines, line.ReadIn rows)
    (hparts : ∀ a ∈ t.parts, a.segment.line.index = i → a.block.isControl = false)
    (hlines : ∀ line ∈ lines, line.index ≠ i) : startingAt i (empties t lines) = [] := by
  induction lines generalizing t with
  | nil => rfl
  | cons line lines ih =>
    rw [List.forall_mem_cons] at hread hlines
    have hnext : ∀ a ∈ (track t line).parts,
        a.segment.line.index = i → a.block.isControl = false := by
      intro a ha hindex
      obtain hbegun | ⟨b, hb, hblock, hline⟩ := begun?_or_of_mem_parts_track hread.1 ha
      · rw [line_of_begun? hbegun] at hindex
        exact absurd hindex hlines.1
      · rw [← hline] at hindex
        rw [← hblock]
        exact hparts b hb hindex
    rw [startingAt_empties_cons, startingAt_step_eq_nil hread.1 hparts, ih hread.2 hnext hlines.2,
      List.append_nil]

/-- What is reported about an open segment of a control block on the way over some lines. -/
theorem startingAt_empties {n : Nat} {a : Part} (hread : ∀ line ∈ lines, line.ReadIn rows)
    (hrising : Rising n lines) (hlayered : Layered n t.parts) (ha : a ∈ t.parts)
    (hcontrol : a.block.isControl) :
    startingAt a.segment.line.index (empties t lines) =
      if EndsIdle a.first (states track t lines) then a.verdict else [] := by
  induction lines generalizing t n a with
  | nil =>
    rw [if_neg fun ⟨_, hq, _⟩ ↦ List.not_mem_nil hq]
    rfl
  | cons line lines ih =>
    obtain ⟨hle, hrising⟩ := rising_cons hrising
    rw [List.forall_mem_cons] at hread
    have hlayered := hlayered.mono hle
    have hafter : ∀ r ∈ states track (track t line) lines, line.index < r.2.index := fun r hr ↦
      hrising.1 r.2 (mem_of_mem_states hr)
    rw [startingAt_empties_cons, states_cons]
    cases hends : endsSegment a.first (t, line) with
    | true =>
      obtain ⟨hstep, hgone⟩ := step_of_endsSegment hread.1 hlayered ha hcontrol hends
      have hnext : ∀ later ∈ lines, later.index ≠ a.segment.line.index := by
        intro later hlater
        have hlt := (hlayered.within a ha).2
        have hle := hrising.1 later hlater
        omega
      rw [hstep, startingAt_empties_eq_nil hread.2 (fun b hb h ↦ absurd h (hgone b hb)) hnext,
        List.append_nil, if_pos (endsIdle_cons_of_endsSegment hafter hends)]
      exact a.startingAt_verdict_self
    | false =>
      obtain ⟨hstep, hkept⟩ := step_of_not_endsSegment hread.1 hlayered ha hends
      have hrest := ih hread.2 hrising (layered_track hread.1 hlayered) hkept hcontrol
      rw [hstep, List.nil_append]
      refine hrest.trans ?_
      simp only [a.verdict_fill, endsIdle_cons_iff hafter hends]
      cases fillsSegment a.first (t, line) <;> simp

theorem layered_foldl_track (hread : ∀ line ∈ lines, line.ReadIn rows)
    (hsorted : lines.Pairwise fun a b ↦ a.index < b.index) {line : SourceLine}
    (hlast : ∀ before ∈ lines, before.index < line.index) :
    Layered line.index (lines.foldl track .start).parts := by
  induction lines using List.reverseRecOn generalizing line with
  | nil => exact ⟨fun _ ha ↦ absurd ha List.not_mem_nil, .nil⟩
  | append_singleton lines previous ih =>
    obtain ⟨hsorted, -, hprevious⟩ := List.pairwise_append.1 hsorted
    rw [List.forall_mem_append, List.forall_mem_singleton] at hread hlast
    have hlayered := ih hread.1 hsorted fun before hbefore ↦
      hprevious before hbefore previous (List.mem_singleton_self previous)
    rw [List.foldl_append, List.foldl_cons, List.foldl_nil]
    exact (layered_track hread.2 hlayered).mono hlast.2

end

/-! ## Whole documents -/

theorem verdict_of_begun? {p : Tracker × SourceLine} {a : Part} (h : begun? p = some a) :
    a.verdict = if a.block.isControl ∧ ¬ (a.block = .selectCase ∧ a.segment.isBranch = false) then
      [⟨p.2.codeSpan, .emptyBlock a.segment.label a.segment.isBranch⟩] else [] := by
  unfold begun? at h
  split at h
  · rw [← Option.some.inj h]
    simp [Part.verdict]
  · split at h
    · rw [← Option.some.inj h]
      simp [Part.verdict]
    · cases h

theorem endsEmpty_iff {text : Text} {p : Tracker × SourceLine} (a : Part)
    {run : List (Tracker × SourceLine)}
    (hmem : ∀ q, q ∈ run ↔ q ∈ pass text ∧ p.2.index < q.2.index) :
    EndsEmpty text p a ↔ EndsIdle a.first run ∧
      a.block.isControl ∧ ¬ (a.block = .selectCase ∧ a.segment.isBranch = false) := by
  rw [and_comm]
  simp only [EndsEmpty, EndsIdle, hmem, and_assoc, and_imp]

section

variable {text : Text} {p : Tracker × SourceLine}

/-- What is reported about empty blocks on a line comes from the lines after it. -/
theorem exists_back_of_mem_pass (hp : p ∈ pass text) :
    ∃ back, (∀ line ∈ back, line.ReadIn (lines text)) ∧ Rising (p.2.index + 1) back ∧
      Layered p.2.index p.1.parts ∧
      startingAt p.2.index (empties .start (readAll (lines text))) =
        startingAt p.2.index (empties (track p.1 p.2) back) ∧
      ∀ q, q ∈ states track (track p.1 p.2) back ↔ q ∈ pass text ∧ p.2.index < q.2.index := by
  obtain ⟨front, back, hlines, hreached, -, hback⟩ := exists_lines_around hp
  have hread : ∀ line ∈ readAll (lines text), line.ReadIn (lines text) := fun _ ↦ readIn_of_mem
  rw [hlines, List.forall_mem_append, List.forall_mem_cons] at hread
  have hsorted := (rising_readAll (lines text)).2
  rw [hlines, List.pairwise_append, List.pairwise_cons] at hsorted
  have hbefore : ∀ line ∈ front, line.index < p.2.index := fun line hline ↦
    hsorted.2.2 line hline p.2 List.mem_cons_self
  have hlayered : Layered p.2.index p.1.parts := by
    rw [hreached]
    exact layered_foldl_track hread.1 hsorted.1 hbefore
  have hfront : startingAt p.2.index (empties .start front) = [] :=
    startingAt_empties_eq_nil hread.1 (fun _ ha ↦ absurd ha List.not_mem_nil)
      fun line hline ↦ (hbefore line hline).ne
  have hself : startingAt p.2.index (withCodes ["empty-block"] (p.1.step p.2).2) = [] :=
    startingAt_step_eq_nil hread.2.1 fun a ha h ↦ absurd h (hlayered.within a ha).2.ne
  have hsplit : empties .start (readAll (lines text)) =
      empties .start front ++ empties p.1 (p.2 :: back) := by
    rw [empties, empties, empties, hlines, states_append, List.flatMap_append, ← hreached]
  refine ⟨back, hread.2.2, hsorted.2.1, hlayered, ?_, hback⟩
  rw [hsplit, startingAt_append, hfront, startingAt_empties_cons, hself, List.nil_append,
    List.nil_append]

/-- Nothing is reported on a line where no segment of a control block begins. -/
theorem startingAt_document_eq_nil (hp : p ∈ pass text)
    (h : ∀ a, begun? p = some a → a.block.isControl = false) :
    startingAt p.2.index (empties .start (readAll (lines text))) = [] := by
  obtain ⟨back, hread, hrising, hlayered, hback, -⟩ := exists_back_of_mem_pass hp
  have hlater : ∀ line ∈ back, line.index ≠ p.2.index := fun line hline ↦
    Nat.ne_of_gt (hrising.1 line hline)
  rw [hback]
  refine startingAt_empties_eq_nil hread ?_ hlater
  intro a ha hindex
  obtain hbegun | ⟨b, hb, -, hold⟩ := begun?_or_of_mem_parts_track (readIn_of_mem_pass hp) ha
  · exact h a hbegun
  · exact absurd (hold ▸ hindex) (hlayered.within b hb).2.ne

/-- The segment that begins on a line is reported if it may not be empty and ends without content. -/
theorem startingAt_document (hp : p ∈ pass text) {a : Part} (hbegun : begun? p = some a) :
    startingAt p.2.index (empties .start (readAll (lines text))) =
      if EndsEmpty text p a then [⟨p.2.codeSpan, .emptyBlock a.segment.label a.segment.isBranch⟩]
      else [] := by
  cases hcontrol : a.block.isControl with
  | true =>
    obtain ⟨back, hread, hrising, hlayered, hback, hmem⟩ := exists_back_of_mem_pass hp
    have hline := readIn_of_mem_pass hp
    have ha := (mem_parts_track_of_begun? hline hbegun).resolve_right (by simp [hcontrol])
    have hrun := startingAt_empties hread hrising (layered_track hline hlayered) ha hcontrol
    rw [line_of_begun? hbegun, verdict_of_begun? hbegun, ← ite_and] at hrun
    simp only [hback, hrun, endsEmpty_iff a hmem]
  | false =>
    have hnot : ¬ EndsEmpty text p a := fun h ↦ by simp [h.1] at hcontrol
    rw [if_neg hnot]
    apply startingAt_document_eq_nil hp
    intro b hb
    rwa [← Option.some.inj (hbegun.symm.trans hb)]

/-- What is reported about empty blocks is reported on lines of the document. -/
theorem exists_mem_pass_of_mem_empties {d : Diagnostic}
    (hd : d ∈ empties .start (readAll (lines text))) :
    ∃ p ∈ pass text, d.range.start.line = p.2.index := by
  by_contra hnowhere
  have hlines : ∀ line ∈ readAll (lines text), line.index ≠ d.range.start.line := by
    intro line hline hindex
    obtain ⟨t, hp⟩ := exists_mem_states track .start hline
    exact hnowhere ⟨(t, line), hp, hindex.symm⟩
  have hempty := startingAt_empties_eq_nil (fun _ ↦ readIn_of_mem)
    (fun _ ha ↦ absurd ha List.not_mem_nil) hlines (t := .start)
  rw [startingAt, List.filter_eq_nil_iff] at hempty
  exact hempty d hd (beq_self_eq_true _)

end

/-- On every line the segment that begins there is reported, once, if it may not be empty and ends
without content. Nothing else is reported as empty. -/
theorem empty_segments_reported {o : Options} (henabled : o.isEnabled "empty-block") (text : Text)
    (others : List DocumentOutline) :
    let report := validate o text others
    (∀ p ∈ pass text,
      (∀ a, begun? p = some a →
        reportedAt "empty-block" p.2 report =
          if EndsEmpty text p a then [⟨p.2.codeSpan, .emptyBlock a.segment.label a.segment.isBranch⟩]
          else []) ∧
      (begun? p = none → reportedAt "empty-block" p.2 report = [])) ∧
    ∀ d ∈ withCodes ["empty-block"] report, ∃ p ∈ pass text, d.range.start.line = p.2.index := by
  intro report
  have hreport : withCodes ["empty-block"] report =
      sortByStart (empties .start (readAll (lines text))) :=
    withCodes_block_validate (by simp [blockCodes]) henabled text others
  have hat (line : SourceLine) : reportedAt "empty-block" line report =
      sortByStart (startingAt line.index (empties .start (readAll (lines text)))) := by
    rw [reportedAt, hreport, filter_sortByStart]
    rfl
  refine ⟨fun p hp ↦ ⟨fun a hbegun ↦ ?_, fun hnone ↦ ?_⟩, fun d hd ↦ ?_⟩
  · rw [hat, startingAt_document hp hbegun]
    split
    · exact List.mergeSort_singleton _
    · exact List.mergeSort_nil
  · rw [hat, startingAt_document_eq_nil hp fun a hbegun ↦ by cases hnone.symm.trans hbegun]
    exact List.mergeSort_nil
  · rw [hreport, sortByStart, List.mem_mergeSort] at hd
    exact exists_mem_pass_of_mem_empties hd

/-- A selection whose first case is empty. Inside the second one stands a loop, and inside the loop
only a closing statement that does not fit it. -/
def nestedSegments : Text :=
  "Sub S()\nSelect Case x\nCase 1\nCase 2\nWhile y\nEnd If\nEnd While\nEnd Select\nEnd Sub".toList

theorem empty_segments_reported_nestedSegments :
    Options.standard.isEnabled "empty-block" ∧
    (∃ p ∈ pass nestedSegments, p.2.index = 1 ∧
      reportedAt "empty-block" p.2 (validate .standard nestedSegments []) = []) ∧
    (∃ p ∈ pass nestedSegments, p.2.index = 2 ∧
      reportedAt "empty-block" p.2 (validate .standard nestedSegments []) =
        [⟨.onLine 2 0 6, .emptyBlock "Case" true⟩]) ∧
    (∃ p ∈ pass nestedSegments, p.2.index = 3 ∧
      reportedAt "empty-block" p.2 (validate .standard nestedSegments []) = []) ∧
    ∃ p ∈ pass nestedSegments, p.2.index = 4 ∧
      reportedAt "empty-block" p.2 (validate .standard nestedSegments []) =
        [⟨.onLine 4 0 7, .emptyBlock "While" false⟩] := by
  have henabled : Options.standard.isEnabled "empty-block" := by decide
  have hreported := (empty_segments_reported henabled nestedSegments []).1
  have hsegments (expected : List (Nat × Range × String × Bool × Bool))
      (h : ∀ e ∈ expected, ∃ p ∈ pass nestedSegments, p.2.index = e.1 ∧ p.2.codeSpan = e.2.1 ∧
        (begun? p).any fun a ↦ a.segment.label == e.2.2.1 && a.segment.isBranch == e.2.2.2.1 &&
          decide (EndsEmpty nestedSegments p a) == e.2.2.2.2) :
      ∀ e ∈ expected, ∃ p ∈ pass nestedSegments, p.2.index = e.1 ∧
        reportedAt "empty-block" p.2 (validate .standard nestedSegments []) =
          if e.2.2.2.2 then [⟨e.2.1, .emptyBlock e.2.2.1 e.2.2.2.1⟩] else [] := by
    rintro ⟨i, span, label, isBranch, isEmpty⟩ he
    obtain ⟨p, hp, hindex, hspan, hbegun⟩ := h _ he
    refine ⟨p, hp, hindex, ?_⟩
    cases ha : begun? p with
    | none => simp [ha] at hbegun
    | some a =>
      simp only [ha, Option.any_some, Bool.and_eq_true, beq_iff_eq] at hbegun
      obtain ⟨⟨rfl, rfl⟩, rfl⟩ := hbegun
      rw [(hreported p hp).1 a ha, hspan]
      simp only [decide_eq_true_eq]
  have hall := hsegments
    [(1, .onLine 1 0 13, "Select", false, false), (2, .onLine 2 0 6, "Case", true, true),
      (3, .onLine 3 0 6, "Case", true, false), (4, .onLine 4 0 7, "While", false, true)]
    (by decide +kernel)
  simp only [List.forall_mem_cons] at hall
  exact ⟨henabled, hall.1, hall.2.1, hall.2.2.1, hall.2.2.2.1⟩

end VbOutline.Check
