import Mathlib.Data.List.Induction
import VbOutline.Proofs.Check.Completion
import VbOutline.Proofs.Check.Turns

/-!
# Statements that cannot be reached

After a statement that leaves its block the statements that follow on the same level are reported.
The check keeps a mark for each level of open blocks. All of these marks together amount to a single
one, which such a statement sets and which is cleared wherever a block is opened, closed or goes on
with another branch: a level that comes back into view has been left through one of these, and none
of the marks below the innermost level is ever set. So a statement is reported if and only if some
earlier line leaves its block and no block begins, ends or branches between the two lines. Closing
statements that fit no block, headers of members without a body and branches outside of control
blocks make no difference.
-/

namespace VbOutline.Check

open Text SourceLine

/-- A block begins, ends or goes on with another branch. -/
def isBoundary (p : Tracker × SourceLine) : Bool := opens p || pops p || branches p

theorem isBoundary_eq (t : Tracker) (line : SourceLine) : isBoundary (t, line) =
    ((t.role line).opens || (t.role line).pops || (t.role line).branches) := rfl

namespace Tracker

@[simp]
theorem atDeadEnd_setDead (t : Tracker) (dead : Bool) : (t.setDead dead).atDeadEnd = dead := by
  obtain ⟨_ | _, _⟩ := t <;> rfl

@[simp]
theorem atDeadEnd_markContent (t : Tracker) : t.markContent.atDeadEnd = t.atDeadEnd := by
  obtain ⟨_ | _, _⟩ := t <;> rfl

@[simp]
theorem atDeadEnd_push (t : Tracker) (block : Block) (line : SourceLine) :
    (t.push block line).atDeadEnd = false := rfl

theorem atDeadEnd_simple (t : Tracker) (line : SourceLine) (leaves : Bool) :
    (t.simple line leaves).1.atDeadEnd = (t.atDeadEnd || leaves) := by
  cases leaves <;> simp [simple]

theorem simple_snd (t : Tracker) (line : SourceLine) (leaves : Bool) :
    (t.simple line leaves).2 =
      if t.atDeadEnd then [⟨line.codeSpan, .unreachableCode⟩] else [] := by
  simp [simple]

end Tracker

/-- What is reported about reachability at a line. -/
def cutOff (p : Tracker × SourceLine) : List Diagnostic :=
  if isStatement p.2 && p.1.atDeadEnd then [⟨p.2.codeSpan, .unreachableCode⟩] else []

theorem line_of_mem_cutOff {p : Tracker × SourceLine} {d : Diagnostic} (hd : d ∈ cutOff p) :
    d.range.start.line = p.2.index := by
  rw [cutOff, List.mem_ite_nil_right, List.mem_singleton] at hd
  rw [hd.2]
  rfl

/-- What one line does to the mark of its level, and what is reported at it. -/
theorem atDeadEnd_step {rows : List Text} {line : SourceLine} (hread : line.ReadIn rows)
    (t : Tracker) :
    (track t line).atDeadEnd = (!isBoundary (t, line) && (t.atDeadEnd || leavesBlock line)) ∧
      withCodes ["unreachable-code"] (t.step line).2 = cutOff (t, line) := by
  have hstates : isStatement line = (t.role line).states := isStatement_eq_isSimple hread
  have hleaves := @Tracker.leavesBlock_eq_false t line
  have hempty (frame : Frame) : withCodes ["unreachable-code"] (Tracker.emptySegment frame) = [] :=
    (Tracker.codesIn_emptySegment frame).withCodes_eq_nil (by simp)
  rw [track, cutOff, isBoundary_eq, hstates]
  have hturn := t.turn_step line
  generalize t.step line = result at hturn ⊢
  cases hturn with
  | closes stack closed role => simp [role, hempty]
  | branches statement stack control role => simp [role, hempty, Tracker.atDeadEnd]
  | misfits closed other codes role =>
    simp [role, hleaves (by rw [role]), codes.withCodes_eq_nil]
  | opensRegion statement role => simp [role]
  | opens opened role => simp [role]
  | declares opened role => simp [role, hleaves (by rw [role])]
  | states role =>
    rw [role, t.atDeadEnd_simple, (t.codesIn_simple line _).withCodes_eq_self (List.Subset.refl _),
      t.simple_snd]
    simp
  | passes statement outside role => simp [role, hleaves (by rw [role])]
  | idles statement role => simp [role, hleaves (by rw [role])]

/-- A line that leaves its block is no boundary. -/
theorem isBoundary_eq_false_of_leavesBlock {line : SourceLine} (h : leavesBlock line)
    (t : Tracker) : isBoundary (t, line) = false := by
  rw [isBoundary_eq, t.role_eq]
  unfold leavesBlock at h
  split at h
  · next hs => rw [hs]; rfl
  · cases h

section

variable {text : Text} {front back : List (Tracker × SourceLine)} {p q : Tracker × SourceLine}

theorem readIn_of_mem_pass (hp : p ∈ pass text) : p.2.ReadIn (lines text) :=
  readIn_of_mem (mem_of_mem_states hp)

theorem pass_rises (text : Text) : (pass text).Pairwise fun a b ↦ a.2.index < b.2.index := by
  have hlines := (rising_readAll (lines text)).2
  rwa [← map_snd_states track .start (readAll (lines text)), List.pairwise_map] at hlines

/-- What comes before a line and after it is told by the numbers of the lines. -/
theorem mem_of_pass_eq (h : pass text = front ++ q :: back) :
    (∀ p, p ∈ front ↔ p ∈ pass text ∧ p.2.index < q.2.index) ∧
      ∀ p, p ∈ back ↔ p ∈ pass text ∧ q.2.index < p.2.index := by
  have hrises := pass_rises text
  rw [h, List.pairwise_append, List.pairwise_cons] at hrises
  obtain ⟨-, ⟨hback, -⟩, hfront⟩ := hrises
  constructor
  · intro p
    rw [h, List.mem_append, List.mem_cons]
    constructor
    · exact fun hp ↦ ⟨.inl hp, hfront p hp q List.mem_cons_self⟩
    · rintro ⟨hp | rfl | hp, hlt⟩
      · exact hp
      · exact absurd hlt (Nat.lt_irrefl _)
      · exact absurd hlt (Nat.lt_asymm (hback p hp))
  · intro p
    rw [h, List.mem_append, List.mem_cons]
    constructor
    · exact fun hp ↦ ⟨.inr (.inr hp), hback p hp⟩
    · rintro ⟨hp | rfl | hp, hlt⟩
      · exact absurd hlt (Nat.lt_asymm (hfront p hp q List.mem_cons_self))
      · exact absurd hlt (Nat.lt_irrefl _)
      · exact hp

/-- A line parts the lines of the document. What the tracker comes to before and after it is told by
the numbers of the lines. -/
theorem exists_lines_around (hq : q ∈ pass text) :
    ∃ front back, readAll (lines text) = front ++ q.2 :: back ∧ q.1 = front.foldl track .start ∧
      (∀ p, p ∈ states track .start front ↔ p ∈ pass text ∧ p.2.index < q.2.index) ∧
      ∀ p, p ∈ states track (track q.1 q.2) back ↔ p ∈ pass text ∧ q.2.index < p.2.index := by
  obtain ⟨front, back, hlines, hreached⟩ := exists_append_of_mem_states hq
  have hpass : pass text =
      states track .start front ++ q :: states track (track q.1 q.2) back := by
    rw [pass, hlines, states_append, states_cons, ← hreached]
  exact ⟨front, back, hlines, hreached, mem_of_pass_eq hpass⟩

end

/-! ## The mark and the lines before it -/

/-- Some line before this one leaves its block, and no block begins, ends or branches in between. -/
def IsCutOff (text : Text) (q : Tracker × SourceLine) : Prop :=
  ∃ p ∈ pass text, p.2.index < q.2.index ∧ leavesBlock p.2 ∧
    ∀ r ∈ pass text, p.2.index < r.2.index → r.2.index < q.2.index → isBoundary r = false

instance (text : Text) (q : Tracker × SourceLine) : Decidable (IsCutOff text q) :=
  inferInstanceAs (Decidable (∃ p ∈ pass text, p.2.index < q.2.index ∧ leavesBlock p.2 ∧
    ∀ r ∈ pass text, p.2.index < r.2.index → r.2.index < q.2.index → isBoundary r = false))

/-- The mark that the tracker has after some lines, all marks of outer levels put aside. -/
theorem atDeadEnd_foldl_track {rows : List Text} {lines : List SourceLine}
    (hread : ∀ line ∈ lines, line.ReadIn rows) (hrising : Rising 0 lines) :
    (lines.foldl track .start).atDeadEnd ↔
      ∃ p ∈ states track .start lines, leavesBlock p.2 ∧
        ∀ r ∈ states track .start lines, p.2.index < r.2.index → isBoundary r = false := by
  induction lines using List.reverseRecOn with
  | nil => simp [Tracker.start, Tracker.atDeadEnd]
  | append_singleton lines line ih =>
    obtain ⟨hsorted, -, hlast⟩ := List.pairwise_append.1 hrising.2
    rw [List.forall_mem_append, List.forall_mem_singleton] at hread
    have hbefore : ∀ p ∈ states track .start lines, p.2.index < line.index := by
      intro p hp
      exact hlast p.2 (mem_of_mem_states hp) line (List.mem_singleton_self line)
    have ih := ih hread.1 ⟨fun _ _ ↦ Nat.zero_le _, hsorted⟩
    generalize hreached : lines.foldl track .start = t at ih
    have hstates : states track .start (lines ++ [line]) =
        states track .start lines ++ [(t, line)] := by
      rw [states_append, states_cons, states_nil, hreached]
    rw [List.foldl_append, List.foldl_cons, List.foldl_nil, hreached,
      (atDeadEnd_step hread.2 t).1, hstates]
    simp only [Bool.and_eq_true, Bool.not_eq_true', Bool.or_eq_true, List.forall_mem_append,
      List.forall_mem_singleton, ih]
    constructor
    · rintro ⟨hboundary, ⟨p, hp, hleaves, hclear⟩ | hleaves⟩
      · exact ⟨p, List.mem_append_left _ hp, hleaves, hclear, fun _ ↦ hboundary⟩
      · refine ⟨(t, line), List.mem_append_right _ (List.mem_singleton_self _), hleaves, ?_, ?_⟩
        · exact fun r hr hlt ↦ absurd hlt (Nat.lt_asymm (hbefore r hr))
        · exact fun hlt ↦ absurd hlt (Nat.lt_irrefl _)
    · rintro ⟨p, hp, hleaves, hclear, hboundary⟩
      obtain hp | hp := List.mem_append.1 hp
      · exact ⟨hboundary (hbefore p hp), .inl ⟨p, hp, hleaves, hclear⟩⟩
      · obtain rfl := List.mem_singleton.1 hp
        exact ⟨isBoundary_eq_false_of_leavesBlock hleaves t, .inr hleaves⟩

theorem atDeadEnd_iff_isCutOff {text : Text} {q : Tracker × SourceLine} (hq : q ∈ pass text) :
    q.1.atDeadEnd ↔ IsCutOff text q := by
  obtain ⟨front, back, hlines, hreached, hmem, -⟩ := exists_lines_around hq
  have hinitial : front <+: readAll (lines text) := ⟨q.2 :: back, hlines.symm⟩
  have hrising : Rising 0 front :=
    ⟨fun _ _ ↦ Nat.zero_le _, (rising_readAll (lines text)).2.sublist hinitial.sublist⟩
  have hread : ∀ line ∈ front, line.ReadIn (lines text) := fun line hline ↦
    readIn_of_mem (hinitial.subset hline)
  rw [hreached, atDeadEnd_foldl_track hread hrising, IsCutOff]
  simp only [hmem]
  constructor
  · rintro ⟨p, ⟨hp, hlt⟩, hleaves, hclear⟩
    exact ⟨p, hp, hlt, hleaves, fun r hr hafter hbefore ↦ hclear r ⟨hr, hbefore⟩ hafter⟩
  · rintro ⟨p, hp, hlt, hleaves, hclear⟩
    exact ⟨p, ⟨hp, hlt⟩, hleaves, fun r hr hafter ↦ hclear r hr.1 hafter hr.2⟩

/-! ## Reports -/

/-- The diagnostics with a code that start on a line. -/
def reportedAt (code : String) (line : SourceLine) (report : List Diagnostic) : List Diagnostic :=
  (withCodes [code] report).filter fun d ↦ d.range.start.line == line.index

/-- What has a code of the blocks comes from the steps of the tracker. -/
theorem withCodes_block_validate {o : Options} {code : String} (hcode : code ∈ blockCodes)
    (henabled : o.isEnabled code) (text : Text) (others : List DocumentOutline) :
    withCodes [code] (validate o text others) =
      sortByStart ((pass text).flatMap fun p ↦ withCodes [code] (p.1.step p.2).2) := by
  have hother {own : List String} (h : blockCodes.all fun c ↦ !own.contains c) {ds : List Diagnostic}
      (hds : CodesIn own ds) : withCodes [code] ds = [] := by
    apply hds.withCodes_eq_nil
    intro c hc hmem
    have hnot := List.all_eq_true.1 h code hcode
    rw [← List.mem_singleton.1 hmem] at hnot
    simp [hc] at hnot
  have hline (t : Tracker) (line : SourceLine) :
      withCodes [code] (atLine o.maxLineLength t line) = withCodes [code] (t.step line).2 := by
    rw [atLine, withCodes_append, hother (by decide) (codesIn_line _ _ line), List.nil_append]
  have hfindings : withCodes [code] (findings o.maxLineLength text others) =
      (pass text).flatMap fun p ↦ withCodes [code] (p.1.step p.2).2 := by
    rw [findings, withCodes_append, withCodes_append, withCodes_append,
      hother (by decide) (codesIn_unusedVariables _ _),
      hother (by decide) (codesIn_missingMembers _ _), hother (by decide) (codesIn_duplicates _ _),
      walk, withCodes_append, hother (by decide) (Tracker.codesIn_finish _), withCodes_flatMap]
    simp only [hline, List.append_nil]
    rfl
  rw [withCodes_validate_of_isEnabled henabled, hfindings]

/-- A statement is reported as unreachable, once, if some line before it leaves its block and no block
begins, ends or branches in between. This is what the marks of all levels together amount to. Nothing
else is reported as unreachable. -/
theorem unreachable_reported {o : Options} (henabled : o.isEnabled "unreachable-code") (text : Text)
    (others : List DocumentOutline) :
    let report := validate o text others
    (∀ q ∈ pass text,
      (q.1.atDeadEnd ↔ IsCutOff text q) ∧
      reportedAt "unreachable-code" q.2 report =
        if isStatement q.2 ∧ IsCutOff text q then [⟨q.2.codeSpan, .unreachableCode⟩] else []) ∧
    ∀ d ∈ withCodes ["unreachable-code"] report, ∃ q ∈ pass text, d.range.start.line = q.2.index := by
  intro report
  have hreport : withCodes ["unreachable-code"] report =
      sortByStart ((pass text).flatMap cutOff) := by
    rw [withCodes_block_validate (by simp [blockCodes]) henabled,
      List.flatMap_congr fun p hp ↦ (atDeadEnd_step (readIn_of_mem_pass hp) p.1).2]
  refine ⟨fun q hq ↦ ⟨atDeadEnd_iff_isCutOff hq, ?_⟩, ?_⟩
  · have hat := filter_flatMap_of_mem (fun (p : Tracker × SourceLine) d ↦ line_of_mem_cutOff)
      ((pass_rises text).imp Nat.ne_of_lt) hq
    have hcut : isStatement q.2 && q.1.atDeadEnd ↔ isStatement q.2 ∧ IsCutOff text q := by
      rw [Bool.and_eq_true, atDeadEnd_iff_isCutOff hq]
    rw [reportedAt, hreport, filter_sortByStart, hat, cutOff]
    simp only [hcut]
    split
    · exact List.mergeSort_singleton _
    · exact List.mergeSort_nil
  · intro d hd
    rw [hreport, sortByStart, List.mem_mergeSort] at hd
    obtain ⟨q, hq, hd⟩ := List.mem_flatMap.1 hd
    exact ⟨q, hq, line_of_mem_cutOff hd⟩

/-- A closing statement that fits no block and a branch outside of a control block, both behind a
statement that leaves its block. -/
def strayClosing : Text :=
  "Sub S()\nReturn\nEnd If\nElse\nGo()\nIf x Then\nGo()\nEnd If\nGo()\nEnd Sub".toList

theorem unreachable_reported_strayClosing :
    Options.standard.isEnabled "unreachable-code" ∧
    (∃ q ∈ pass strayClosing, q.2.index = 4 ∧
      reportedAt "unreachable-code" q.2 (validate .standard strayClosing []) =
        [⟨.onLine 4 0 4, .unreachableCode⟩]) ∧
    ∃ q ∈ pass strayClosing, q.2.index = 8 ∧
      reportedAt "unreachable-code" q.2 (validate .standard strayClosing []) = [] := by
  have henabled : Options.standard.isEnabled "unreachable-code" := by decide
  have hreported := (unreachable_reported henabled strayClosing []).1
  have hbefore : ∃ q ∈ pass strayClosing, q.2.index = 4 ∧ q.2.codeSpan = .onLine 4 0 4 ∧
      isStatement q.2 ∧ IsCutOff strayClosing q := by decide +kernel
  have hafter : ∃ q ∈ pass strayClosing, q.2.index = 8 ∧ ¬ IsCutOff strayClosing q := by
    decide +kernel
  obtain ⟨q, hq, hindex, hspan, hcut⟩ := hbefore
  obtain ⟨r, hr, hlast, hreached⟩ := hafter
  refine ⟨henabled, ⟨q, hq, hindex, ?_⟩, r, hr, hlast, ?_⟩
  · rw [(hreported q hq).2, if_pos hcut, hspan]
  · rw [(hreported r hr).2, if_neg fun h ↦ hreached h.2]

end VbOutline.Check
