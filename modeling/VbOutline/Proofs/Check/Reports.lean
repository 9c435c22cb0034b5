import VbOutline.Check

/-!
# Reports restricted to some codes

Each code belongs to one of the checks, so a report restricted to some codes depends only on the
checks that these belong to. Ordering by start is stable, and it therefore makes no difference
whether a report is restricted before or after it is ordered.
-/

namespace VbOutline

namespace Position

theorem le_trans {a b c : Position} (hab : a.le b) (hbc : b.le c) : a.le c := by
  simp only [le, Bool.or_eq_true, Bool.and_eq_true, decide_eq_true_eq, beq_iff_eq] at *
  omega

theorem le_total (a b : Position) : a.le b || b.le a := by
  simp only [le, Bool.or_eq_true, Bool.and_eq_true, decide_eq_true_eq, beq_iff_eq]
  omega

end Position

namespace Check

open Text

/-- A list splits in one way only into elements with a property and, after them, elements without
it. -/
theorem split_unique {α : Type} {p : α → Bool} {front back front' back' : List α}
    (h : front ++ back = front' ++ back') (hfront : ∀ x ∈ front, p x) (hback : ∀ x ∈ back, ¬ p x)
    (hfront' : ∀ x ∈ front', p x) (hback' : ∀ x ∈ back', ¬ p x) : front = front' ∧ back = back' := by
  have hnone {xs : List α} (hxs : ∀ x ∈ xs, ¬ p x) : xs.takeWhile p = [] := by
    cases xs with
    | nil => rfl
    | cons x xs => exact List.takeWhile_cons_of_neg (hxs x List.mem_cons_self)
  have htake := congrArg (List.takeWhile p) h
  rw [List.takeWhile_append_of_pos hfront, List.takeWhile_append_of_pos hfront', hnone hback,
    hnone hback', List.append_nil, List.append_nil] at htake
  rw [htake] at h
  exact ⟨htake, List.append_cancel_left h⟩

/-- A stable order commutes with selecting elements. -/
theorem filter_mergeSort {α : Type} {le : α → α → Bool} (htrans : ∀ a b c, le a b → le b c → le a c)
    (htotal : ∀ a b, le a b || le b a) (p : α → Bool) (xs : List α) :
    (xs.mergeSort le).filter p = (xs.filter p).mergeSort le := by
  induction xs with
  | nil => simp
  | cons x xs ih =>
    obtain ⟨front, back, hsort, hrest, hfront⟩ := List.mergeSort_cons htrans htotal x xs
    rw [hrest, List.filter_append] at ih
    rw [hsort, List.filter_append]
    by_cases hx : p x
    · rw [List.filter_cons_of_pos hx, List.filter_cons_of_pos hx]
      obtain ⟨front', back', hsort', hrest', hfront'⟩ :=
        List.mergeSort_cons htrans htotal x (xs.filter p)
      -- `x` goes behind what does not come after it, in `xs` as in the selected elements
      have hbehind {ys front back : List α} (hys : (x :: ys).mergeSort le = front ++ x :: back) :
          ∀ y ∈ back, ¬ (!le x y) := by
        have hsorted := List.pairwise_mergeSort htrans htotal (x :: ys)
        rw [hys, List.pairwise_append, List.pairwise_cons] at hsorted
        simpa using hsorted.2.1.1
      obtain ⟨rfl, rfl⟩ := split_unique (ih.trans hrest')
        (fun y hy ↦ hfront y (List.mem_filter.1 hy |>.1))
        (fun y hy ↦ hbehind hsort y (List.mem_filter.1 hy |>.1)) hfront' (hbehind hsort')
      rw [hsort']
    · rw [List.filter_cons_of_neg hx, List.filter_cons_of_neg hx, ih]

theorem filter_sortByStart (p : Diagnostic → Bool) (ds : List Diagnostic) :
    (sortByStart ds).filter p = sortByStart (ds.filter p) := by
  apply filter_mergeSort
  · intro a b c
    exact Position.le_trans
  · intro a b
    exact Position.le_total a.range.start b.range.start

/-- The diagnostics with one of the codes. -/
def withCodes (codes : List String) (ds : List Diagnostic) : List Diagnostic :=
  ds.filter fun d ↦ codes.contains d.code

/-- All diagnostics have one of the codes. -/
def CodesIn (own : List String) (ds : List Diagnostic) : Prop := ∀ d ∈ ds, d.code ∈ own

section

variable {codes own : List String} {ds : List Diagnostic}

@[simp]
theorem withCodes_nil : withCodes codes [] = [] := rfl

@[simp]
theorem withCodes_append (left right : List Diagnostic) :
    withCodes codes (left ++ right) = withCodes codes left ++ withCodes codes right :=
  List.filter_append left right

theorem withCodes_flatMap {α : Type} (xs : List α) (f : α → List Diagnostic) :
    withCodes codes (xs.flatMap f) = xs.flatMap fun x ↦ withCodes codes (f x) :=
  List.filter_flatMap

theorem withCodes_withCodes {more : List String} (h : codes ⊆ more) (ds : List Diagnostic) :
    withCodes codes (withCodes more ds) = withCodes codes ds := by
  rw [withCodes, withCodes, List.filter_filter]
  apply List.filter_congr
  intro d _
  rw [Bool.and_eq_left_iff_imp, List.contains_iff_mem, List.contains_iff_mem]
  exact fun hd ↦ h hd

@[simp]
theorem codesIn_nil : CodesIn own [] := by simp [CodesIn]

@[simp]
theorem codesIn_singleton (d : Diagnostic) : CodesIn own [d] ↔ d.finding.code ∈ own :=
  List.forall_mem_singleton

@[simp]
theorem codesIn_append (left right : List Diagnostic) :
    CodesIn own (left ++ right) ↔ CodesIn own left ∧ CodesIn own right :=
  List.forall_mem_append

theorem codesIn_flatMap {α : Type} {xs : List α} {f : α → List Diagnostic}
    (h : ∀ x ∈ xs, CodesIn own (f x)) : CodesIn own (xs.flatMap f) := by
  intro d hd
  obtain ⟨x, hx, hd⟩ := List.mem_flatMap.1 hd
  exact h x hx d hd

theorem CodesIn.mono {more : List String} (h : CodesIn own ds) (hmore : own ⊆ more) :
    CodesIn more ds := fun d hd ↦ hmore (h d hd)

theorem codesIn_withCodes (ds : List Diagnostic) : CodesIn codes (withCodes codes ds) := by
  intro d hd
  rw [withCodes, List.mem_filter, List.contains_iff_mem] at hd
  exact hd.2

/-- Two selections of codes agree on diagnostics for whose codes they do. -/
theorem CodesIn.withCodes_congr {other : List String} (h : CodesIn own ds)
    (hcodes : ∀ code ∈ own, (code ∈ codes ↔ code ∈ other)) :
    withCodes codes ds = withCodes other ds := by
  rw [withCodes, withCodes]
  apply List.filter_congr
  intro d hd
  rw [Bool.eq_iff_iff, List.contains_iff_mem, List.contains_iff_mem]
  exact hcodes d.code (h d hd)

theorem CodesIn.withCodes_eq_nil (h : CodesIn own ds) (hcodes : ∀ code ∈ own, code ∉ codes) :
    withCodes codes ds = [] := by
  rw [withCodes, List.filter_eq_nil_iff]
  intro d hd
  simpa using hcodes d.code (h d hd)

theorem CodesIn.withCodes_eq_self (h : CodesIn own ds) (hcodes : own ⊆ codes) :
    withCodes codes ds = ds := by
  rw [withCodes, List.filter_eq_self]
  intro d hd
  simpa using hcodes (h d hd)

end

/-! ## The codes of the checks -/

def lineCodes : List String :=
  ["line-too-long", "todo-comment", "magic-number", "missing-then", "untyped-variable",
    "uninitialized-const", "naming-convention", "missing-return-type"]

/-- The codes of what the check of the blocks reports at a line. -/
def blockCodes : List String :=
  ["mismatched-block", "unexpected-closing", "unreachable-code", "empty-block"]

theorem codesIn_declarator (around : Surroundings) (line : SourceLine) (d : Declaration)
    (x : Declarator) : CodesIn lineCodes (declarator around line d x) := by
  simp only [declarator]
  split
  · split <;> simp [lineCodes, Finding.code]
  · rw [codesIn_append]
    constructor
    · split <;> simp [lineCodes, Finding.code]
    · split <;> simp [lineCodes, Finding.code]

theorem codesIn_statement (around : Surroundings) (line : SourceLine) :
    CodesIn lineCodes (statement around line) := by
  unfold statement
  split
  · unfold condition
    split <;> simp [lineCodes, Finding.code]
  · exact codesIn_flatMap fun x _ ↦ codesIn_declarator around line _ x
  · unfold returnType
    split <;> simp [lineCodes, Finding.code]
  · exact codesIn_nil

theorem codesIn_length (limit : Nat) (line : SourceLine) :
    CodesIn ["line-too-long"] (length limit line) := by
  simp only [length]
  split <;> simp [Finding.code]

theorem codesIn_todo (line : SourceLine) : CodesIn ["todo-comment"] (todo line) := by
  unfold todo
  split <;> simp [Finding.code]

theorem codesIn_line (limit : Nat) (around : Surroundings) (line : SourceLine) :
    CodesIn lineCodes (Check.line limit around line) := by
  have hlength : CodesIn lineCodes (length limit line) :=
    (codesIn_length limit line).mono (by simp [lineCodes])
  have htodo : CodesIn lineCodes (todo line) := (codesIn_todo line).mono (by simp [lineCodes])
  have hnumbers : CodesIn lineCodes (magicNumbers line) := by
    intro d hd
    obtain ⟨_, _, rfl⟩ := List.mem_map.1 hd
    simp [lineCodes, Diagnostic.code, Finding.code]
  have hstatement := codesIn_statement around line
  rw [Check.line]
  split <;> simp [hlength, htodo, hnumbers, hstatement]

namespace Tracker

theorem codesIn_emptySegment (frame : Frame) : CodesIn ["empty-block"] (emptySegment frame) := by
  simp only [emptySegment]
  split <;> simp [Finding.code]

theorem codesIn_close (t : Tracker) (line : SourceLine) (e : BlockEnd) :
    CodesIn blockCodes (t.close line e).2 := by
  have hempty (frame : Frame) : CodesIn blockCodes (emptySegment frame) :=
    (codesIn_emptySegment frame).mono (by simp [blockCodes])
  unfold close
  split
  · simp [blockCodes, Finding.code]
  · split
    · exact hempty _
    · simp [blockCodes, Finding.code]

theorem codesIn_branch (t : Tracker) (line : SourceLine) (b : Branch) :
    CodesIn ["empty-block"] (t.branch line b).2 := by
  unfold branch
  split
  · exact codesIn_nil
  · split
    · exact codesIn_emptySegment _
    · exact codesIn_nil

theorem codesIn_simple (t : Tracker) (line : SourceLine) (leaves : Bool) :
    CodesIn ["unreachable-code"] (t.simple line leaves).2 := by
  simp only [simple]
  split <;> simp [Finding.code]

theorem codesIn_step (t : Tracker) (line : SourceLine) : CodesIn blockCodes (t.step line).2 := by
  have hsimple (leaves : Bool) : CodesIn blockCodes (t.simple line leaves).2 :=
    (t.codesIn_simple line leaves).mono (by simp [blockCodes])
  unfold step
  split
  · exact codesIn_nil
  · exact codesIn_nil
  · exact t.codesIn_close line _
  · exact codesIn_nil
  · exact codesIn_nil
  · split
    · exact hsimple false
    · exact codesIn_nil
  · exact (t.codesIn_branch line _).mono (by simp [blockCodes])
  · exact hsimple _
  · exact hsimple false
  · exact hsimple false
  · exact hsimple false

theorem codesIn_finish (t : Tracker) : CodesIn ["missing-closing"] t.finish := by
  intro d hd
  obtain ⟨_, _, rfl⟩ := List.mem_map.1 hd
  simp [Diagnostic.code, Finding.code]

end Tracker

theorem codesIn_atLine (limit : Nat) (t : Tracker) (line : SourceLine) :
    CodesIn (lineCodes ++ blockCodes) (atLine limit t line) := by
  rw [atLine, codesIn_append]
  exact ⟨(codesIn_line limit _ line).mono (List.subset_append_left _ _),
    (t.codesIn_step line).mono (List.subset_append_right _ _)⟩

theorem codesIn_walk (limit : Nat) (lines : List SourceLine) :
    CodesIn ("missing-closing" :: (lineCodes ++ blockCodes)) (walk limit lines) := by
  rw [walk, codesIn_append]
  exact ⟨codesIn_flatMap fun p _ ↦ (codesIn_atLine limit p.1 p.2).mono (List.subset_cons_self _ _),
    (Tracker.codesIn_finish _).mono (by simp)⟩

theorem codesIn_unusedVariables (lines : List SourceLine) (forest : List Symbol) :
    CodesIn ["unused-variable"] (unusedVariables lines forest) := by
  refine codesIn_flatMap fun method _ d hd ↦ ?_
  obtain ⟨_, _, rfl⟩ := List.mem_map.1 hd
  simp [Diagnostic.code, Finding.code]

theorem codesIn_missingMembers (forest : List Symbol) (others : List DocumentOutline) :
    CodesIn ["missing-member"] (missingMembers forest others) := by
  refine codesIn_flatMap fun owner _ ↦ codesIn_flatMap fun mark _ d hd ↦ ?_
  unfold missingAt at hd
  split at hd
  · obtain ⟨_, _, rfl⟩ := List.mem_map.1 hd
    simp [Diagnostic.code, Finding.code]
  · cases hd

theorem codesIn_duplicates (forest : List Symbol) (others : List DocumentOutline) :
    CodesIn ["duplicate-declaration"] (duplicates forest others) := by
  intro d hd
  obtain ⟨_, _, hd⟩ := List.mem_filterMap.1 hd
  obtain ⟨_, _, rfl⟩ := Option.map_eq_some_iff.1 hd
  simp [Diagnostic.code, Finding.code]

/-! ## Restricted reports -/

theorem withCodes_validate (o : Options) (text : Text) (others : List DocumentOutline)
    (codes : List String) :
    withCodes codes (validate o text others) =
      sortByStart ((withCodes codes (findings o.maxLineLength text others)).filter fun d ↦
        o.isEnabled d.code) := by
  rw [withCodes, validate, filter_sortByStart, withCodes, List.filter_filter, List.filter_filter]
  simp only [Bool.and_comm]

theorem filter_isEnabled {code : String} {ds : List Diagnostic} (h : CodesIn [code] ds)
    (o : Options) : ds.filter (fun d ↦ o.isEnabled d.code) = if o.isEnabled code then ds else [] := by
  have hcode : ∀ d ∈ ds, d.code = code := by
    intro d hd
    simpa using h d hd
  split
  · next henabled =>
    rw [List.filter_eq_self]
    intro d hd
    rwa [hcode d hd]
  · next hdisabled =>
    rw [List.filter_eq_nil_iff]
    intro d hd
    rwa [hcode d hd]

/-- A report is ordered by where its diagnostics start, also when it is restricted to one code. -/
theorem withCodes_validate_of_isEnabled {o : Options} {code : String} (h : o.isEnabled code)
    (text : Text) (others : List DocumentOutline) :
    withCodes [code] (validate o text others) =
      sortByStart (withCodes [code] (findings o.maxLineLength text others)) := by
  rw [withCodes_validate, filter_isEnabled (codesIn_withCodes _), if_pos h]

theorem withCodes_validate_all (limit : Nat) (text : Text) (others : List DocumentOutline)
    (codes : List String) :
    withCodes codes (validate ⟨limit, []⟩ text others) =
      sortByStart (withCodes codes (findings limit text others)) := by
  rw [withCodes_validate, List.filter_eq_self.2]
  simp [Options.isEnabled]

end Check

end VbOutline
