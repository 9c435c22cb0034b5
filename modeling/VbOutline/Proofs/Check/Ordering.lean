import VbOutline.Proofs.Check.Reports

/-!
# Disabled codes and the order of a report

The checks do not know which codes are disabled: a report is selected from what they find and put in
order at the end. So a report with disabled codes is the full report without the diagnostics that
have one of them. The order is by where diagnostics start, and of those that start at the same place
the one that was found first comes first.
-/

namespace VbOutline.Check

open Text

theorem Options.isEnabled_iff (o : Options) (code : String) :
    o.isEnabled code ↔ ∀ c ∈ o.disabled, asciiLower c ≠ asciiLower code.toList := by
  simp [isEnabled, eqAscii_eq]

theorem pairwise_sortByStart (ds : List Diagnostic) :
    (sortByStart ds).Pairwise fun d e ↦ d.range.start.le e.range.start := by
  apply List.pairwise_mergeSort
  · intro a b c
    exact Position.le_trans
  · intro a b
    exact Position.le_total a.range.start b.range.start

/-- Diagnostics that start at the same place keep their order. -/
theorem filter_start_sortByStart (start : Position) (ds : List Diagnostic) :
    (sortByStart ds).filter (fun d ↦ d.range.start == start) =
      ds.filter fun d ↦ d.range.start == start := by
  rw [filter_sortByStart]
  apply List.mergeSort_of_pairwise
  apply List.pairwise_of_forall_mem_list
  intro d hd e he
  obtain rfl := beq_iff_eq.1 (List.mem_filter.1 hd).2
  rw [beq_iff_eq.1 (List.mem_filter.1 he).2]
  simpa using Position.le_total d.range.start d.range.start

/-- Without disabled codes a report has everything that the checks find. -/
theorem validate_all (limit : Nat) (text : Text) (others : List DocumentOutline) :
    validate ⟨limit, []⟩ text others = sortByStart (findings limit text others) := by
  rw [validate, List.filter_eq_self.2]
  simp [Options.isEnabled]

/-- A report with disabled codes is the full report without the diagnostics whose code is one of
them, up to the case of ASCII letters. It is ordered by the start of the diagnostics, and at each
start they stand in the order in which the checks found them. -/
theorem disabled_codes_removed (o : Options) (text : Text) (others : List DocumentOutline) :
    let isShown (d : Diagnostic) : Bool :=
      decide (∀ c ∈ o.disabled, asciiLower c ≠ asciiLower d.code.toList)
    let report := validate o text others
    report = (validate { o with disabled := [] } text others).filter isShown ∧
    report.Pairwise (fun d e ↦ d.range.start.le e.range.start) ∧
    ∀ start, report.filter (fun d ↦ d.range.start == start) =
      ((findings o.maxLineLength text others).filter isShown).filter
        fun d ↦ d.range.start == start := by
  intro isShown report
  have hshown : (fun d : Diagnostic ↦ o.isEnabled d.code) = isShown := by
    funext d
    rw [Bool.eq_iff_iff, o.isEnabled_iff, decide_eq_true_iff]
  have hreport : report = sortByStart ((findings o.maxLineLength text others).filter isShown) := by
    rw [← hshown]
    rfl
  refine ⟨?_, pairwise_sortByStart _, fun start ↦ ?_⟩
  · rw [validate_all, filter_sortByStart, hreport]
  · rw [hreport, filter_start_sortByStart]

end VbOutline.Check
