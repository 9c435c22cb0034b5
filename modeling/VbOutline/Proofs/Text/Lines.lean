import VbOutline.Proofs.Text.Placement
import VbOutline.Text.Lines

/-!
# The lines of texts that are put together

A text that follows a line feed adds its lines to those before it. A line feed at the end of a text
makes no difference to what can be seen: it may add an empty line, and it may take a carriage return
off the last line. White space at the end of a line is not looked at when the line is trimmed.
-/

namespace VbOutline.Text

/-! ## Trimming -/

theorem trimEnd_append_of_all {spaces : Text} (h : ∀ c ∈ spaces, isSpace c) (s : Text) :
    trimEnd (s ++ spaces) = trimEnd s := by
  rw [trimEnd, trimEnd, dropEndWhile, dropEndWhile, List.reverse_append,
    List.dropWhile_append_of_pos]
  intro c hc
  exact h c (List.mem_reverse.1 hc)

/-- A text is what is kept of it with what is dropped at its end. -/
theorem exists_eq_dropEndWhile_append (p : Char → Bool) (s : Text) :
    ∃ dropped, s = dropEndWhile p s ++ dropped ∧ ∀ c ∈ dropped, p c :=
  ⟨s.rtakeWhile p, List.rdropWhile_append_rtakeWhile.symm, fun _ ↦ List.mem_rtakeWhile_imp⟩

/-- A text is its trimmed form with white space after it. -/
theorem exists_eq_trimEnd_append (s : Text) :
    ∃ spaces, s = trimEnd s ++ spaces ∧ ∀ c ∈ spaces, isSpace c :=
  exists_eq_dropEndWhile_append isSpace s

@[simp]
theorem trimEnd_trimEnd (s : Text) : trimEnd (trimEnd s) = trimEnd s :=
  List.rdropWhile_idempotent isSpace s

@[simp]
theorem trim_trimEnd (s : Text) : trim (trimEnd s) = trim s := by
  obtain ⟨spaces, hs, hspaces⟩ := exists_eq_trimEnd_append s
  generalize trimEnd s = shown at hs
  subst hs
  rw [trim, trim, trimStart, trimStart, List.dropWhile_append]
  split
  · next hempty =>
    rw [List.isEmpty_iff.1 hempty, List.dropWhile_eq_nil_iff.2 hspaces]
  · exact (trimEnd_append_of_all hspaces _).symm

@[simp]
theorem trimEnd_trim (s : Text) : trimEnd (trim s) = trim s := trimEnd_trimEnd (trimStart s)

@[simp]
theorem trim_trimStart (s : Text) : trim (trimStart s) = trim s := by
  rw [trim, trimStart_trimStart, trim]

theorem takeWhile_isSpace_trimEnd {s : Text} (h : trim s ≠ []) :
    (trimEnd s).takeWhile isSpace = s.takeWhile isSpace := by
  obtain ⟨spaces, hs, _⟩ := exists_eq_trimEnd_append s
  have hshown : ¬ ((trimEnd s).takeWhile isSpace).length = (trimEnd s).length := by
    intro hlength
    have hstart : trimStart (trimEnd s) = [] := by
      have hsplit := congrArg List.length (takeWhile_append_trimStart (trimEnd s))
      rw [List.length_append, hlength] at hsplit
      exact List.eq_nil_of_length_eq_zero (by omega)
    rw [← trim_trimEnd, trim, hstart] at h
    exact h rfl
  conv_rhs => rw [hs]
  rw [List.takeWhile_append, if_neg hshown]

theorem indentOf_trimEnd {s : Text} (h : trim s ≠ []) : indentOf (trimEnd s) = indentOf s := by
  rw [indentOf, indentOf, takeWhile_isSpace_trimEnd h]

/-! ## Parts and lines -/

theorem splitAll_eq_splitOn (sep : Char) (s : Text) : splitAll sep s = s.splitOn sep := by
  rw [List.splitOn]
  induction s with
  | nil => rfl
  | cons c s ih =>
    rw [List.splitOnP_cons_eq_if_modifyHead, ← ih]
    cases hparts : splitAll sep s with
    | nil => exact absurd (hparts.symm.trans ih).symm (List.splitOnP_ne_nil _ _)
    | cons part rest =>
      rw [splitAll] at hparts
      rw [splitAll, List.foldr_cons, hparts]
      rfl

theorem splitAll_ne_nil (sep : Char) (s : Text) : splitAll sep s ≠ [] := by
  rw [splitAll_eq_splitOn]
  exact List.splitOnP_ne_nil _ s

theorem splitAll_append (sep : Char) (s t : Text) :
    splitAll sep (s ++ sep :: t) = splitAll sep s ++ splitAll sep t := by
  rw [splitAll_eq_splitOn, splitAll_eq_splitOn, splitAll_eq_splitOn, List.splitOn_append_cons_self]

theorem splitAll_of_not_mem {sep : Char} {s : Text} (h : sep ∉ s) : splitAll sep s = [s] := by
  rw [splitAll_eq_splitOn, List.splitOn_eq_singleton h]

theorem not_mem_of_mem_splitAll {sep : Char} {s part : Text} (h : part ∈ splitAll sep s) :
    sep ∉ part := by
  induction s generalizing part with
  | nil =>
    rw [List.mem_singleton.1 h]
    exact List.not_mem_nil
  | cons c s ih =>
    rw [splitAll_eq_splitOn, List.splitOn, List.splitOnP_cons_eq_if_modifyHead, ← List.splitOn,
      ← splitAll_eq_splitOn] at h
    split at h
    · obtain rfl | h := List.mem_cons.1 h
      · exact List.not_mem_nil
      · exact ih h
    · next hc =>
      obtain ⟨first, rest, hparts⟩ := List.exists_cons_of_ne_nil (splitAll_ne_nil sep s)
      rw [hparts, List.modifyHead_cons] at h
      rw [hparts] at ih
      obtain rfl | h := List.mem_cons.1 h
      · have hfirst := ih List.mem_cons_self
        rw [List.mem_cons, not_or]
        exact ⟨fun hsep ↦ hc (by simp [hsep]), hfirst⟩
      · exact ih (List.mem_cons_of_mem first h)

/-- What comes after a line feed adds its lines. -/
theorem lines_append_feed (s t : Text) :
    lines (s ++ '\n' :: t) = (splitAll '\n' s).map dropReturn ++ lines t := by
  have hne := splitAll_ne_nil '\n' t
  rw [lines, splitAll_append]
  simp only [List.dropLast_append_of_ne_nil hne, List.getLast?_append_of_ne_nil _ hne,
    List.map_append, List.append_assoc]
  rfl

/-- The lines of a text whose last line has been ended stay as they are when it goes on. -/
theorem lines_append_of_ended {s : Text} (h : s = [] ∨ s.getLast? = some '\n') (t : Text) :
    lines (s ++ t) = lines s ++ lines t := by
  obtain rfl | hlast := h
  · rfl
  · obtain ⟨front, rfl⟩ := List.getLast?_eq_some_iff.1 hlast
    rw [List.append_assoc, List.singleton_append, lines_append_feed, lines_append_feed,
      List.append_assoc]
    rfl

/-- The line feed before the lines that are added adds an empty line after a text that ends with one,
and otherwise ends the last line. -/
theorem lines_append_cases (s t : Text) :
    lines (s ++ '\n' :: t) = lines s ++ [] :: lines t ∨
      ∃ front last, lines s = front ++ [last] ∧
        lines (s ++ '\n' :: t) = front ++ dropReturn last :: lines t := by
  obtain ⟨front, last, hparts⟩ : ∃ front last, splitAll '\n' s = front ++ [last] :=
    ⟨_, _, (List.dropLast_append_getLast (splitAll_ne_nil '\n' s)).symm⟩
  have hlines : lines s = front.map dropReturn ++ if last.isEmpty then [] else [last] := by
    simp [lines, hparts]
  rw [lines_append_feed, hparts, hlines]
  cases last with
  | nil =>
    left
    simp [dropReturn]
  | cons c last =>
    right
    exact ⟨front.map dropReturn, c :: last, by simp, by simp⟩

/-- Rows that are put together with line feeds are the lines of the text. -/
theorem lines_intercalate {rows : List Text} (hfeed : ∀ row ∈ rows, '\n' ∉ row)
    (hreturn : ∀ row ∈ rows, dropReturn row = row) (hempty : ∀ row ∈ rows, row ≠ []) :
    lines (['\n'].intercalate rows) = rows := by
  cases rows with
  | nil => rfl
  | cons first rest =>
    have hne : first :: rest ≠ [] := List.cons_ne_nil first rest
    rw [lines, splitAll_eq_splitOn, List.splitOn_intercalate '\n' hfeed hne]
    have hlast := hempty _ (List.getLast_mem hne)
    have hfront : (first :: rest).dropLast.map dropReturn = (first :: rest).dropLast := by
      rw [List.map_congr_left fun row hrow ↦ hreturn row (List.dropLast_subset _ hrow)]
      exact List.map_id' _
    simp only [hfront, List.getLast?_eq_some_getLast hne, Option.getD_some, List.isEmpty_iff, hlast,
      if_false]
    exact List.dropLast_append_getLast hne

end VbOutline.Text
