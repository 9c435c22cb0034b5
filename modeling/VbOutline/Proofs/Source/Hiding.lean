import VbOutline.Proofs.Source.Traces

/-!
# Hiding region markers

A region is begun and ended by a marker. Here the markers of a text are replaced by empty lines, and
it is said how the lines that are read change: a marker becomes a blank line, and any other line
stays as it is except that another line of code may come next after it. This takes it that no marker
is continued, because what follows a continued marker is read differently without it.
-/

namespace VbOutline

open Text Line

namespace SourceLine

/-- The line begins or ends a region. -/
def isMarker (line : SourceLine) : Bool :=
  match line.statement with
  | some (.region _) => true
  | some (.blockEnd e) => e.block == .region
  | _ => false

/-- Whether there is a marker in a row of a document. -/
def markerAt (rows : List Text) (i : Nat) : Bool := (readAll rows)[i]?.any isMarker

/-- The text with empty lines in the place of markers. -/
def hideMarkers (text : Text) : Text :=
  ['\n'].intercalate ((splitAll '\n' text).mapIdx fun i part ↦
    if markerAt (lines text) i then [] else part)

/-- No marker is continued. -/
def MarkersEnd (rows : List Text) : Prop :=
  ∀ line ∈ readAll rows, line.isMarker → isContinued line.code = false

/-! ## The rows -/

/-- The rows of a document with empty rows in the place of markers. -/
def hideRows (rows : List Text) : List Text :=
  rows.mapIdx fun i row ↦ if markerAt rows i then [] else row

/-- The rows of a text without markers, up to an empty row at the end, which is no line. -/
theorem lines_hideMarkers (text : Text) :
    hideRows (lines text) = lines (hideMarkers text) ∨
      hideRows (lines text) = lines (hideMarkers text) ++ [[]] := by
  obtain ⟨front, last, hparts⟩ : ∃ front last, splitAll '\n' text = front ++ [last] :=
    ⟨_, _, (List.dropLast_append_getLast (splitAll_ne_nil '\n' text)).symm⟩
  have hlines : lines text = front.map dropReturn ++ if last.isEmpty then [] else [last] := by
    simp [lines, hparts]
  let hide (i : Nat) (part : Text) : Text := if markerAt (lines text) i then [] else part
  have hsplit : splitAll '\n' (hideMarkers text) =
      front.mapIdx hide ++ [hide front.length last] := by
    rw [hideMarkers, splitAll_eq_splitOn, List.splitOn_intercalate, hparts, List.mapIdx_append]
    · simp [hide]
    · intro part hpart
      obtain ⟨i, hi, rfl⟩ := List.mem_mapIdx.1 hpart
      split
      · exact List.not_mem_nil
      · exact not_mem_of_mem_splitAll (List.getElem_mem hi)
    · rw [ne_eq, List.mapIdx_eq_nil_iff]
      exact splitAll_ne_nil '\n' text
  have hhidden : lines (hideMarkers text) = (front.mapIdx hide).map dropReturn ++
      if (hide front.length last).isEmpty then [] else [hide front.length last] := by
    simp [lines, hsplit]
  have hfront : (front.map dropReturn).mapIdx hide = (front.mapIdx hide).map dropReturn := by
    apply List.ext_getElem?
    intro i
    rw [List.getElem?_mapIdx, List.getElem?_map, List.getElem?_map, List.getElem?_mapIdx,
      Option.map_map, Option.map_map]
    congr 1
    funext part
    simp only [Function.comp_apply, hide]
    split <;> rfl
  have hrows : hideRows (lines text) = (front.mapIdx hide).map dropReturn ++
      (if last.isEmpty then [] else [last]).mapIdx fun i ↦ hide (i + front.length) := by
    change (lines text).mapIdx hide = _
    rw [hlines, List.mapIdx_append, List.length_map, hfront]
  rw [hrows, hhidden]
  cases last with
  | nil =>
    left
    simp [hide]
  | cons c last =>
    by_cases hmarker : markerAt (lines text) front.length
    · right
      simp [hide, hmarker]
    · left
      simp [hide, hmarker]

/-! ## The lines -/

theorem exists_of_getElem?_rows {rows : List Text} {i : Nat} {row : Text} (h : rows[i]? = some row) :
    ∃ line, (readAll rows)[i]? = some line ∧ line.index = i ∧ line.raw = row ∧ line.ReadIn rows := by
  obtain ⟨hlt, _⟩ := List.getElem?_eq_some_iff.1 h
  have hline := List.getElem?_eq_getElem (l := readAll rows) (i := i) (by rwa [length_readAll])
  have hread := readIn_of_mem (List.mem_of_getElem? hline)
  have hindex := index_of_getElem?_readAll hline
  refine ⟨_, hline, hindex, ?_, hread⟩
  have hraw := hread.raw
  rw [hindex, h] at hraw
  exact (Option.some.inj hraw).symm

theorem followsContinued_succ {rows : List Text} {i : Nat} {row : Text} (h : rows[i]? = some row) :
    followsContinued rows (i + 1) = continues (followsContinued rows i) (stripComment row) := by
  rw [← foldl_continues_eq, ← foldl_continues_eq, List.take_add_one, List.getElem?_map, h,
    List.foldl_append]
  rfl

/-- A statement begins on a line with a marker. -/
theorem ReadIn.followsContinued_of_isMarker {rows : List Text} {line : SourceLine}
    (hread : line.ReadIn rows) (h : line.isMarker) : followsContinued rows line.index = false := by
  have hsome : line.statement.isSome := by
    cases hs : line.statement with
    | none => simp [isMarker, hs] at h
    | some s => rfl
  rw [hread.isSome_statement, Bool.and_eq_true, Bool.not_eq_true', Bool.not_eq_true'] at hsome
  exact hsome.2

/-- Without the markers the same lines are continuations. -/
theorem followsContinued_hideRows {rows : List Text} (h : MarkersEnd rows) {i : Nat}
    (hi : i ≤ rows.length) : followsContinued (hideRows rows) i = followsContinued rows i := by
  induction i with
  | zero => rfl
  | succ i ih =>
    have hrow := List.getElem?_eq_getElem hi
    generalize rows[i] = row at hrow
    obtain ⟨line, hline, rfl, rfl, hread⟩ := exists_of_getElem?_rows hrow
    have hhidden : (hideRows rows)[line.index]? =
        some (if line.isMarker then [] else line.raw) := by
      rw [hideRows, List.getElem?_mapIdx, hrow, Option.map_some, markerAt, hline, Option.any_some]
    rw [followsContinued_succ hhidden, followsContinued_succ hrow, ih (Nat.le_of_succ_le hi)]
    split
    · next hmarker =>
      have hend := h line (List.mem_of_getElem? hline) hmarker
      have hempty : continues false (stripComment []) = false := rfl
      have hmark : continues false line.code = false := by simp [continues, hend]
      rw [hread.followsContinued_of_isMarker hmarker, ← hread.code, hempty, hmark]
    · rfl

theorem stripComment_nil : stripComment [] = [] := rfl

theorem statement?_nil (continuing : Bool) : statement? continuing [] = none := by
  cases continuing <;> rfl

/-- A line of a document, in which it is followed by the given rows, with markers hidden. -/
def hidden (rows : List Text) (line : SourceLine) : SourceLine :=
  if line.isMarker then ⟨line.index, [], [], none, nextCode? rows line.index⟩
  else { line with next := nextCode? rows line.index }

theorem hidden_of_isMarker {line : SourceLine} (h : line.isMarker) (rows : List Text) :
    line.hidden rows = ⟨line.index, [], [], none, nextCode? rows line.index⟩ := by
  rw [hidden, if_pos h]

theorem hidden_of_not_isMarker {line : SourceLine} (h : line.isMarker = false) (rows : List Text) :
    line.hidden rows = { line with next := nextCode? rows line.index } := by
  rw [hidden, h, if_neg Bool.false_ne_true]

theorem readAll_hideRows {rows : List Text} (h : MarkersEnd rows) :
    readAll (hideRows rows) = (readAll rows).map (hidden (hideRows rows)) := by
  apply List.ext_getElem?
  intro i
  rw [readAll_eq (hideRows rows), List.getElem?_mapIdx, List.getElem?_map]
  cases hrow : rows[i]? with
  | none =>
    have hlength := List.getElem?_eq_none_iff.1 hrow
    have hnone : (readAll rows)[i]? = none := by
      rwa [List.getElem?_eq_none_iff, length_readAll]
    have hhidden : (hideRows rows)[i]? = none := by
      rw [hideRows, List.getElem?_mapIdx, hrow, Option.map_none]
    rw [hnone, hhidden, Option.map_none, Option.map_none]
  | some row =>
    obtain ⟨line, hline, rfl, rfl, hread⟩ := exists_of_getElem?_rows hrow
    obtain ⟨hlt, _⟩ := List.getElem?_eq_some_iff.1 hrow
    have hcontinued := followsContinued_hideRows h hlt.le
    rw [hline, hideRows, List.getElem?_mapIdx, hrow, Option.map_some, Option.map_some,
      Option.map_some, ← hideRows, hcontinued, markerAt, hline, Option.any_some, hidden]
    split
    · rw [stripComment_nil, statement?_nil]
    · rw [← hread.code, ← hread.statement]

theorem nextCode?_append_empty (rows : List Text) (i : Nat) :
    nextCode? (rows ++ [[]]) i = nextCode? rows i := by
  have hfirst (front : List Text) : firstCode? (front ++ [[]]) = firstCode? front := by
    rw [firstCode?, List.findSome?_append]
    exact Option.or_none
  rw [nextCode?, nextCode?, List.drop_append]
  cases i + 1 - rows.length with
  | zero => exact hfirst _
  | succ n => rw [List.drop_succ_cons, List.drop_nil, List.append_nil]

/-- An empty row at the end adds a blank line. -/
theorem readAll_append_empty (rows : List Text) :
    readAll (rows ++ [[]]) = readAll rows ++ [⟨rows.length, [], [], none, none⟩] := by
  rw [readAll_eq, readAll_eq, List.mapIdx_append, List.mapIdx_singleton]
  congr 1
  · rw [List.mapIdx_eq_mapIdx_iff]
    intro i hi
    have hcontinued : followsContinued (rows ++ [[]]) i = followsContinued rows i := by
      rw [followsContinued, List.take_append_of_le_length hi.le, followsContinued]
    rw [hcontinued, nextCode?_append_empty]
  · have hlast : nextCode? rows (0 + rows.length) = none := by
      rw [nextCode?, List.drop_of_length_le (by omega)]
      rfl
    rw [nextCode?_append_empty, hlast, stripComment_nil, statement?_nil, Nat.zero_add]

/-- What is read of a text without its markers: blank lines in the place of markers, and the other
lines as they are but for the code that comes next. -/
theorem readAll_hideMarkers {text : Text} (h : MarkersEnd (lines text)) :
    ∃ blanks, (readAll (lines text)).map (hidden (lines (hideMarkers text))) =
        readAll (lines (hideMarkers text)) ++ blanks ∧
      ∀ line ∈ blanks, line.statement = none ∧ line.code = [] := by
  have hread := readAll_hideRows h
  obtain hrows | hrows := lines_hideMarkers text
  · rw [hrows] at hread
    exact ⟨[], by rw [← hread, List.append_nil], by simp⟩
  · have hnext : hidden (lines (hideMarkers text) ++ [[]]) = hidden (lines (hideMarkers text)) := by
      funext line
      rw [hidden, hidden, nextCode?_append_empty]
    rw [hrows, readAll_append_empty, hnext] at hread
    exact ⟨_, hread.symm, by simp⟩

end SourceLine

end VbOutline
