import VbOutline.Proofs.Line.Scanning
import VbOutline.Source.SourceLine

/-!
# The lines that are read from a document

Each line that is read carries its own number, the row of the document with that number, the code of
the row, and the next row of code. The statement is read from the code, unless the line is blank or
goes on with the statement before it.
-/

namespace VbOutline.SourceLine

open Text Line

theorem foldr_followers (rows : List Text) :
    (rows.map stripComment).foldr (fun code (next, found) ↦
      let shown := trim code
      (if shown.isEmpty then next else some shown, next :: found)) (none, []) =
        (firstCode? rows, followers (rows.map stripComment)) := by
  cases rows with
  | nil => rfl
  | cons row rows =>
    refine Prod.ext ?_ rfl
    induction rows generalizing row with
    | nil => simp [firstCode?]
    | cons second rows ih =>
      have hnext := ih second
      simp only [firstCode?, List.map_cons, List.foldr_cons, List.findSome?_cons] at hnext ⊢
      rw [hnext]
      split <;> simp_all

theorem followers_cons (row : Text) (rows : List Text) :
    followers ((row :: rows).map stripComment) =
      firstCode? rows :: followers (rows.map stripComment) := by
  rw [List.map_cons, followers, List.foldr_cons, foldr_followers]

theorem getElem?_followers {rows : List Text} {i : Nat} {next : Option Text}
    (h : (followers (rows.map stripComment))[i]? = some next) : next = nextCode? rows i := by
  induction rows generalizing i with
  | nil => simp [followers] at h
  | cons row rows ih =>
    rw [followers_cons] at h
    cases i with
    | zero => exact (Option.some.inj h).symm
    | succ i => exact ih h

theorem length_followers (rows : List Text) :
    (followers (rows.map stripComment)).length = rows.length := by
  induction rows with
  | nil => rfl
  | cons row rows ih => rw [followers_cons, List.length_cons, List.length_cons, ih]

/-! ## Continued lines -/

/-- Whether the last line of code before row `i` is continued. -/
def followsContinued (rows : List Text) (i : Nat) : Bool :=
  (((rows.take i).map stripComment).filter fun code ↦ !isBlank code).getLast?.any isContinued

theorem foldl_continues (before : Bool) (codes : List Text) :
    codes.foldl continues before =
      ((codes.filter fun code ↦ !isBlank code).getLast?.map isContinued).getD before := by
  induction codes generalizing before with
  | nil => rfl
  | cons code codes ih =>
    rw [List.foldl_cons, ih, continues]
    cases hblank : isBlank code with
    | true => simp [hblank]
    | false =>
      rw [List.filter_cons_of_pos (by simp [hblank]), List.getLast?_cons, Option.map_some,
        Option.getD_some]
      cases (codes.filter fun code ↦ !isBlank code).getLast? <;> rfl

theorem foldl_continues_eq (rows : List Text) (i : Nat) :
    ((rows.map stripComment).take i).foldl continues false = followsContinued rows i := by
  rw [foldl_continues, followsContinued, List.map_take]
  cases (((rows.map stripComment).take i).filter fun code ↦ !isBlank code).getLast? <;> rfl

/-! ## Reading -/

/-- What a line that is read has in common with the rows of its document. -/
structure ReadIn (rows : List Text) (line : SourceLine) : Prop where
  raw : rows[line.index]? = some line.raw
  code : line.code = stripComment line.raw
  statement : line.statement = statement? (followsContinued rows line.index) line.code
  next : line.next = nextCode? rows line.index

theorem readIn_of_mem {rows : List Text} {line : SourceLine} (h : line ∈ readAll rows) :
    ReadIn rows line := by
  obtain ⟨⟨⟨raw, ⟨continuing, code⟩, next⟩, index⟩, hmem, rfl⟩ := List.mem_map.1 h
  rw [List.mk_mem_zipIdx_iff_getElem?, List.getElem?_zip_eq_some, List.getElem?_zip_eq_some] at hmem
  obtain ⟨hraw, hstate, hnext⟩ := hmem
  have hcode : (rows.map stripComment)[index]? = some code := by
    have hmap := congrArg (Option.map Prod.snd) hstate
    rwa [← List.getElem?_map, map_snd_states] at hmap
  have hcontinuing := foldl_of_getElem?_states hstate
  rw [foldl_continues_eq] at hcontinuing
  rw [List.getElem?_map, hraw] at hcode
  exact ⟨hraw, (Option.some.inj hcode).symm, by rw [hcontinuing], getElem?_followers hnext⟩

theorem map_index_readAll (rows : List Text) :
    (readAll rows).map SourceLine.index = List.range rows.length := by
  have hstates : (states continues false (rows.map stripComment)).length = rows.length := by
    have hlength := congrArg List.length (map_snd_states continues false (rows.map stripComment))
    rwa [List.length_map, List.length_map] at hlength
  rw [readAll, List.map_map]
  change List.map (fun p ↦ p.2) (List.zipIdx _) = _
  rw [List.zipIdx_map_snd, List.length_zip, List.length_zip, length_followers, hstates, Nat.min_self,
    Nat.min_self, List.range_eq_range']

theorem length_readAll (rows : List Text) : (readAll rows).length = rows.length := by
  simpa using congrArg List.length (map_index_readAll rows)

theorem index_of_getElem?_readAll {rows : List Text} {i : Nat} {line : SourceLine}
    (h : (readAll rows)[i]? = some line) : line.index = i := by
  obtain ⟨hlt, _⟩ := List.getElem?_eq_some_iff.1 h
  rw [length_readAll] at hlt
  have hindex := congrArg (·[i]?) (map_index_readAll rows)
  simp only [List.getElem?_map, h, Option.map_some, List.getElem?_range hlt] at hindex
  exact Option.some.inj hindex

/-- The code of a line comes before its comment. -/
theorem ReadIn.code_isPrefix {rows : List Text} {line : SourceLine} (h : ReadIn rows line) :
    line.code <+: line.raw := by
  rw [h.code]
  exact stripComment_isPrefix line.raw

/-- A statement of a line is what its code reads as. -/
theorem ReadIn.statement_eq {rows : List Text} {line : SourceLine} (h : ReadIn rows line)
    {s : Statement} (hs : line.statement = some s) : s = Statement.parse line.code := by
  have hstatement := h.statement
  rw [hs, statement?, eq_comm, Option.ite_none_left_eq_some] at hstatement
  exact (Option.some.inj hstatement.2).symm

/-- A statement begins on every line of code that does not go on with the one before it. -/
theorem ReadIn.isSome_statement {rows : List Text} {line : SourceLine} (h : ReadIn rows line) :
    line.statement.isSome = (!isBlank line.code && !followsContinued rows line.index) := by
  rw [h.statement, statement?]
  cases followsContinued rows line.index <;> cases isBlank line.code <;> rfl

end VbOutline.SourceLine
