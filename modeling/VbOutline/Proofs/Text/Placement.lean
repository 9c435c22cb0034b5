import Mathlib.Data.List.DropRight
import Mathlib.Data.List.Infix
import VbOutline.Text.Basic

/-!
# Where a part of a text stands

A part stands in a text at the byte offset of what comes before it. Offsets add up when a part of a
part is taken, trimming moves the offset by the indentation, and the column of the offset is the
number of characters before the part. An offset that lies further left has a smaller column, be it
inside a character or not.
-/

namespace VbOutline.Text

/-- What holds of the characters of a text is decided along the text, without a look at any other
character. -/
instance (priority := high) decidableForallMem (s : Text) (p : Char → Prop) [DecidablePred p] :
    Decidable (∀ c ∈ s, p c) := List.decidableBAll p s

@[simp]
theorem byteSize_append (s t : Text) : byteSize (s ++ t) = byteSize s + byteSize t := by
  induction s with
  | nil => simp
  | cons c s ih =>
    rw [List.cons_append, byteSize_cons, byteSize_cons, ih]
    omega

theorem byteSize_pos {s : Text} (h : s ≠ []) : 0 < byteSize s := by
  obtain ⟨c, rest, rfl⟩ := List.exists_cons_of_ne_nil h
  have hpos := Char.utf8Size_pos c
  rw [byteSize_cons]
  omega

theorem byteSize_le_of_isPrefix {part s : Text} (h : part <+: s) : byteSize part ≤ byteSize s := by
  obtain ⟨more, rfl⟩ := h
  rw [byteSize_append]
  omega

theorem offsetOf_append (before rest : Text) : offsetOf (before ++ rest) rest = byteSize before := by
  rw [offsetOf, byteSize_append]
  omega

theorem dropEndWhile_isPrefix (p : Char → Bool) (s : Text) : dropEndWhile p s <+: s := by
  have h := List.reverse_prefix.2 (List.dropWhile_suffix (l := s.reverse) p)
  rwa [List.reverse_reverse] at h

theorem trimStart_isSuffix (s : Text) : trimStart s <:+ s := List.dropWhile_suffix isSpace

theorem trimEnd_isPrefix (s : Text) : trimEnd s <+: s := dropEndWhile_isPrefix isSpace s

theorem trim_isPrefix_trimStart (s : Text) : trim s <+: trimStart s := trimEnd_isPrefix (trimStart s)

theorem trimStart_isPrefix_trimStart {part s : Text} (h : part <+: s) :
    trimStart part <+: trimStart s := by
  obtain ⟨more, rfl⟩ := h
  unfold trimStart
  rw [List.dropWhile_append]
  split
  · next hempty =>
    rw [List.isEmpty_iff.1 hempty]
    exact List.nil_prefix
  · exact List.prefix_append _ more

@[simp]
theorem trimStart_trimStart (s : Text) : trimStart (trimStart s) = trimStart s :=
  List.dropWhile_idempotent isSpace s

theorem takeWhile_append_trimStart (s : Text) : s.takeWhile isSpace ++ trimStart s = s :=
  List.takeWhile_append_dropWhile

/-! ## Parts and their offsets -/

/-- The part stands in the text at the byte offset. -/
def StandsAt (whole : Text) (offset : Nat) (part : Text) : Prop :=
  ∃ before after, whole = before ++ part ++ after ∧ byteSize before = offset

namespace StandsAt

variable {whole part : Text} {offset : Nat}

theorem trans {inner : Text} {start : Nat} (h : StandsAt whole offset part)
    (hinner : StandsAt part start inner) : StandsAt whole (offset + start) inner := by
  obtain ⟨before, after, rfl, rfl⟩ := h
  obtain ⟨left, right, rfl, rfl⟩ := hinner
  refine ⟨before ++ left, right ++ after, ?_, byteSize_append before left⟩
  simp only [List.append_assoc]

theorem le (h : StandsAt whole offset part) : offset + byteSize part ≤ byteSize whole := by
  obtain ⟨before, after, rfl, rfl⟩ := h
  rw [byteSize_append, byteSize_append]
  omega

theorem of_isPrefix (h : part <+: whole) : StandsAt whole 0 part := by
  obtain ⟨after, rfl⟩ := h
  exact ⟨[], after, rfl, rfl⟩

theorem of_isSuffix (h : part <:+ whole) : StandsAt whole (offsetOf whole part) part := by
  obtain ⟨before, rfl⟩ := h
  exact ⟨before, [], by simp, (offsetOf_append before part).symm⟩

/-- What stands at the beginning of a part stands where the part does. -/
theorem left_part {name : Text} (h : StandsAt whole offset part) (hname : name <+: part) :
    StandsAt whole offset name := h.trans (of_isPrefix hname)

/-- What stands in a text stands at the same offset in any continuation of it. -/
theorem extend {wider : Text} (h : StandsAt whole offset part) (hwider : whole <+: wider) :
    StandsAt wider offset part := by
  have hall := (of_isPrefix hwider).trans h
  rwa [Nat.zero_add] at hall

theorem trimStart (s : Text) : StandsAt s (indentOf s) (trimStart s) :=
  ⟨s.takeWhile isSpace, [], by rw [List.append_nil, takeWhile_append_trimStart], rfl⟩

theorem trim (s : Text) : StandsAt s (indentOf s) (trim s) :=
  (trimStart s).left_part (trim_isPrefix_trimStart s)

/-- What stands at the beginning of a trimmed part on the left stands after the indentation. -/
theorem of_isPrefix_trim {s part name : Text} (hpart : part <+: s) (hname : name <+: Text.trim part) :
    StandsAt s (indentOf s) name := by
  apply (trimStart s).left_part
  calc
    name <+: Text.trim part := hname
    _ <+: Text.trimStart part := trim_isPrefix_trimStart part
    _ <+: Text.trimStart s := trimStart_isPrefix_trimStart hpart

end StandsAt

/-! ## Columns -/

theorem columnFrom_byteSize (seen : Nat) (before after : Text) :
    columnFrom seen (byteSize before) (before ++ after) = seen + before.length := by
  induction before generalizing seen with
  | nil => cases after <;> simp [columnFrom]
  | cons c before ih =>
    have hpos := Char.utf8Size_pos c
    have hne : (c.utf8Size + byteSize before == 0) = false := by
      rw [beq_eq_false_iff_ne]
      omega
    rw [List.cons_append, byteSize_cons, columnFrom, hne, if_neg (by simp),
      if_pos (Nat.le_add_right _ _), Nat.add_sub_cancel_left, ih, List.length_cons]
    omega

theorem columnFrom_lt (seen offset : Nat) (before after : Text) (h : offset < byteSize before) :
    columnFrom seen offset (before ++ after) < seen + before.length := by
  induction before generalizing seen offset with
  | nil => simp at h
  | cons c before ih =>
    rw [List.cons_append, columnFrom, List.length_cons]
    split
    · omega
    · split
      · have hrest : offset - c.utf8Size < byteSize before := by
          rw [byteSize_cons] at h
          omega
        have hlt := ih (seen + 1) (offset - c.utf8Size) hrest
        omega
      · omega

theorem columnOf_byteSize (before after : Text) :
    columnOf (before ++ after) (byteSize before) = before.length := by
  rw [columnOf, columnFrom_byteSize, Nat.zero_add]

/-- What follows a part of a line makes no difference to the columns up to the end of the part. -/
theorem columnOf_of_isPrefix {part line : Text} (h : part <+: line) {offset : Nat}
    (hoffset : offset ≤ byteSize part) : columnOf line offset = columnOf part offset := by
  obtain ⟨more, rfl⟩ := h
  have hfrom (seen : Nat) : columnFrom seen offset (part ++ more) = columnFrom seen offset part := by
    induction part generalizing seen offset with
    | nil =>
      obtain rfl : offset = 0 := by simpa using hoffset
      cases more <;> rfl
    | cons c part ih =>
      rw [byteSize_cons] at hoffset
      rw [List.cons_append, columnFrom, columnFrom, ih (by omega)]
  exact hfrom 0

theorem columnOf_lt {before : Text} (after : Text) {offset : Nat} (h : offset < byteSize before) :
    columnOf (before ++ after) offset < before.length := by
  simpa [columnOf] using columnFrom_lt 0 offset before after h

namespace StandsAt

variable {line part : Text} {offset : Nat}

/-- The characters of a part are those from the column of its offset on. -/
theorem extract_eq (h : StandsAt line offset part) :
    line.extract (columnOf line offset) (columnOf line offset + part.length) = part := by
  obtain ⟨before, after, rfl, rfl⟩ := h
  rw [List.append_assoc, columnOf_byteSize, List.extract_eq_take_drop, Nat.add_sub_cancel_left,
    List.drop_left, List.take_left]

theorem columnOf_lt_columnOf (h : StandsAt line offset part) {start : Nat} (hstart : start < offset) :
    columnOf line start < columnOf line offset := by
  obtain ⟨before, after, rfl, rfl⟩ := h
  rw [List.append_assoc, columnOf_byteSize]
  exact columnOf_lt (part ++ after) hstart

/-- From a column that is not beyond its own, a part fits into the line. -/
theorem columnOf_add_length_le (h : StandsAt line offset part) {start : Nat}
    (hstart : start ≤ offset) : columnOf line start + part.length ≤ line.length := by
  have hle : columnOf line start ≤ columnOf line offset := by
    obtain hlt | rfl := Nat.lt_or_eq_of_le hstart
    · exact (h.columnOf_lt_columnOf hlt).le
    · exact Nat.le_refl _
  obtain ⟨before, after, rfl, rfl⟩ := h
  rw [List.append_assoc, columnOf_byteSize] at hle
  rw [List.append_assoc, List.length_append, List.length_append]
  omega

end StandsAt

end VbOutline.Text
