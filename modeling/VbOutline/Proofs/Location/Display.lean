import VbOutline.Location
import VbOutline.Proofs.Line.Words
import VbOutline.Proofs.Line.Scanning
import VbOutline.Proofs.Text.Decimal

/-!
# Locations are read as they are written

A location is divided at the first colon with which a position may begin, so that its file holds no
such colon, except for the one of a drive letter. Every file of this kind is read back with its line
and column, and what has been read is of this kind: its written form reads as the same location.
-/

namespace VbOutline.Location

open Text

/-- A digit or a minus sign: after a colon it begins a position. -/
def isPositionStart (c : Char) : Bool := isAsciiDigit c || c == '-'

/-- No position begins in the text. -/
def HasNoPosition (s : Text) : Prop :=
  ∀ before after, s = before ++ ':' :: after → after.head?.any isPositionStart = false

/-- A file that can be told from the position after it: it begins with something that can be seen, is
no single letter, and no position begins in it except after a drive letter. -/
structure IsFile (file : Text) : Prop where
  shown : ∀ c ∈ file.head?, isSpace c = false
  noLetter : ∀ c, file = [c] → c.isAlpha = false
  drive : ∀ before after, file = before ++ ':' :: after → after.head?.any isPositionStart →
    ∃ c, before = [c] ∧ c.isAlpha

theorem hasNoPosition_nil : HasNoPosition [] := by
  intro before after h
  cases before <;> cases h

theorem hasNoPosition_cons {c : Char} {s : Text} :
    HasNoPosition (c :: s) ↔ (c = ':' → s.head?.any isPositionStart = false) ∧ HasNoPosition s := by
  constructor
  · intro h
    refine ⟨?_, fun before after hs ↦ h (c :: before) after (by rw [hs, List.cons_append])⟩
    rintro rfl
    exact h [] s rfl
  · rintro ⟨hcolon, hs⟩ before after h
    cases before with
    | nil =>
      obtain ⟨rfl, rfl⟩ := List.cons.inj h
      exact hcolon rfl
    | cons d before =>
      obtain ⟨rfl, rfl⟩ := List.cons.inj h
      exact hs before after rfl

theorem any_isPositionStart_head?_append (file position : Text) :
    (file ++ ':' :: position).head?.any isPositionStart = file.head?.any isPositionStart := by
  cases file <;> rfl

/-- The division is at the first colon after which a position begins. -/
theorem splitPosition?_eq_some_iff {s file position : Text} :
    splitPosition? s = some (file, position) ↔
      s = file ++ ':' :: position ∧ position.head?.any isPositionStart ∧ HasNoPosition file := by
  induction s generalizing file with
  | nil => simp [splitPosition?]
  | cons c s ih =>
    rw [splitPosition?]
    change (if c == ':' && s.head?.any isPositionStart then _ else _) = _ ↔ _
    split
    · next hstart =>
      obtain ⟨hc, hposition⟩ := Bool.and_eq_true_iff.1 hstart
      obtain rfl := beq_iff_eq.1 hc
      constructor
      · intro h
        obtain ⟨rfl, rfl⟩ := Prod.mk.inj (Option.some.inj h)
        exact ⟨rfl, hposition, hasNoPosition_nil⟩
      · rintro ⟨hs, -, hfile⟩
        cases file with
        | nil =>
          obtain ⟨-, rfl⟩ := List.cons.inj hs
          rfl
        | cons d file =>
          -- a colon further on is not the first one
          rw [List.cons_append, List.cons.injEq] at hs
          obtain ⟨rfl, rfl⟩ := hs
          rw [any_isPositionStart_head?_append, (hasNoPosition_cons.1 hfile).1 rfl] at hposition
          cases hposition
    · next hstart =>
      rw [Option.map_eq_some_iff]
      constructor
      · rintro ⟨⟨front, rest⟩, hrest, hpair⟩
        obtain ⟨rfl, rfl⟩ := Prod.mk.inj hpair
        obtain ⟨rfl, hposition, hfront⟩ := ih.1 hrest
        refine ⟨rfl, hposition, hasNoPosition_cons.2 ⟨?_, hfront⟩⟩
        rintro rfl
        rw [any_isPositionStart_head?_append] at hstart
        simpa using hstart
      · rintro ⟨hs, hposition, hfile⟩
        cases file with
        | nil =>
          obtain ⟨rfl, rfl⟩ := List.cons.inj hs
          simp [hposition] at hstart
        | cons d file =>
          rw [List.cons_append, List.cons.injEq] at hs
          obtain ⟨rfl, rfl⟩ := hs
          exact ⟨(file, position), ih.2 ⟨rfl, hposition, (hasNoPosition_cons.1 hfile).2⟩, rfl⟩

theorem ne_nil_of_head?_any {s : Text} {p : Char → Bool} (h : s.head?.any p) : s ≠ [] := by
  rintro rfl
  cases h

theorem hasDrive_iff {s : Text} :
    hasDrive s ↔ ∃ c rest, s = c :: ':' :: rest ∧ rest ≠ [] ∧ c.isAlpha := by
  unfold hasDrive
  split
  · next c d rest =>
    constructor
    · intro hc
      exact ⟨c, d :: rest, rfl, List.cons_ne_nil d rest, hc⟩
    · rintro ⟨c', rest', hs, -, hc⟩
      obtain ⟨rfl, -⟩ := List.cons.inj hs
      exact hc
  · next hshape =>
    constructor
    · intro hfalse
      cases hfalse
    · rintro ⟨c, rest, rfl, hrest, -⟩
      obtain ⟨d, rest, rfl⟩ := List.exists_cons_of_ne_nil hrest
      exact absurd rfl (hshape c d rest)

/-- Behind a drive letter no position begins in a file. -/
theorem isFile_drive_iff {c : Char} {file : Text} (hspace : isSpace c = false) (hc : c.isAlpha) :
    IsFile (c :: ':' :: file) ↔ HasNoPosition file := by
  constructor
  · rintro h before after rfl
    by_contra hstart
    obtain ⟨d, hd, -⟩ := h.drive (c :: ':' :: before) after rfl (by simpa using hstart)
    simp at hd
  · intro h
    refine ⟨?_, by simp, fun before after hfile hstart ↦ ?_⟩
    · rintro _ ⟨⟩
      exact hspace
    · cases before with
      | nil =>
        obtain ⟨rfl, -⟩ := List.cons.inj hfile
        cases hc
      | cons d before =>
        rw [List.cons_append, List.cons.injEq] at hfile
        obtain ⟨rfl, hrest⟩ := hfile
        cases before with
        | nil => exact ⟨c, rfl, hc⟩
        | cons e before =>
          rw [List.cons_append, List.cons.injEq] at hrest
          rw [h before after hrest.2] at hstart
          cases hstart

/-- In a file without a drive letter no position begins. -/
theorem isFile_iff_of_not_hasDrive {file position : Text}
    (hspace : ∀ c ∈ (file ++ ':' :: position).head?, isSpace c = false) (hposition : position ≠ [])
    (hdrive : hasDrive (file ++ ':' :: position) = false) : IsFile file ↔ HasNoPosition file := by
  have hletter : ∀ c rest, file ++ ':' :: position = c :: ':' :: rest → rest ≠ [] →
      c.isAlpha = false := by
    intro c rest hs hrest
    by_contra hc
    rw [hasDrive_iff.2 ⟨c, rest, hs, hrest, by simpa using hc⟩] at hdrive
    cases hdrive
  constructor
  · rintro h before after rfl
    by_contra hstart
    have hbegins : after.head?.any isPositionStart := by simpa using hstart
    obtain ⟨c, rfl, hc⟩ := h.drive before after rfl hbegins
    have hmore : after ++ ':' :: position ≠ [] := by simp
    rw [hletter c _ rfl hmore] at hc
    cases hc
  · intro h
    refine ⟨fun c hc ↦ hspace c ?_, ?_, fun before after hfile hstart ↦ ?_⟩
    · rw [List.head?_append, hc]
      rfl
    · rintro c rfl
      exact hletter c position rfl hposition
    · rw [h before after hfile] at hstart
      cases hstart

/-- A text that begins with something that can be seen is divided into a file and a position. -/
theorem splitFile?_eq_some_iff {s file position : Text} (hs : ∀ c ∈ s.head?, isSpace c = false) :
    splitFile? s = some (file, position) ↔
      s = file ++ ':' :: position ∧ position.head?.any isPositionStart ∧ IsFile file := by
  rw [splitFile?]
  split
  · next hdrive =>
    obtain ⟨c, rest, rfl, -, hc⟩ := hasDrive_iff.1 hdrive
    have hspace : isSpace c = false := hs c rfl
    rw [Option.map_eq_some_iff]
    constructor
    · rintro ⟨⟨front, back⟩, hsplit, hpair⟩
      obtain ⟨rfl, rfl⟩ := Prod.mk.inj hpair
      obtain ⟨hrest, hposition, hfront⟩ := splitPosition?_eq_some_iff.1 hsplit
      obtain rfl : rest = front ++ ':' :: back := hrest
      exact ⟨rfl, hposition, (isFile_drive_iff hspace hc).2 hfront⟩
    · rintro ⟨hwhole, hposition, hfile⟩
      obtain ⟨front, rfl, rfl⟩ : ∃ front, file = c :: ':' :: front ∧
          rest = front ++ ':' :: position := by
        match file, hwhole, hfile with
        | [], hwhole, _ =>
          obtain ⟨rfl, -⟩ := List.cons.inj hwhole
          cases hc
        | [d], hwhole, hfile =>
          obtain ⟨rfl, -⟩ := List.cons.inj hwhole
          rw [hfile.noLetter c rfl] at hc
          cases hc
        | d :: e :: front, hwhole, _ =>
          simp only [List.cons_append, List.cons.injEq] at hwhole
          obtain ⟨rfl, rfl, hrest⟩ := hwhole
          exact ⟨front, rfl, hrest⟩
      have hfront := (isFile_drive_iff hspace hc).1 hfile
      exact ⟨(front, position), splitPosition?_eq_some_iff.2 ⟨rfl, hposition, hfront⟩, rfl⟩
  · next hdrive =>
    rw [splitPosition?_eq_some_iff]
    refine and_congr_right fun hwhole ↦ and_congr_right fun hposition ↦ ?_
    subst hwhole
    exact (isFile_iff_of_not_hasDrive hs (ne_nil_of_head?_any hposition) (by simpa using hdrive)).symm

/-! ## Positions -/

theorem parseColumn_eq_ok {column : Option Text} {n : Nat} (h : parseColumn column = .ok n) :
    n < bound32 := by
  unfold parseColumn at h
  split at h
  · obtain rfl := Except.ok.inj h
    decide
  · next text =>
    cases hn : unsigned? bound32 text with
    | none =>
      rw [hn] at h
      cases h
    | some m =>
      rw [hn] at h
      obtain rfl := Except.ok.inj h
      exact lt_of_unsigned?_eq_some hn

theorem exists_of_bind_eq_ok {ε α β : Type} {x : Except ε α} {f : α → Except ε β} {b : β}
    (h : x >>= f = .ok b) : ∃ a, x = .ok a ∧ f a = .ok b := by
  cases x with
  | error e => cases h
  | ok a => exact ⟨a, rfl, h⟩

/-- Lines and columns are counted from one and are below the bound. -/
def InBounds (n : Nat) : Prop := 1 ≤ n ∧ n < bound32

theorem inBounds_of_parsePosition {s : Text} {line column : Nat}
    (h : parsePosition s = .ok (line, column)) : InBounds line ∧ InBounds column := by
  simp only [parsePosition] at h
  split at h
  · cases h
  · next n hline =>
    obtain ⟨m, hcolumn, hcounted⟩ := exists_of_bind_eq_ok h
    split at hcounted
    · cases hcounted
    · next hn =>
      split at hcounted
      · cases hcounted
      · next hm =>
        obtain ⟨rfl, rfl⟩ := Prod.mk.inj (Except.ok.inj hcounted)
        rw [beq_iff_eq] at hn hm
        exact ⟨⟨Nat.pos_of_ne_zero hn, lt_of_unsigned?_eq_some hline⟩,
          Nat.pos_of_ne_zero hm, parseColumn_eq_ok hcolumn⟩

theorem beq_zero_of_inBounds {n : Nat} (h : InBounds n) : (n == 0) = false :=
  beq_eq_false_iff_ne.2 (Nat.pos_iff_ne_zero.1 h.1)

/-- A line alone has the first column. -/
theorem parsePosition_line {line : Nat} (hline : InBounds line) :
    parsePosition (decimal line) = .ok (line, 1) := by
  have hsplit : splitFirst? ':' (decimal line) = none := by
    rw [Option.eq_none_iff_forall_not_mem]
    rintro ⟨before, rest⟩ hsome
    have hcolon : ':' ∈ decimal line := by simp [splitFirst?_eq_some hsome]
    exact not_mem_decimal (by decide) line hcolon
  simp only [parsePosition, hsplit, unsigned?_decimal hline.2]
  change (if line == 0 then _ else _) = _
  rw [beq_zero_of_inBounds hline]
  rfl

theorem parsePosition_pair {line column : Nat} (hline : InBounds line) (hcolumn : InBounds column) :
    parsePosition (decimal line ++ ':' :: decimal column) = .ok (line, column) := by
  have hsplit : splitFirst? ':' (decimal line ++ ':' :: decimal column) =
      some (decimal line, decimal column) :=
    splitFirst?_eq_some_iff.2 ⟨rfl, not_mem_decimal (by decide) line⟩
  simp only [parsePosition, hsplit, unsigned?_decimal hline.2, parseColumn,
    unsigned?_decimal hcolumn.2]
  change (if line == 0 then _ else if column == 0 then _ else _) = _
  rw [beq_zero_of_inBounds hline, beq_zero_of_inBounds hcolumn]
  rfl

/-! ## Locations -/

theorem not_isSpace_of_isAsciiDigit {c : Char} (h : isAsciiDigit c) : isSpace c = false := by
  cases hspace : isSpace c with
  | false => rfl
  | true =>
    have hnone := of_isSpace (p := fun c ↦ !isAsciiDigit c) (by decide) hspace
    rw [h] at hnone
    cases hnone

/-- What is read is a file with a position after it. -/
theorem exists_position_of_parse {input : Text} {l : Location} (h : parse input = .ok l) :
    IsFile l.file ∧ ∃ position, parsePosition position = .ok (l.line, l.column) := by
  have htrim : ∀ c ∈ (trim input).head?, isSpace c = false := by
    apply (not_isSpace_of_trim_eq_self _).1
    calc
      trim (trim input) = trim (trimStart input) := trim_trimEnd (trimStart input)
      _ = trim input := trim_trimStart input
  simp only [parse] at h
  split at h
  · cases h
  · split at h
    · cases h
    · next file position hsplit =>
      split at h
      · cases h
      · obtain ⟨⟨line, column⟩, hposition, hl⟩ := exists_of_bind_eq_ok h
        obtain rfl := Except.ok.inj hl
        exact ⟨((splitFile?_eq_some_iff htrim).1 hsplit).2.2, position, hposition⟩

/-- A file with a position after it is read. -/
theorem parse_append {file position : Text} {line column : Nat} (hfile : IsFile file)
    (hstart : position.head?.any isAsciiDigit) (hlast : ∀ c ∈ position.getLast?, isAsciiDigit c)
    (hposition : parsePosition position = .ok (line, column)) :
    parse (file ++ ':' :: position) = .ok ⟨file, line, column⟩ := by
  have hne : position ≠ [] := ne_nil_of_head?_any hstart
  obtain ⟨d, more, rfl⟩ := List.exists_cons_of_ne_nil hne
  have hdigit : isAsciiDigit d := hstart
  have hhead : ∀ c ∈ (file ++ ':' :: d :: more).head?, isSpace c = false := by
    intro c hc
    cases file with
    | nil =>
      obtain rfl : ':' = c := Option.some.inj hc
      decide
    | cons e file => exact hfile.shown c hc
  have hend : ∀ c ∈ (file ++ ':' :: d :: more).getLast?, isSpace c = false := by
    rw [List.getLast?_append_of_ne_nil _ (List.cons_ne_nil _ _), List.getLast?_cons_cons]
    exact fun c hc ↦ not_isSpace_of_isAsciiDigit (hlast c hc)
  have hsplit : splitFile? (file ++ ':' :: d :: more) = some (file, d :: more) :=
    (splitFile?_eq_some_iff hhead).2 ⟨rfl, by simp [isPositionStart, hdigit], hfile⟩
  have hempty : (file ++ ':' :: d :: more).isEmpty = false := by simp
  have hminus : (some d == some '-') = false := by
    rw [beq_eq_false_iff_ne]
    rintro ⟨⟩
    cases hdigit
  simp only [parse, trim_eq_self hhead hend, hempty, hsplit, List.head?_cons, hminus, hposition]
  rfl

theorem head?_decimal_append (n : Nat) (rest : Text) :
    (decimal n ++ rest).head?.any isAsciiDigit := by
  obtain ⟨d, more, hd⟩ := List.exists_cons_of_ne_nil (decimal_ne_nil n)
  have hdigit : isAsciiDigit d := isAsciiDigit_of_mem_decimal d (by rw [hd]; exact List.mem_cons_self)
  rw [hd]
  exact hdigit

theorem isAsciiDigit_getLast?_decimal (before : Text) (n : Nat) :
    ∀ c ∈ (before ++ decimal n).getLast?, isAsciiDigit c := by
  rw [List.getLast?_append_of_ne_nil _ (decimal_ne_nil n)]
  exact fun c hc ↦ isAsciiDigit_of_mem_decimal c (List.mem_of_getLast? hc)

variable {file : Text} {line column : Nat}

/-- A location is read from its written form. -/
theorem parse_display (hfile : IsFile file) (hline : InBounds line) (hcolumn : InBounds column) :
    parse (display ⟨file, line, column⟩) = .ok ⟨file, line, column⟩ := by
  have hlast := isAsciiDigit_getLast?_decimal (decimal line ++ [':']) column
  rw [List.append_assoc, List.singleton_append] at hlast
  rw [display, List.append_assoc, List.cons_append]
  exact parse_append hfile (head?_decimal_append line _) hlast (parsePosition_pair hline hcolumn)

/-- The column may be left out. -/
theorem parse_withoutColumn (hfile : IsFile file) (hline : InBounds line) :
    parse (file ++ ':' :: decimal line) = .ok ⟨file, line, 1⟩ := by
  have hstart := head?_decimal_append line []
  have hlast := isAsciiDigit_getLast?_decimal [] line
  rw [List.append_nil] at hstart
  exact parse_append hfile hstart hlast (parsePosition_line hline)

/-- A location that is read has a line and a column in bounds, and its written form is read as the
same location. Every file that can be told from a position is read with any line and column in
bounds, and with the first column if none is written. -/
theorem parse_written :
    (∀ input l, parse input = .ok l →
      (1 ≤ l.line ∧ l.line < Nat.pow 2 32) ∧ (1 ≤ l.column ∧ l.column < Nat.pow 2 32) ∧
        parse l.display = .ok l) ∧
      ∀ file, IsFile file → ∀ line column, 1 ≤ line ∧ line < Nat.pow 2 32 →
        1 ≤ column ∧ column < Nat.pow 2 32 →
        parse (file ++ ':' :: decimal line ++ ':' :: decimal column) = .ok ⟨file, line, column⟩ ∧
          parse (file ++ ':' :: decimal line) = .ok ⟨file, line, 1⟩ := by
  refine ⟨fun input l h ↦ ?_, fun file hfile line column hline hcolumn ↦ ⟨?_, ?_⟩⟩
  · obtain ⟨hfile, position, hposition⟩ := exists_position_of_parse h
    obtain ⟨hline, hcolumn⟩ := inBounds_of_parsePosition hposition
    exact ⟨hline, hcolumn, parse_display hfile hline hcolumn⟩
  · exact parse_display hfile hline hcolumn
  · exact parse_withoutColumn hfile hline

/-- The colon of a drive letter may stand before a digit, other colons may stand before a blank, and
numbers may be written with zeros and a plus sign before them. -/
theorem parse_written_drive :
    let file : Text := "C:5\\Größe: x".toList
    parse " C:5\\Größe: x:007:+12 ".toList = .ok ⟨file, 7, 12⟩ ∧
      parse (display ⟨file, 7, 12⟩) = .ok ⟨file, 7, 12⟩ ∧ IsFile file ∧
      parse (file ++ ':' :: decimal 7) = .ok ⟨file, 7, 1⟩ := by
  intro file
  have hread : parse " C:5\\Größe: x:007:+12 ".toList = .ok ⟨file, 7, 12⟩ := by decide
  have hmore : HasNoPosition "5\\Größe: x".toList := by
    simp [hasNoPosition_cons, hasNoPosition_nil, isPositionStart, isAsciiDigit]
  have hfile : IsFile file := (isFile_drive_iff (by decide) (by decide)).2 hmore
  exact ⟨hread, (parse_written.1 _ _ hread).2.2, hfile,
    (parse_written.2 file hfile 7 1 (by decide) (by decide)).2⟩

end VbOutline.Location
