import VbOutline.Proofs.Text.Boundaries
import VbOutline.Proofs.Text.Lines
import VbOutline.Source.Document

/-!
# Offsets and positions

A position in a document has a byte offset, and an offset has a position. An offset inside a
character has the position after the character. As long as 32 bits hold the lines and the characters,
positions rise with the offsets, and each conversion undoes the other one within the content of a
line. The content ends before all carriage returns at the end of a line, while only the one that
belongs to the line end is no part of the line itself: behind any other of them a position in the line
is moved back.
-/

namespace VbOutline

open Text

namespace Text

/-- A text that consists of whole lines, each with its line feed. -/
inductive Ended : Text → Prop where
  | nil : Ended []
  | line {line rest : Text} (hline : '\n' ∉ line) (hrest : Ended rest) :
    Ended (line ++ '\n' :: rest)

/-- A text consists of whole lines and the beginning of one more. -/
theorem exists_ended_append (s : Text) :
    ∃ front left, s = front ++ left ∧ Ended front ∧ '\n' ∉ left := by
  induction s with
  | nil => exact ⟨[], [], rfl, .nil, List.not_mem_nil⟩
  | cons c s ih =>
    obtain ⟨front, left, rfl, hfront, hleft⟩ := ih
    by_cases hc : c = '\n'
    · subst hc
      have hended : Ended ([] ++ '\n' :: front) := .line List.not_mem_nil hfront
      exact ⟨'\n' :: front, left, rfl, hended, hleft⟩
    · have hne : '\n' ≠ c := fun h ↦ hc h.symm
      cases hfront with
      | nil => exact ⟨[], c :: left, rfl, .nil, by simp [hne, hleft]⟩
      | @line line rest hline hrest =>
        refine ⟨c :: line ++ '\n' :: rest, left, by simp, .line ?_ hrest, hleft⟩
        simp [hne, hline]

/-- A line of a text, with the lines before it and with what follows it, which is nothing or begins
with a line feed. -/
structure IsLine (s front line rest : Text) : Prop where
  whole : s = front ++ (line ++ rest)
  ended : Ended front
  oneLine : '\n' ∉ line
  follows : ∀ c ∈ rest.head?, c = '\n'

/-- Where a text is divided, a line is divided into a beginning and an end. -/
theorem exists_isLine (before after : Text) :
    ∃ front left right rest, before = front ++ left ∧
      IsLine (before ++ after) front (left ++ right) rest := by
  obtain ⟨front, left, rfl, hfront, hleft⟩ := exists_ended_append before
  refine ⟨front, left, after.takeWhile (· != '\n'), after.dropWhile (· != '\n'), rfl, ?_, hfront,
    ?_, ?_⟩
  · rw [List.append_assoc, List.append_assoc, List.takeWhile_append_dropWhile]
  · rw [List.mem_append, not_or]
    refine ⟨hleft, fun hright ↦ ?_⟩
    simpa using List.mem_takeWhile_imp hright
  · intro c hc
    have hhead := List.head?_dropWhile_not (· != '\n') after
    rw [show (after.dropWhile (· != '\n')).head? = some c from hc] at hhead
    simpa using hhead

theorem splitAll_line {line : Text} (hline : '\n' ∉ line) (rest : Text) :
    splitAll '\n' (line ++ '\n' :: rest) = line :: splitAll '\n' rest := by
  rw [splitAll_append, splitAll_of_not_mem hline, List.singleton_append]

/-- Each part between line feeds is a line, and has as many feeds before it as parts. -/
theorem exists_isLine_of_getElem?_splitAll {s part : Text} {index : Nat}
    (h : (splitAll '\n' s)[index]? = some part) :
    ∃ front rest, IsLine s front part rest ∧ front.count '\n' = index := by
  induction index generalizing s with
  | zero =>
    by_cases hfeed : '\n' ∈ s
    · obtain ⟨first, rest, rfl, hfirst⟩ := List.eq_append_cons_of_mem hfeed
      rw [splitAll_line hfirst] at h
      obtain rfl : first = part := Option.some.inj h
      exact ⟨[], '\n' :: rest, ⟨rfl, .nil, hfirst, by simp⟩, rfl⟩
    · rw [splitAll_of_not_mem hfeed] at h
      obtain rfl : s = part := Option.some.inj h
      exact ⟨[], [], ⟨by simp, .nil, hfeed, by simp⟩, rfl⟩
  | succ index ih =>
    by_cases hfeed : '\n' ∈ s
    · obtain ⟨first, more, rfl, hfirst⟩ := List.eq_append_cons_of_mem hfeed
      rw [splitAll_line hfirst] at h
      obtain ⟨front, rest, hpart, hcount⟩ := ih h
      refine ⟨first ++ '\n' :: front, rest,
        ⟨?_, .line hfirst hpart.ended, hpart.oneLine, hpart.follows⟩, ?_⟩
      · rw [hpart.whole, List.append_assoc, List.cons_append]
      · rw [List.count_append, List.count_eq_zero.2 hfirst, List.count_cons_self, Nat.zero_add,
          hcount]
    · rw [splitAll_of_not_mem hfeed] at h
      cases h

theorem IsLine.mem_splitAll {s front line rest : Text} (h : IsLine s front line rest) :
    line ∈ splitAll '\n' s := by
  obtain ⟨rfl, hfront, hline, hrest⟩ := h
  induction hfront with
  | nil =>
    cases rest with
    | nil => simp [splitAll_of_not_mem hline]
    | cons c rest =>
      obtain rfl := hrest c rfl
      rw [List.nil_append, splitAll_line hline]
      exact List.mem_cons_self
  | @line first front hfirst hfront ih =>
    rw [List.append_assoc, List.cons_append, splitAll_line hfirst]
    exact List.mem_cons_of_mem first ih

/-- Fewer than `2 ^ 32` line feeds, and fewer than `2 ^ 32` characters on each line. -/
def Countable (s : Text) : Prop :=
  s.count '\n' < UInt32.size ∧ ∀ line ∈ splitAll '\n' s, line.length < UInt32.size

end Text

namespace Position

/-- Line and character have 32 bits each. -/
def Fits (p : Position) : Prop := p.line < UInt32.size ∧ p.character < UInt32.size

theorem fits_wrapped (p : Position) : p.wrapped.Fits :=
  ⟨Nat.mod_lt _ (by decide), Nat.mod_lt _ (by decide)⟩

theorem Fits.wrapped_eq {p : Position} (h : p.Fits) : p.wrapped = p := by
  rw [wrapped, Nat.mod_eq_of_lt h.1, Nat.mod_eq_of_lt h.2]

/-- The position after the characters of a text. -/
def after (before : Text) : Position :=
  ⟨before.count '\n', (before.reverse.takeWhile (· != '\n')).length⟩

theorem after_of_not_mem {s : Text} (h : '\n' ∉ s) : after s = ⟨0, s.length⟩ := by
  have hall : ∀ c ∈ s.reverse, (c != '\n') = true := by
    intro c hc
    rw [bne_iff_ne]
    rintro rfl
    exact h (List.mem_reverse.1 hc)
  rw [after, List.count_eq_zero.2 h, List.takeWhile_eq_self_iff.2 hall, List.length_reverse]

theorem after_line {line : Text} (hline : '\n' ∉ line) (s : Text) :
    after (line ++ '\n' :: s) = ⟨(after s).line + 1, (after s).character⟩ := by
  have hline : (line ++ '\n' :: s).count '\n' = s.count '\n' + 1 := by
    rw [List.count_append, List.count_eq_zero.2 hline, Nat.zero_add, List.count_cons_self]
  have hcharacter : (line ++ '\n' :: s).reverse.takeWhile (· != '\n') =
      s.reverse.takeWhile (· != '\n') := by
    rw [List.reverse_append, List.reverse_cons, List.append_assoc, List.takeWhile_append]
    split
    · next hall =>
      simp [(List.takeWhile_prefix _).eq_of_length hall]
    · rfl
  rw [after, hline, hcharacter]
  rfl

/-- Behind whole lines the position is on the line after them. -/
theorem after_ended {front left : Text} (hfront : Ended front) (hleft : '\n' ∉ left) :
    after (front ++ left) = ⟨front.count '\n', left.length⟩ := by
  induction hfront with
  | nil => exact after_of_not_mem hleft
  | @line line rest hline hrest ih =>
    rw [List.append_assoc, List.cons_append, after_line hline, ih, List.count_append,
      List.count_eq_zero.2 hline, List.count_cons_self, Nat.zero_add]

theorem after_concat {c : Char} (hc : c ≠ '\n') (s : Text) :
    after (s ++ [c]) = ⟨(after s).line, (after s).character + 1⟩ := by
  obtain ⟨front, left, rfl, hfront, hleft⟩ := exists_ended_append s
  have hmore : '\n' ∉ left ++ [c] := by
    simp [hleft, hc.symm]
  rw [List.append_assoc, after_ended hfront hmore, after_ended hfront hleft, List.length_append]
  rfl

theorem after_feed (s : Text) : after (s ++ ['\n']) = ⟨(after s).line + 1, 0⟩ := by
  rw [after, after, List.count_append, List.count_singleton_self, List.reverse_append]
  rfl

theorem le_iff {p q : Position} :
    p.le q ↔ p.line < q.line ∨ p.line = q.line ∧ p.character ≤ q.character := by
  rw [le, Bool.or_eq_true, Bool.and_eq_true, decide_eq_true_eq, beq_iff_eq, decide_eq_true_eq]

/-- If the position does not fall behind one more character, its count did not start again. -/
theorem Fits.after_concat {s : Text} (h : (after s).Fits) {c : Char}
    (hle : (after s).le (after (s ++ [c])).wrapped) : (after (s ++ [c])).Fits := by
  obtain ⟨hline, hcharacter⟩ := h
  rw [le_iff] at hle
  by_cases hc : c = '\n'
  · subst hc
    rw [after_feed, wrapped] at hle
    rw [after_feed, Fits]
    dsimp only [UInt32.size] at hline hle ⊢
    omega
  · rw [Position.after_concat hc, wrapped] at hle
    rw [Position.after_concat hc, Fits]
    dsimp only [UInt32.size] at hline hcharacter hle ⊢
    omega

/-- Line and character of all beginnings of a text have 32 bits if and only if those of its lines
do. -/
theorem fits_after_iff {s : Text} : (∀ before, before <+: s → (after before).Fits) ↔ Countable s := by
  constructor
  · intro h
    refine ⟨(h s List.prefix_rfl).1, fun line hline ↦ ?_⟩
    obtain ⟨index, hindex⟩ := List.getElem?_of_mem hline
    obtain ⟨front, rest, hpart, -⟩ := exists_isLine_of_getElem?_splitAll hindex
    have hfits := h (front ++ line) ⟨rest, by rw [hpart.whole, List.append_assoc]⟩
    rw [after_ended hpart.ended hpart.oneLine] at hfits
    exact hfits.2
  · rintro ⟨hcount, hlines⟩ before ⟨rest, rfl⟩
    obtain ⟨front, left, right, rest, rfl, hline⟩ := exists_isLine before rest
    have hleft : '\n' ∉ left := fun hfeed ↦ hline.oneLine (List.mem_append_left right hfeed)
    have hlength := hlines _ hline.mem_splitAll
    rw [List.length_append] at hlength
    rw [List.append_assoc, List.count_append] at hcount
    rw [after_ended hline.ended hleft]
    exact ⟨Nat.lt_of_le_of_lt (Nat.le_add_right _ _) hcount,
      Nat.lt_of_le_of_lt (Nat.le_add_right _ _) hlength⟩

theorem after_le_of_isPrefix {s t : Text} (h : s <+: t) : (after s).le (after t) := by
  obtain ⟨more, rfl⟩ := h
  rw [le_iff]
  by_cases hmore : '\n' ∈ more
  · left
    have hpos : 0 < more.count '\n' := List.count_pos_iff.2 hmore
    calc
      (after s).line < s.count '\n' + more.count '\n' := Nat.lt_add_of_pos_right hpos
      _ = (after (s ++ more)).line := List.count_append.symm
  · right
    obtain ⟨front, left, rfl, hfront, hleft⟩ := exists_ended_append s
    have hall : '\n' ∉ left ++ more := by
      simp [hleft, hmore]
    rw [List.append_assoc, after_ended hfront hall, after_ended hfront hleft]
    refine ⟨rfl, ?_⟩
    rw [List.length_append]
    exact Nat.le_add_right _ _

end Position

namespace Document

theorem beginningBefore_append {before : Text} {offset : Nat} (h : byteSize before ≤ offset)
    (after : Text) : beginningBefore offset (before ++ after) =
      before ++ beginningBefore (offset - byteSize before) after := by
  induction before generalizing offset with
  | nil => rfl
  | cons c before ih =>
    have hpos := Char.utf8Size_pos c
    rw [byteSize_cons] at h
    have hne : (offset == 0) = false := by
      rw [beq_eq_false_iff_ne]
      omega
    rw [List.cons_append, beginningBefore, hne, if_neg Bool.false_ne_true, ih (by omega),
      byteSize_cons, Nat.sub_add_eq, List.cons_append]

theorem beginningBefore_zero (s : Text) : beginningBefore 0 s = [] := by
  cases s with
  | nil => rfl
  | cons c s => rfl

theorem beginningBefore_byteSize (before after : Text) :
    beginningBefore (byteSize before) (before ++ after) = before := by
  rw [beginningBefore_append (Nat.le_refl _), Nat.sub_self, beginningBefore_zero, List.append_nil]

theorem beginningBefore_isPrefix {small large : Nat} (h : small ≤ large) (s : Text) :
    beginningBefore small s <+: beginningBefore large s := by
  induction s generalizing small large with
  | nil => exact List.prefix_rfl
  | cons c s ih =>
    rw [beginningBefore, beginningBefore]
    split
    · exact List.nil_prefix
    · next hsmall =>
      have hlarge : ¬ (large == 0) = true := by
        rw [beq_iff_eq] at hsmall ⊢
        omega
      rw [if_neg hlarge, List.cons_prefix_cons]
      exact ⟨rfl, ih (by omega)⟩

variable {d : Document}

theorem positionAt_eq (d : Document) (offset : Nat) :
    d.positionAt offset = (Position.after (beginningBefore offset d.text)).wrapped := rfl

theorem positionAt_byteSize {before after : Text} (h : d.text = before ++ after) :
    d.positionAt (byteSize before) = (Position.after before).wrapped := by
  rw [positionAt_eq, h, beginningBefore_byteSize]

/-- An offset inside a character has the position after the character. -/
theorem positionAt_inside {before rest : Text} {c : Char} {offset : Nat}
    (h : d.text = before ++ c :: rest) (hfirst : byteSize before < offset)
    (hlast : offset ≤ byteSize before + c.utf8Size) :
    d.positionAt offset = (Position.after (before ++ [c])).wrapped := by
  have hne : (offset - byteSize before == 0) = false := by
    rw [beq_eq_false_iff_ne]
    omega
  rw [positionAt_eq, h, beginningBefore_append hfirst.le, beginningBefore, hne,
    if_neg Bool.false_ne_true, show offset - byteSize before - c.utf8Size = 0 by omega,
    beginningBefore_zero]

theorem positionAt_of_byteSize_le {offset : Nat} (h : byteSize d.text ≤ offset) :
    d.positionAt offset = (Position.after d.text).wrapped := by
  have hall := beginningBefore_append h []
  rw [List.append_nil] at hall
  rw [positionAt_eq, hall, beginningBefore, List.append_nil]

/-- The position of an offset, by the characters that end at the offset or before it. -/
theorem positionAt_eq_ite {before rest : Text} {offset : Nat} (htext : d.text = before ++ rest)
    (hle : byteSize before ≤ offset)
    (hnext : ∀ c ∈ rest.head?, offset < byteSize before + c.utf8Size) :
    d.positionAt offset =
      if byteSize before = min offset (byteSize d.text) then (Position.after before).wrapped
      else Position.wrapped ⟨(Position.after before).line, (Position.after before).character + 1⟩ := by
  cases rest with
  | nil =>
    rw [List.append_nil] at htext
    rw [htext, if_pos (Nat.min_eq_right hle).symm, ← htext, positionAt_of_byteSize_le (htext ▸ hle)]
  | cons c rest =>
    have hlt : offset < byteSize before + c.utf8Size := hnext c rfl
    have hmin : min offset (byteSize d.text) = offset := by
      rw [htext, byteSize_append, byteSize_cons]
      omega
    rw [hmin]
    split
    · next hsame => rw [← hsame, positionAt_byteSize htext]
    · next hinside =>
      -- a line feed has one byte, so nothing is inside it
      have hc : c ≠ '\n' := by
        rintro rfl
        change offset < byteSize before + 1 at hlt
        omega
      rw [positionAt_inside htext (by omega) hlt.le, Position.after_concat hc]

/-- An offset has the position of the last boundary up to it if and only if it is that boundary, or
lies beyond the end of the text. Otherwise it has the position one character further right. -/
theorem positionAt_eq_iff_boundary (d : Document) (offset : Nat) :
    ∃ b, IsGreatest {b | IsBoundary d.text b ∧ b ≤ min offset (byteSize d.text)} b ∧
      (d.positionAt offset = d.positionAt b ↔ b = min offset (byteSize d.text)) ∧
      d.positionAt offset =
        if b = min offset (byteSize d.text) then d.positionAt b
        else ⟨(d.positionAt b).line, ((d.positionAt b).character + 1) % UInt32.size⟩ := by
  obtain ⟨before, rest, htext, hle, hnext⟩ := exists_split_by d.text offset
  have hgreatest := isGreatest_boundary hle hnext
  have hposition := positionAt_eq_ite htext hle hnext
  have hright : Position.wrapped
      ⟨(Position.after before).line, (Position.after before).character + 1⟩ =
        ⟨(d.positionAt (byteSize before)).line,
          ((d.positionAt (byteSize before)).character + 1) % UInt32.size⟩ := by
    rw [positionAt_byteSize htext, Position.wrapped, Position.wrapped, Nat.mod_add_mod]
  rw [← htext] at hgreatest
  rw [← positionAt_byteSize htext, hright] at hposition
  refine ⟨byteSize before, hgreatest, ⟨?_, ?_⟩, hposition⟩
  · intro hsame
    by_contra hinside
    rw [if_neg hinside, hsame] at hposition
    -- the next number in 32 bits is another one
    have hnext := congrArg Position.character hposition
    have hlt := (Position.fits_wrapped (Position.after before)).2
    rw [← positionAt_byteSize htext] at hlt
    dsimp only [UInt32.size] at hnext hlt
    omega
  · intro hmin
    rw [hposition, if_pos hmin]

/-- The second byte of a letter has the position after the letter. -/
theorem positionAt_insideLetter :
    let d : Document := ⟨"file:///a.vb", "é".toList⟩
    IsGreatest {b | IsBoundary d.text b ∧ b ≤ min 1 (byteSize d.text)} 0 ∧
      d.positionAt 0 = ⟨0, 0⟩ ∧ d.positionAt 1 = ⟨0, 1⟩ := by
  intro d
  have hnext : ∀ c ∈ d.text.head?, 1 < byteSize [] + c.utf8Size := by
    rintro _ ⟨⟩
    decide
  exact ⟨@isGreatest_boundary [] d.text 1 (Nat.zero_le 1) hnext, by decide, by decide⟩

theorem content_isPrefix (line : Text) : content line <+: line := dropEndWhile_isPrefix _ line

/-- The carriage return that belongs to a line end is not in the content either. -/
theorem content_dropReturn (part : Text) : content (dropReturn part) = content part := by
  rw [dropReturn]
  split
  · next hreturn =>
    obtain ⟨front, rfl⟩ := List.getLast?_eq_some_iff.1 (beq_iff_eq.1 hreturn)
    rw [List.dropLast_concat, content, content, dropEndWhile, dropEndWhile, List.reverse_append]
    rfl
  · rfl

theorem offsetIn_ended {front line rest : Text} (hfront : Ended front) (hline : '\n' ∉ line)
    (hrest : ∀ c ∈ rest.head?, c = '\n') (character : Nat) :
    offsetIn ⟨front.count '\n', character⟩ (splitAll '\n' (front ++ (line ++ rest))) =
      byteSize front + byteSize ((content line).take character) := by
  induction hfront with
  | nil =>
    obtain ⟨more, hmore⟩ : ∃ more, splitAll '\n' (line ++ rest) = line :: more := by
      cases rest with
      | nil => exact ⟨[], by rw [List.append_nil, splitAll_of_not_mem hline]⟩
      | cons c rest =>
        obtain rfl := hrest c rfl
        exact ⟨_, splitAll_line hline rest⟩
    rw [List.nil_append, hmore, byteSize_nil, Nat.zero_add]
    rfl
  | @line first front hfirst hfront ih =>
    have hne : (splitAll '\n' (front ++ (line ++ rest))).isEmpty = false :=
      List.isEmpty_eq_false_iff.2 (splitAll_ne_nil _ _)
    rw [List.append_assoc, List.cons_append, splitAll_line hfirst, List.count_append,
      List.count_eq_zero.2 hfirst, List.count_cons_self, Nat.zero_add, offsetIn]
    simp only [hne, Bool.false_eq_true, if_false]
    rw [ih, byteSize_append, byteSize_cons, show '\n'.utf8Size = 1 from rfl]
    omega

/-- The offset of a position on a line, which lies in the content of the line. -/
theorem offsetAt_of_isLine {front line rest : Text} (h : IsLine d.text front line rest)
    (character : Nat) : d.offsetAt ⟨front.count '\n', character⟩ =
      byteSize front + byteSize ((content line).take character) := by
  rw [offsetAt, h.whole]
  exact offsetIn_ended h.ended h.oneLine h.follows character

/-- Each line that is counted is a part between line feeds, and has the content of the part. -/
theorem exists_part_of_getElem?_lines {s line : Text} {index : Nat}
    (h : (Text.lines s)[index]? = some line) :
    ∃ part, (splitAll '\n' s)[index]? = some part ∧ content part = content line := by
  obtain ⟨front, last, hparts⟩ : ∃ front last, splitAll '\n' s = front ++ [last] :=
    ⟨_, _, (List.dropLast_append_getLast (splitAll_ne_nil '\n' s)).symm⟩
  simp only [Text.lines, hparts, List.dropLast_concat, List.getLast?_concat, Option.getD_some,
    List.getElem?_append, List.length_map] at h
  rw [hparts, List.getElem?_append]
  split at h
  · next hindex =>
    rw [List.getElem?_map, Option.map_eq_some_iff] at h
    obtain ⟨part, hpart, rfl⟩ := h
    exact ⟨part, by rw [if_pos hindex, hpart], (content_dropReturn part).symm⟩
  · next hindex =>
    split at h
    · cases h
    · exact ⟨line, by rw [if_neg hindex, h], rfl⟩

/-- The offset of a position on a line has that position, or the end of the content if the position
lies beyond it. -/
theorem positionAt_offsetAt {p : Position} {line : Text} (hline : d.line? p.line = some line) :
    d.positionAt (d.offsetAt p) =
      Position.wrapped ⟨p.line, min p.character (content line).length⟩ := by
  obtain ⟨part, hparts, hcontent⟩ := exists_part_of_getElem?_lines hline
  obtain ⟨front, rest, hpart, hcount⟩ := exists_isLine_of_getElem?_splitAll hparts
  have hinside : (content part).take p.character <+: part :=
    (List.take_prefix p.character (content part)).trans (content_isPrefix part)
  obtain ⟨more, hmore⟩ := hinside
  have htext : d.text = (front ++ (content part).take p.character) ++ (more ++ rest) := by
    rw [hpart.whole, List.append_assoc, ← List.append_assoc _ more, hmore]
  have hleft : '\n' ∉ (content part).take p.character := by
    intro hfeed
    apply hpart.oneLine
    rw [← hmore]
    exact List.mem_append_left more hfeed
  have hoffset : d.offsetAt p = byteSize (front ++ (content part).take p.character) := by
    rw [byteSize_append, ← offsetAt_of_isLine hpart, hcount]
  rw [hoffset, positionAt_byteSize htext, Position.after_ended hpart.ended hleft, hcount,
    List.length_take, hcontent]

/-- A position on a line comes back from its offset if and only if it does not lie behind a carriage
return that ends the line. Line and character are numbers of 32 bits. -/
theorem positionAt_offsetAt_eq_iff {p : Position} {line : Text}
    (hline : d.line? p.line = some line) :
    d.positionAt (d.offsetAt p) = p ↔ p.character ≤ (content line).length ∧ p.Fits := by
  rw [positionAt_offsetAt hline]
  constructor
  · intro hback
    have hfits : p.Fits := hback ▸ Position.fits_wrapped _
    have hcharacter : min p.character (content line).length % UInt32.size = p.character :=
      congrArg Position.character hback
    have hle := Nat.mod_le (min p.character (content line).length) UInt32.size
    exact ⟨by omega, hfits⟩
  · rintro ⟨hcontent, hfits⟩
    rw [Nat.min_eq_left hcontent]
    exact hfits.wrapped_eq

/-- Of two carriage returns before a line feed the first one belongs to the line. -/
theorem positionAt_offsetAt_eq_iff_twoReturns :
    let d : Document := ⟨"file:///a.vb", "é\r\r\nb".toList⟩
    d.line? 0 = some "é\r".toList ∧ d.positionAt (d.offsetAt ⟨0, 1⟩) = ⟨0, 1⟩ ∧
      d.positionAt (d.offsetAt ⟨0, 2⟩) ≠ ⟨0, 2⟩ := by
  intro d
  have hline : d.line? 0 = some "é\r".toList := by decide
  have hfits : (⟨0, 1⟩ : Position).Fits := ⟨by decide, by decide⟩
  refine ⟨hline, (@positionAt_offsetAt_eq_iff d ⟨0, 1⟩ _ hline).2 ⟨by decide, hfits⟩, fun hback ↦ ?_⟩
  exact absurd ((@positionAt_offsetAt_eq_iff d ⟨0, 2⟩ _ hline).1 hback).1 (by decide)

/-- The position at the end of a line that ends with a carriage return is moved before it. -/
theorem positionAt_offsetAt_loneReturn :
    let d : Document := ⟨"file:///a.vb", "a\r".toList⟩
    0 < d.lineCount ∧ d.line? 0 = some "a\r".toList ∧ 2 ≤ "a\r".toList.length ∧
      d.offsetAt ⟨0, 2⟩ = 1 ∧ d.positionAt 1 = ⟨0, 1⟩ := by
  decide

/-- The byte offset lies in the content of a line of the text. -/
def InContent (s : Text) (offset : Nat) : Prop :=
  ∃ front line rest, IsLine s front line rest ∧
    byteSize front ≤ offset ∧ offset ≤ byteSize front + byteSize (content line)

theorem beginningBefore_isPrefix_self (offset : Nat) (s : Text) : beginningBefore offset s <+: s := by
  have h := beginningBefore_isPrefix (Nat.le_max_left offset (byteSize s)) s
  have hall := beginningBefore_append (Nat.le_max_right offset (byteSize s)) []
  rw [List.append_nil, beginningBefore, List.append_nil] at hall
  rwa [hall] at h

theorem positionAt_le (h : Countable d.text) {small large : Nat} (hle : small ≤ large) :
    (d.positionAt small).le (d.positionAt large) := by
  have hfits (offset : Nat) : (Position.after (beginningBefore offset d.text)).Fits :=
    Position.fits_after_iff.2 h _ (beginningBefore_isPrefix_self offset d.text)
  rw [positionAt_eq, positionAt_eq, (hfits small).wrapped_eq, (hfits large).wrapped_eq]
  exact Position.after_le_of_isPrefix (beginningBefore_isPrefix hle d.text)

/-- Where a count starts again at zero the positions fall. -/
theorem countable_of_positionAt_le
    (h : ∀ small large, small ≤ large → (d.positionAt small).le (d.positionAt large)) :
    Countable d.text := by
  refine Position.fits_after_iff.1 fun before ↦ ?_
  induction before using List.reverseRecOn with
  | nil => exact fun _ ↦ ⟨Nat.two_pow_pos 32, Nat.two_pow_pos 32⟩
  | append_singleton before c ih =>
    rintro ⟨rest, htext⟩
    have hfits := ih ⟨c :: rest, by rw [← htext, List.append_assoc, List.singleton_append]⟩
    have hrises := h (byteSize before) (byteSize (before ++ [c]))
      (byteSize_le_of_isPrefix (List.prefix_append before [c]))
    have hbefore : d.text = before ++ c :: rest := by
      rw [← htext, List.append_assoc, List.singleton_append]
    rw [positionAt_byteSize hbefore, positionAt_byteSize htext.symm, hfits.wrapped_eq] at hrises
    exact hfits.after_concat hrises

/-- An offset comes back from its position as far as the content of its line goes. -/
theorem offsetAt_after {front left right rest : Text}
    (h : IsLine d.text front (left ++ right) rest) :
    d.offsetAt (.after (front ++ left)) =
      byteSize front + byteSize ((content (left ++ right)).take left.length) := by
  have hleft : '\n' ∉ left := fun hfeed ↦ h.oneLine (List.mem_append_left right hfeed)
  rw [Position.after_ended h.ended hleft, offsetAt_of_isLine h]

/-- A boundary in the content of a line divides the content. -/
theorem InContent.exists_left {offset : Nat} (h : InContent d.text offset)
    (hboundary : IsBoundary d.text offset) :
    ∃ front left right rest, IsLine d.text front (left ++ right) rest ∧
      left <+: content (left ++ right) ∧ offset = byteSize (front ++ left) := by
  obtain ⟨front, line, rest, hline, hfrom, hto⟩ := h
  obtain ⟨before, hbefore, rfl⟩ := hboundary
  have hfront : front <+: d.text := ⟨line ++ rest, hline.whole.symm⟩
  obtain ⟨left, rfl⟩ := isPrefix_of_byteSize_le hfront hbefore hfrom
  have hcontent : front ++ content line <+: d.text := by
    obtain ⟨more, hmore⟩ := content_isPrefix line
    refine ⟨more ++ rest, ?_⟩
    rw [hline.whole, List.append_assoc, ← List.append_assoc _ more, hmore]
  have hinside : left <+: content line := by
    rw [← byteSize_append] at hto
    exact (List.prefix_append_right_inj front).1 (isPrefix_of_byteSize_le hbefore hcontent hto)
  obtain ⟨right, rfl⟩ := hinside.trans (content_isPrefix line)
  exact ⟨front, left, right, rest, hline, hinside, rfl⟩

theorem offsetAt_after_eq_iff {before rest : Text} (htext : d.text = before ++ rest) :
    d.offsetAt (.after before) = byteSize before ↔ InContent d.text (byteSize before) := by
  constructor
  · intro hback
    obtain ⟨front, left, right, rest, rfl, hline⟩ := exists_isLine before rest
    rw [← htext] at hline
    rw [offsetAt_after hline] at hback
    have hle := byteSize_le_of_isPrefix (List.take_prefix left.length (content (left ++ right)))
    refine ⟨front, left ++ right, rest, hline, ?_, ?_⟩
    · rw [byteSize_append]
      omega
    · omega
  · intro hcontent
    have hboundary : IsBoundary d.text (byteSize before) := ⟨before, ⟨rest, htext.symm⟩, rfl⟩
    obtain ⟨front, left, right, rest', hline, hleft, hsize⟩ := hcontent.exists_left hboundary
    have hfront : front ++ left <+: d.text := ⟨right ++ rest', by rw [hline.whole]; simp⟩
    have hbefore : before <+: d.text := ⟨rest, htext.symm⟩
    obtain rfl : before = front ++ left := eq_of_byteSize_eq hbefore hfront hsize
    rw [offsetAt_after hline, ← List.prefix_iff_eq_take.1 hleft, byteSize_append]

/-- A position on an earlier line has an offset before the whole lines. -/
theorem offsetIn_lt_of_lt {front : Text} (hfront : Ended front) (rest : Text) {p : Position}
    (h : p.line < front.count '\n') :
    offsetIn p (splitAll '\n' (front ++ rest)) < byteSize front := by
  induction hfront generalizing p with
  | nil => simp at h
  | @line line front hline hfront ih =>
    have hne : (splitAll '\n' (front ++ rest)).isEmpty = false :=
      List.isEmpty_eq_false_iff.2 (splitAll_ne_nil _ _)
    rw [List.append_assoc, List.cons_append, splitAll_line hline, byteSize_append, byteSize_cons,
      show '\n'.utf8Size = 1 from rfl]
    obtain ⟨index, character⟩ := p
    cases index with
    | zero =>
      have hle := byteSize_le_of_isPrefix
        ((List.take_prefix character (content line)).trans (content_isPrefix line))
      dsimp only [offsetIn]
      omega
    | succ index =>
      rw [List.count_append, List.count_eq_zero.2 hline, List.count_cons_self, Nat.zero_add] at h
      have hlt := @ih ⟨index, character⟩ (Nat.lt_of_succ_lt_succ h)
      simp only [offsetIn, hne, Bool.false_eq_true, if_false]
      omega

/-- A position whose counts started again has an offset before the one it was counted for. -/
theorem fits_of_offsetAt_wrapped {before rest : Text} (htext : d.text = before ++ rest)
    (h : d.offsetAt (Position.after before).wrapped = byteSize before) :
    (Position.after before).Fits := by
  obtain ⟨front, left, right, rest, rfl, hline⟩ := exists_isLine before rest
  rw [← htext] at hline
  have hleft : '\n' ∉ left := fun hfeed ↦ hline.oneLine (List.mem_append_left right hfeed)
  rw [Position.after_ended hline.ended hleft] at h ⊢
  rw [byteSize_append, Position.wrapped] at h
  dsimp only at h
  have hcount : front.count '\n' < UInt32.size := by
    by_contra hlarge
    have hless : front.count '\n' % UInt32.size < front.count '\n' :=
      (Nat.mod_lt _ (by decide)).trans_le (Nat.not_lt.1 hlarge)
    have hback := offsetIn_lt_of_lt hline.ended (left ++ right ++ rest)
      (p := ⟨front.count '\n' % UInt32.size, left.length % UInt32.size⟩) hless
    rw [← hline.whole, ← offsetAt, h] at hback
    omega
  refine ⟨hcount, ?_⟩
  rw [Nat.mod_eq_of_lt hcount, offsetAt_of_isLine hline, Nat.add_left_cancel_iff] at h
  by_contra hlarge
  have hprefix : left <+: (content (left ++ right)).take (left.length % UInt32.size) :=
    isPrefix_of_byteSize_le (List.prefix_append left right)
      ((List.take_prefix _ _).trans (content_isPrefix _)) h.ge
  have hlength := hprefix.length_le.trans (List.length_take_le _ _)
  have hless := Nat.mod_lt left.length (show 0 < UInt32.size by decide)
  dsimp only at hlarge
  omega

theorem offsetAt_positionAt_eq_iff {offset : Nat} (hboundary : IsBoundary d.text offset) :
    d.offsetAt (d.positionAt offset) = offset ↔
      InContent d.text offset ∧ (Position.after (beginningBefore offset d.text)).Fits := by
  obtain ⟨before, ⟨rest, htext⟩, rfl⟩ := hboundary
  have hbefore : beginningBefore (byteSize before) d.text = before := by
    rw [← htext, beginningBefore_byteSize]
  rw [positionAt_eq, hbefore, ← offsetAt_after_eq_iff htext.symm]
  constructor
  · intro hback
    have hfits := fits_of_offsetAt_wrapped htext.symm hback
    exact ⟨hfits.wrapped_eq ▸ hback, hfits⟩
  · rintro ⟨hback, hfits⟩
    rw [hfits.wrapped_eq, hback]

/-- The end of a text after a line feed is in the content of the last line, which is empty. -/
theorem inContent_end {s : Text} (h : s.getLast? = some '\n') : InContent s (byteSize s) := by
  obtain ⟨front, left, rfl, hfront, hleft⟩ := exists_ended_append s
  cases left with
  | nil => exact ⟨front, [], [], ⟨by simp, hfront, List.not_mem_nil, by simp⟩, by simp, by simp⟩
  | cons c left =>
    rw [List.getLast?_append_of_ne_nil _ (List.cons_ne_nil c left)] at h
    exact absurd (List.mem_of_getLast? h) hleft

/-- Positions rise with the offsets if and only if 32 bits hold the lines of the text and the
characters of each line. A boundary comes back from its position if and only if it lies in the content
of a line, and 32 bits hold its line and its character. The end of a text after a line feed does if 32
bits hold the number of its lines. -/
theorem positionAt_rises_and_comes_back (d : Document) :
    ((∀ small large, small ≤ large → (d.positionAt small).le (d.positionAt large)) ↔
        Countable d.text) ∧
      (∀ offset, IsBoundary d.text offset →
        (d.offsetAt (d.positionAt offset) = offset ↔
          InContent d.text offset ∧ (Position.after (beginningBefore offset d.text)).Fits)) ∧
      (d.text.getLast? = some '\n' →
        (d.offsetAt (d.positionAt (byteSize d.text)) = byteSize d.text ↔
          d.text.count '\n' < UInt32.size)) := by
  refine ⟨⟨countable_of_positionAt_le, fun h _ _ ↦ positionAt_le h⟩,
    fun _ ↦ offsetAt_positionAt_eq_iff, fun hfeed ↦ ?_⟩
  obtain ⟨front, hfront⟩ := List.getLast?_eq_some_iff.1 hfeed
  have hwhole : beginningBefore (byteSize d.text) d.text = d.text := by
    have hall := beginningBefore_byteSize d.text []
    rwa [List.append_nil] at hall
  have hend : (Position.after d.text).character = 0 := by rw [hfront, Position.after_feed]
  rw [offsetAt_positionAt_eq_iff ⟨d.text, List.prefix_rfl, rfl⟩, hwhole, Position.Fits, hend]
  exact ⟨fun h ↦ h.2.1, fun h ↦ ⟨inContent_end hfeed, h, by decide⟩⟩

theorem positionAt_replicate (uri : String) {k n : Nat} (h : k ≤ n) :
    positionAt ⟨uri, List.replicate n 'a'⟩ k = Position.wrapped ⟨0, k⟩ := by
  have hsize (k : Nat) : byteSize (List.replicate k 'a') = k := by
    induction k with
    | zero => rfl
    | succ k ih => rw [List.replicate_succ, byteSize_cons, ih, Nat.add_comm]; rfl
  have htext : List.replicate n 'a' = List.replicate k 'a' ++ List.replicate (n - k) 'a' := by
    rw [List.replicate_append_replicate, Nat.add_sub_cancel' h]
  have hfeed : '\n' ∉ List.replicate k 'a' := fun hmem ↦
    absurd (List.eq_of_mem_replicate hmem) (by decide)
  have hposition := @positionAt_byteSize ⟨uri, List.replicate n 'a'⟩ _ _ htext
  rwa [hsize, Position.after_of_not_mem hfeed, List.length_replicate] at hposition

/-- On a line of `2 ^ 32 + 1` letters the position before the last letter is that of the first one. -/
theorem positionAt_longLine :
    let d : Document := ⟨"file:///a.vb", List.replicate (UInt32.size + 1) 'a'⟩
    d.positionAt (UInt32.size - 1) = ⟨0, UInt32.size - 1⟩ ∧ d.positionAt UInt32.size = ⟨0, 0⟩ ∧
      (d.positionAt (UInt32.size - 1)).le (d.positionAt UInt32.size) = false := by
  intro d
  have hlast : d.positionAt (UInt32.size - 1) = ⟨0, UInt32.size - 1⟩ :=
    positionAt_replicate "file:///a.vb" (by omega)
  have hfirst : d.positionAt UInt32.size = ⟨0, 0⟩ :=
    positionAt_replicate "file:///a.vb" (Nat.le_succ _)
  exact ⟨hlast, hfirst, by rw [hlast, hfirst]; rfl⟩

end Document

end VbOutline
