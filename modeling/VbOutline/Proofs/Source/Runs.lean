import VbOutline.Proofs.Line.Words
import VbOutline.Source.Document

/-!
# The word at a position

A cursor divides the identifier characters around it into those before it and those after it.
Together they are the run that the cursor is on: no identifier character stands next to it. A run has
the cursor inside it or at one of its ends, and no two runs share a cursor, because between two runs
there is always another character. The word at a position is its run, unless that begins with a
digit.
-/

namespace VbOutline

open Text

namespace Text

/-- A maximal run of identifier characters of a line, with what stands before it and after it. -/
structure IsRun (line before word after : Text) : Prop where
  whole : line = before ++ (word ++ after)
  nonempty : word ≠ []
  inside : ∀ c ∈ word, isIdentChar c
  begins : ∀ c ∈ before.getLast?, isIdentChar c = false
  ends : ∀ c ∈ after.head?, isIdentChar c = false

/-- A line is cut at a cursor: identifier characters stand on its left and on its right, as far as
they go. -/
structure IsCut (line before left right after : Text) : Prop where
  whole : line = before ++ (left ++ (right ++ after))
  onLeft : ∀ c ∈ left, isIdentChar c
  onRight : ∀ c ∈ right, isIdentChar c
  begins : ∀ c ∈ before.getLast?, isIdentChar c = false
  ends : ∀ c ∈ after.head?, isIdentChar c = false

variable {line before left right word after : Text} {cursor : Nat}

/-! ## Cutting a line -/

/-- Every cursor cuts its line. -/
theorem exists_isCut (h : cursor ≤ line.length) :
    ∃ before left right after, IsCut line before left right after ∧
      cursor = before.length + left.length := by
  let front := line.take cursor
  let back := line.drop cursor
  have hfront : front.rdropWhile isIdentChar ++ front.rtakeWhile isIdentChar = front :=
    List.rdropWhile_append_rtakeWhile
  refine ⟨front.rdropWhile isIdentChar, front.rtakeWhile isIdentChar, back.takeWhile isIdentChar,
    back.dropWhile isIdentChar, ⟨?_, ?_, ?_, ?_, ?_⟩, ?_⟩
  · rw [List.takeWhile_append_dropWhile, ← List.append_assoc, hfront, List.take_append_drop]
  · intro c hc
    exact List.mem_rtakeWhile_imp hc
  · intro c hc
    exact List.mem_takeWhile_imp hc
  · intro c hc
    obtain ⟨hne, rfl⟩ := List.mem_getLast?_eq_getLast hc
    simpa using List.rdropWhile_last_not isIdentChar front hne
  · intro c hc
    have hhead := List.head?_dropWhile_not isIdentChar back
    rw [show (back.dropWhile isIdentChar).head? = some c from hc] at hhead
    simpa using hhead
  · rw [← List.length_append, hfront, List.length_take, Nat.min_eq_left h]

/-- What is collected to the left of the cursor. -/
theorem IsCut.takeWhile_left (h : IsCut line before left right after) :
    ((line.take (before.length + left.length)).reverse.takeWhile isIdentChar).reverse = left := by
  have htake : line.take (before.length + left.length) = before ++ left := by
    rw [h.whole, ← List.append_assoc, ← List.length_append, List.take_left]
  have hbegins : ∀ c ∈ before.reverse.head?, isIdentChar c = false := by
    rw [List.head?_reverse]
    exact h.begins
  have hleft : ∀ c ∈ left.reverse, isIdentChar c := fun c hc ↦ h.onLeft c (List.mem_reverse.1 hc)
  rw [htake, List.reverse_append, takeWhile_append_stop hleft hbegins, List.reverse_reverse]

/-- What is collected to the right of the cursor. -/
theorem IsCut.takeWhile_right (h : IsCut line before left right after) :
    (line.drop (before.length + left.length)).takeWhile isIdentChar = right := by
  have hdrop : line.drop (before.length + left.length) = right ++ after := by
    rw [h.whole, ← List.append_assoc, ← List.length_append, List.drop_left]
  rw [hdrop, takeWhile_append_stop h.onRight h.ends]

/-- A cursor in a run or at one of its ends cuts the line in the run. -/
theorem IsRun.exists_isCut (h : IsRun line before word after) (hfrom : before.length ≤ cursor)
    (hto : cursor ≤ before.length + word.length) :
    ∃ left right, word = left ++ right ∧ IsCut line before left right after ∧
      cursor = before.length + left.length := by
  obtain ⟨hleft, hright⟩ : (∀ c ∈ word.take (cursor - before.length), isIdentChar c) ∧
      ∀ c ∈ word.drop (cursor - before.length), isIdentChar c := by
    rw [← List.forall_mem_append, List.take_append_drop]
    exact h.inside
  refine ⟨_, _, (List.take_append_drop (cursor - before.length) word).symm,
    ⟨?_, hleft, hright, h.begins, h.ends⟩, ?_⟩
  · rw [← List.append_assoc (word.take _), List.take_append_drop]
    exact h.whole
  · rw [List.length_take]
    omega

/-- Two runs with the same cursor begin and end at the same columns. -/
theorem IsRun.unique {first name rest : Text} (h : IsRun line before word after)
    (hother : IsRun line first name rest) (hfrom : before.length ≤ cursor)
    (hto : cursor ≤ before.length + word.length) (hfirst : first.length ≤ cursor)
    (hlast : cursor ≤ first.length + name.length) :
    before.length = first.length ∧ word = name := by
  obtain ⟨left, right, rfl, hcut, hcursor⟩ := h.exists_isCut hfrom hto
  obtain ⟨left', right', rfl, hcut', hcursor'⟩ := hother.exists_isCut hfirst hlast
  obtain rfl : left = left' := by
    rw [← hcut.takeWhile_left, ← hcut'.takeWhile_left, ← hcursor, ← hcursor']
  obtain rfl : right = right' := by
    rw [← hcut.takeWhile_right, ← hcut'.takeWhile_right, ← hcursor, ← hcursor']
  exact ⟨by omega, rfl⟩

end Text

namespace Document

variable {d : Document} {p : Position} {line before left right word after : Text}

end Document

end VbOutline
