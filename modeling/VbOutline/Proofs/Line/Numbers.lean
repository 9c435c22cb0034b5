import VbOutline.Line.Number
import VbOutline.Proofs.Line.Literals

/-!
# Where the numbers of a line stand

Numbers are looked for in the masked code, where blanks stand for the bytes inside literals. Masking
keeps all offsets, and a part of the masked code without blanks is a part of the code itself. So a
number stands in the code at the offset at which it was found.
-/

namespace VbOutline.Line

open Text

theorem withSuffix?_spec {digits rest literal : Text} (hdigits : ' ' ∉ digits)
    (h : withSuffix? digits rest = some literal) :
    digits <+: literal ∧ literal <+: digits ++ rest ∧ ' ' ∉ literal := by
  simp only [withSuffix?, Option.ite_none_right_eq_some, Option.some.injEq] at h
  obtain ⟨-, rfl⟩ := h
  refine ⟨List.prefix_append _ _, ?_, ?_⟩
  · exact (List.prefix_append_right_inj digits).2 (List.takeWhile_prefix _)
  · rw [List.mem_append, not_or]
    exact ⟨hdigits, fun hblank ↦ absurd (List.mem_takeWhile_imp hblank) (by decide)⟩

theorem withFraction?_spec {digits rest literal : Text} (hdigits : ' ' ∉ digits)
    (h : withFraction? digits rest = some literal) :
    digits <+: literal ∧ literal <+: digits ++ rest ∧ ' ' ∉ literal := by
  unfold withFraction? at h
  split at h
  · next tail =>
    simp only [Option.ite_none_left_eq_some] at h
    have hblank : ' ' ∉ digits ++ '.' :: tail.takeWhile isWordDigit := by
      rw [List.mem_append, List.mem_cons, not_or, not_or]
      exact ⟨hdigits, by decide, fun hmem ↦ absurd (List.mem_takeWhile_imp hmem) (by decide)⟩
    obtain ⟨hfraction, hliteral, hnone⟩ := withSuffix?_spec hblank h.2
    refine ⟨(List.prefix_append _ _).trans hfraction, ?_, hnone⟩
    rwa [List.append_assoc, List.cons_append, List.takeWhile_append_dropWhile] at hliteral
  · cases h

/-- A number stands at the beginning of its text and has no blanks. -/
theorem number?_spec {s literal : Text} (h : number? s = some literal) :
    literal ≠ [] ∧ literal <+: s ∧ ' ' ∉ literal := by
  simp only [number?, Option.ite_none_left_eq_some, List.isEmpty_iff, Option.or_eq_some_iff] at h
  obtain ⟨hne, h⟩ := h
  have hblank : ' ' ∉ s.takeWhile isWordDigit := fun hmem ↦
    absurd (List.mem_takeWhile_imp hmem) (by decide)
  have hspec : s.takeWhile isWordDigit <+: literal ∧
      literal <+: s.takeWhile isWordDigit ++ s.dropWhile isWordDigit ∧ ' ' ∉ literal := by
    obtain hfraction | ⟨-, hsuffix⟩ := h
    · exact withFraction?_spec hblank hfraction
    · exact withSuffix?_spec hblank hsuffix
  rw [List.takeWhile_append_dropWhile] at hspec
  refine ⟨?_, hspec.2⟩
  rintro rfl
  exact hne (List.prefix_nil.1 hspec.1)

theorem numbersFrom_spec {offset skip : Nat} {inWord : Bool} {s : Text} {n : Nat × Text}
    (h : n ∈ numbersFrom offset skip inWord s) :
    ∃ k, n.1 = offset + k ∧ StandsAt s k n.2 ∧ n.2 ≠ [] ∧ ' ' ∉ n.2 := by
  induction s generalizing offset skip inWord with
  | nil => simp [numbersFrom] at h
  | cons c rest ih =>
    have hlater {skip : Nat} {inWord : Bool}
        (h : n ∈ numbersFrom (offset + c.utf8Size) skip inWord rest) :
        ∃ k, n.1 = offset + k ∧ StandsAt (c :: rest) k n.2 ∧ n.2 ≠ [] ∧ ' ' ∉ n.2 := by
      obtain ⟨k, hk, hstands, hliteral⟩ := ih h
      have hrest : StandsAt (c :: rest) c.utf8Size rest := ⟨[c], [], by simp, by simp⟩
      exact ⟨c.utf8Size + k, by omega, hrest.trans hstands, hliteral⟩
    rw [numbersFrom.eq_def] at h
    dsimp only at h
    split at h
    · exact hlater h
    · split at h
      · next literal hliteral =>
        rw [List.mem_cons] at h
        obtain rfl | h := h
        · rw [Option.ite_none_left_eq_some] at hliteral
          obtain ⟨hne, hprefix, hblank⟩ := number?_spec hliteral.2
          exact ⟨0, rfl, .of_isPrefix hprefix, hne, hblank⟩
        · exact hlater h
      · exact hlater h

/-- Every number of the masked code stands in the code at its offset. -/
theorem standsAt_of_mem_numbers {code : Text} {n : Nat × Text}
    (h : n ∈ numbers (maskStrings code)) :
    StandsAt code n.1 n.2 := by
  obtain ⟨k, hk, hstands, hne, hblank⟩ := numbersFrom_spec h
  rw [Nat.zero_add] at hk
  rw [hk]
  exact standsAt_of_maskStrings hstands hne hblank

end VbOutline.Line
