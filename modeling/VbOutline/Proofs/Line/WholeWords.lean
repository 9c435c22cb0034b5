import VbOutline.Line.Word
import VbOutline.Proofs.Text.Lowering

/-!
# Whole words

A name stands alone where no identifier character is next to it. The search for it goes on behind each
occurrence, also behind one that does not stand alone, and misses nothing by that: a name consists of
identifier characters, so what begins inside an occurrence has one of them before it.
-/

namespace VbOutline.Line

open Text

variable {word s rest : Text} {before c : Char}

theorem startsAscii_asciiLower (word s : Text) :
    startsAscii (asciiLower word) s = eqAscii (s.take word.length) word := by
  induction word generalizing s with
  | nil => rfl
  | cons a word ih =>
    cases s with
    | nil => rfl
    | cons b rest =>
      rw [asciiLower_cons, startsAscii, ih, List.length_cons, List.take_succ_cons, eqAscii,
        Bool.beq_comm]

theorem length_of_eqAscii {m : Text} (h : eqAscii m word) : m.length = word.length := by
  rw [eqAscii_eq, beq_iff_eq] at h
  rw [← length_asciiLower m, h, length_asciiLower]

theorem isIdentChar_of_eqAscii {m : Text} (h : eqAscii m word) (hword : ∀ c ∈ word, isIdentChar c) :
    ∀ c ∈ m, isIdentChar c := by
  intro c hc
  rw [eqAscii_eq, beq_iff_eq] at h
  have hlower : c.toLower ∈ asciiLower word := h ▸ List.mem_map_of_mem hc
  obtain ⟨d, hd, heq⟩ := List.mem_map.1 hlower
  rw [← CaseBlind.isIdentChar c, ← heq, CaseBlind.isIdentChar d]
  exact hword d hd

/-! ## Names that stand alone -/

/-- The word stands alone somewhere in a text that comes after the character `before`. -/
def StandsAlone (word : Text) (before : Char) (s : Text) : Prop :=
  ∃ front name back, s = front ++ (name ++ back) ∧ eqAscii name word ∧
    (∀ c ∈ (before :: front).getLast?, isIdentChar c = false) ∧
      ∀ c ∈ back.head?, isIdentChar c = false

theorem not_standsAlone_nil (hword : word ≠ []) : ¬ StandsAlone word before [] := by
  rintro ⟨front, name, back, hs, hname, -⟩
  obtain rfl : name = [] := (List.append_eq_nil_iff.1 (List.append_eq_nil_iff.1 hs.symm).2).1
  exact hword (List.eq_nil_of_length_eq_zero (length_of_eqAscii hname).symm)

/-- A word stands alone at the beginning of a text or behind its first character. -/
theorem standsAlone_cons :
    StandsAlone word before (c :: rest) ↔
      (eqAscii ((c :: rest).take word.length) word ∧ isIdentChar before = false ∧
        ∀ d ∈ ((c :: rest).drop word.length).head?, isIdentChar d = false) ∨
      StandsAlone word c rest := by
  constructor
  · rintro ⟨front, name, back, hs, hname, hbefore, hback⟩
    cases front with
    | nil =>
      left
      rw [hs, List.nil_append, ← length_of_eqAscii hname, List.take_left, List.drop_left]
      exact ⟨hname, hbefore before rfl, hback⟩
    | cons d front =>
      right
      obtain ⟨rfl, hrest⟩ := List.cons.inj hs
      exact ⟨front, name, back, hrest, hname, hbefore, hback⟩
  · rintro (⟨hname, hbefore, hback⟩ | ⟨front, name, back, rfl, hname, hbefore, hback⟩)
    · refine ⟨[], _, _, (List.take_append_drop word.length (c :: rest)).symm, hname, ?_, hback⟩
      rintro d ⟨⟩
      exact hbefore
    · exact ⟨c :: front, name, back, rfl, hname, hbefore, hback⟩

/-! ## The search -/

/-- While the rest of an occurrence is passed over, the characters before it and in it are identifier
characters. -/
theorem occursFrom_iff (hword : word ≠ []) (hident : ∀ c ∈ word, isIdentChar c) {skip : Nat}
    (hskip : ∀ c ∈ (before :: s).take skip, isIdentChar c) :
    occursFrom (asciiLower word) before skip s ↔ StandsAlone word before s := by
  induction s generalizing before skip with
  | nil =>
    rw [occursFrom]
    exact iff_of_false Bool.false_ne_true (not_standsAlone_nil hword)
  | cons c rest ih =>
    rw [standsAlone_cons]
    cases skip with
    | succ k =>
      rw [List.take_succ_cons, List.forall_mem_cons] at hskip
      obtain ⟨hbefore, hrest⟩ := hskip
      rw [occursFrom, ih hrest, hbefore]
      simp
    | zero =>
      rw [occursFrom, startsAscii_asciiLower, length_asciiLower]
      cases hname : eqAscii ((c :: rest).take word.length) word with
      | false =>
        rw [if_neg Bool.false_ne_true, ih (by simp)]
        simp
      | true =>
        have hinside : ∀ d ∈ (c :: rest).take (word.length - 1), isIdentChar d := fun d hd ↦
          isIdentChar_of_eqAscii hname hident d
            ((List.take_prefix_take_left (Nat.sub_le word.length 1)).subset hd)
        rw [if_pos rfl, Bool.or_eq_true, ih hinside, Bool.and_eq_true, Bool.not_eq_true',
          Bool.not_eq_true', Option.any_eq_false]
        simp

/-- A name occurs as a whole word where it stands, in any ASCII case, with no identifier character next
to it. -/
theorem containsWord_iff (hword : word ≠ []) (hident : ∀ c ∈ word, isIdentChar c) (s : Text) :
    containsWord s word ↔
      ∃ front name back, s = front ++ (name ++ back) ∧ eqAscii name word ∧
        (∀ c ∈ front.getLast?, isIdentChar c = false) ∧ ∀ c ∈ back.head?, isIdentChar c = false := by
  rw [containsWord, List.isEmpty_eq_false_iff.2 hword, Bool.not_false, Bool.true_and,
    occursFrom_iff hword hident (by simp), StandsAlone]
  -- a blank before the text is no identifier character
  have hblank (front : Text) : (∀ c ∈ (' ' :: front).getLast?, isIdentChar c = false) ↔
      ∀ c ∈ front.getLast?, isIdentChar c = false := by
    cases front with
    | nil =>
      refine iff_of_true ?_ (by simp)
      rintro c ⟨⟩
      decide
    | cons d front => rw [List.getLast?_cons_cons]
  simp only [hblank]

/-- Occurrences inside longer names overlap, and one behind them stands alone. -/
theorem containsWord_iff_overlapping :
    containsWord "aaa_éAA;Aa".toList "aA".toList ∧ ¬ containsWord "aaa_éAA;Aa2".toList "aA".toList := by
  have hident : ∀ c ∈ "aA".toList, isIdentChar c := by decide
  constructor
  · refine (containsWord_iff (by decide) hident _).2
      ⟨"aaa_éAA;".toList, "Aa".toList, [], rfl, by decide, ?_, by simp⟩
    rintro c ⟨⟩
    decide
  · decide +kernel

end VbOutline.Line
