import Mathlib.Data.List.SplitBy
import VbOutline.Proofs.Text.Lines
import VbOutline.Text.LetterCase

/-!
# Texts in lower case

The ASCII letters of a text can be made small without moving anything: sizes and columns stay, white
space stays, and what is cut off or taken out of the small text is the small form of what is cut off
or taken out of the text. A function of characters may be used to cut if it is case blind.
-/

namespace VbOutline.Text

/-- A function of characters that does not tell a capital ASCII letter from the small one. -/
def CaseBlind {β : Type} (f : Char → β) : Prop := ∀ c, f c.toLower = f c

/-- The capital ASCII letters. -/
def capitals : List Char := (List.range' 65 26).map Char.ofNat

theorem toLower_eq_or_mem_capitals (c : Char) : c.toLower = c ∨ c ∈ capitals := by
  by_cases h : c.val ≥ 'A'.val ∧ c.val ≤ 'Z'.val
  · right
    refine List.mem_map.2 ⟨c.toNat, ?_, Char.ofNat_toNat c⟩
    obtain ⟨hfirst, hlast⟩ := h
    rw [ge_iff_le, UInt32.le_iff_toNat_le] at hfirst
    rw [UInt32.le_iff_toNat_le] at hlast
    rw [List.mem_range'_1, Char.toNat]
    exact ⟨hfirst, Nat.lt_succ_of_le hlast⟩
  · exact .inl (dif_neg h)

namespace CaseBlind

variable {β : Type}

theorem of_capitals {f : Char → β} (h : (capitals.map fun c ↦ f c.toLower) = capitals.map f) :
    CaseBlind f := by
  intro c
  obtain hc | hc := toLower_eq_or_mem_capitals c
  · rw [hc]
  · exact List.map_inj_left.1 h c hc

@[simp]
theorem isSpace : CaseBlind isSpace := of_capitals (by decide)

@[simp]
theorem isWordChar : CaseBlind isWordChar := of_capitals (by decide +kernel)

@[simp]
theorem isWordDigit : CaseBlind isWordDigit := of_capitals (by decide +kernel)

@[simp]
theorem isNameStart : CaseBlind isNameStart := of_capitals (by decide +kernel)

@[simp]
theorem isPlainStart : CaseBlind isPlainStart := of_capitals (by decide +kernel)

@[simp]
theorem isIdentChar : CaseBlind isIdentChar := of_capitals (by decide +kernel)

@[simp]
theorem isAsciiDigit : CaseBlind isAsciiDigit := of_capitals (by decide)

@[simp]
theorem isAlpha : CaseBlind Char.isAlpha := of_capitals (by decide)

theorem toLower : CaseBlind Char.toLower := of_capitals (by decide)

theorem foldChar : CaseBlind foldChar := of_capitals (by decide)

theorem utf8Size : CaseBlind Char.utf8Size := of_capitals (by decide)

/-- No letter is taken for a character that is none. -/
@[simp]
theorem beq {sep : Char} (h : sep.isAlpha = false) : CaseBlind (· == sep) := by
  apply of_capitals
  apply List.map_congr_left
  intro c hc
  have hne {d : Char} (hd : d.isAlpha) : (d == sep) = false := by
    rw [beq_eq_false_iff_ne]
    rintro rfl
    rw [h] at hd
    cases hd
  have hletters : capitals.all fun c ↦ c.isAlpha && c.toLower.isAlpha := by decide
  obtain ⟨hletter, hsmall⟩ := Bool.and_eq_true_iff.1 (List.all_eq_true.1 hletters c hc)
  rw [hne hletter, hne hsmall]

@[simp]
theorem not {p : Char → Bool} (h : CaseBlind p) : CaseBlind fun c ↦ !p c :=
  fun c ↦ congrArg Bool.not (h c)

@[simp]
theorem or {p q : Char → Bool} (hp : CaseBlind p) (hq : CaseBlind q) :
    CaseBlind fun c ↦ p c || q c := fun c ↦ congrArg₂ Bool.or (hp c) (hq c)

@[simp]
theorem bne {sep : Char} (h : sep.isAlpha = false) : CaseBlind (· != sep) := not (beq h)

end CaseBlind

theorem toLower_beq {sep : Char} (h : sep.isAlpha = false) (c : Char) :
    (c.toLower == sep) = (c == sep) := CaseBlind.beq h c

@[simp]
theorem asciiLower_nil : asciiLower [] = [] := rfl

@[simp]
theorem asciiLower_cons (c : Char) (s : Text) :
    asciiLower (c :: s) = c.toLower :: asciiLower s := rfl

@[simp]
theorem asciiLower_append (s t : Text) : asciiLower (s ++ t) = asciiLower s ++ asciiLower t :=
  List.map_append

@[simp]
theorem asciiLower_asciiLower (s : Text) : asciiLower (asciiLower s) = asciiLower s := by
  rw [asciiLower, asciiLower, List.map_map]
  exact List.map_congr_left fun c _ ↦ CaseBlind.toLower c

@[simp]
theorem length_asciiLower (s : Text) : (asciiLower s).length = s.length := List.length_map _

@[simp]
theorem asciiLower_eq_nil {s : Text} : asciiLower s = [] ↔ s = [] := List.map_eq_nil_iff

@[simp]
theorem isEmpty_asciiLower (s : Text) : (asciiLower s).isEmpty = s.isEmpty := List.isEmpty_map

/-- A text and its small form begin both with a sign, or neither does. -/
theorem asciiLower_sign_cases (sign : Char) (h : sign.isAlpha = false) (s : Text) :
    (∃ rest, s = sign :: rest ∧ asciiLower s = sign :: asciiLower rest) ∨
      ((∀ rest, s = sign :: rest → False) ∧ ∀ rest, asciiLower s = sign :: rest → False) := by
  cases s with
  | nil => exact .inr ⟨nofun, nofun⟩
  | cons c rest =>
    have hbeq := toLower_beq h c
    cases hc : c == sign with
    | true =>
      rw [hc, beq_iff_eq] at hbeq
      rw [beq_iff_eq] at hc
      exact .inl ⟨rest, by rw [hc], by rw [asciiLower_cons, hbeq]⟩
    | false =>
      rw [hc, beq_eq_false_iff_ne] at hbeq
      rw [beq_eq_false_iff_ne] at hc
      exact .inr ⟨fun _ hs ↦ hc (List.cons.inj hs).1, fun _ hs ↦ hbeq (List.cons.inj hs).1⟩

theorem reverse_asciiLower (s : Text) : (asciiLower s).reverse = asciiLower s.reverse :=
  List.map_reverse.symm

@[simp]
theorem take_asciiLower (n : Nat) (s : Text) : (asciiLower s).take n = asciiLower (s.take n) :=
  List.map_take.symm

@[simp]
theorem drop_asciiLower (n : Nat) (s : Text) : (asciiLower s).drop n = asciiLower (s.drop n) :=
  List.map_drop.symm

section

variable {p : Char → Bool} (hp : CaseBlind p) (s : Text)
include hp

@[simp]
theorem takeWhile_asciiLower : (asciiLower s).takeWhile p = asciiLower (s.takeWhile p) := by
  rw [asciiLower, List.takeWhile_map, asciiLower]
  congr 2
  exact funext hp

@[simp]
theorem dropWhile_asciiLower : (asciiLower s).dropWhile p = asciiLower (s.dropWhile p) := by
  rw [asciiLower, List.dropWhile_map, asciiLower]
  congr 2
  exact funext hp

@[simp]
theorem dropEndWhile_asciiLower :
    dropEndWhile p (asciiLower s) = asciiLower (dropEndWhile p s) := by
  rw [dropEndWhile, reverse_asciiLower, dropWhile_asciiLower hp, reverse_asciiLower]
  rfl

@[simp]
theorem any_head?_asciiLower : (asciiLower s).head?.any p = s.head?.any p := by
  cases s with
  | nil => rfl
  | cons c s => exact hp c

@[simp]
theorem all_asciiLower : (asciiLower s).all p = s.all p := by
  rw [asciiLower, List.all_map]
  congr 1
  exact funext hp

end

@[simp]
theorem contains_asciiLower (sep : Char) (h : sep.isAlpha = false) (s : Text) :
    (asciiLower s).contains sep = s.contains sep := by
  induction s with
  | nil => rfl
  | cons c s ih =>
    rw [asciiLower_cons, List.contains_cons, List.contains_cons, ih, BEq.comm, toLower_beq h,
      BEq.comm]

@[simp]
theorem byteSize_asciiLower (s : Text) : byteSize (asciiLower s) = byteSize s := by
  induction s with
  | nil => rfl
  | cons c s ih => rw [asciiLower_cons, byteSize_cons, byteSize_cons, ih, CaseBlind.utf8Size c]

@[simp]
theorem columnOf_asciiLower (line : Text) (offset : Nat) :
    columnOf (asciiLower line) offset = columnOf line offset := by
  have hfrom (seen : Nat) :
      columnFrom seen offset (asciiLower line) = columnFrom seen offset line := by
    induction line generalizing seen offset with
    | nil => rfl
    | cons c line ih => rw [asciiLower_cons, columnFrom, columnFrom, CaseBlind.utf8Size c, ih]
  exact hfrom 0

@[simp]
theorem offsetOf_asciiLower (whole rest : Text) :
    offsetOf (asciiLower whole) (asciiLower rest) = offsetOf whole rest := by
  simp [offsetOf]

@[simp]
theorem indentOf_asciiLower (s : Text) : indentOf (asciiLower s) = indentOf s := by
  simp [indentOf]

@[simp]
theorem trimStart_asciiLower (s : Text) : trimStart (asciiLower s) = asciiLower (trimStart s) := by
  simp [trimStart]

@[simp]
theorem trimEnd_asciiLower (s : Text) : trimEnd (asciiLower s) = asciiLower (trimEnd s) := by
  simp [trimEnd]

@[simp]
theorem trim_asciiLower (s : Text) : trim (asciiLower s) = asciiLower (trim s) := by
  simp [trim]

@[simp]
theorem dropUnderscores_asciiLower (s : Text) :
    dropUnderscores (asciiLower s) = asciiLower (dropUnderscores s) := by
  simp [dropUnderscores]

/-- Both parts of a text that was split in two, in lower case. -/
def lowerBoth (parts : Text × Text) : Text × Text := (asciiLower parts.1, asciiLower parts.2)

@[simp]
theorem splitFirst?_asciiLower (sep : Char) (h : sep.isAlpha = false) (s : Text) :
    splitFirst? sep (asciiLower s) = (splitFirst? sep s).map lowerBoth := by
  rw [splitFirst?, dropWhile_asciiLower (CaseBlind.bne h), takeWhile_asciiLower (CaseBlind.bne h),
    splitFirst?]
  cases s.dropWhile (· != sep) <;> rfl

@[simp]
theorem splitLast?_asciiLower (sep : Char) (h : sep.isAlpha = false) (s : Text) :
    splitLast? sep (asciiLower s) = (splitLast? sep s).map lowerBoth := by
  rw [splitLast?, reverse_asciiLower, splitFirst?_asciiLower sep h, splitLast?, Option.map_map,
    Option.map_map]
  congr 1
  funext parts
  simp only [Function.comp_apply, lowerBoth, reverse_asciiLower]

theorem splitAll_asciiLower {sep : Char} (h : sep.isAlpha = false) (s : Text) :
    splitAll sep (asciiLower s) = (splitAll sep s).map asciiLower := by
  induction s with
  | nil => rfl
  | cons c s ih =>
    rw [splitAll, splitAll] at ih
    rw [asciiLower_cons, splitAll, splitAll, List.foldr_cons, List.foldr_cons, ih]
    cases s.foldr _ [[]] with
    | nil => rfl
    | cons part rest =>
      simp only [List.map_cons, CaseBlind.beq h c]
      split <;> rfl

theorem getLast?_beq_asciiLower (sep : Char) (h : sep.isAlpha = false) (s : Text) :
    ((asciiLower s).getLast? == some sep) = (s.getLast? == some sep) := by
  rw [asciiLower, List.getLast?_map]
  cases s.getLast? with
  | none => rfl
  | some c => exact CaseBlind.beq h c

theorem dropReturn_asciiLower (s : Text) :
    dropReturn (asciiLower s) = asciiLower (dropReturn s) := by
  rw [dropReturn, dropReturn, getLast?_beq_asciiLower '\r' rfl]
  split
  · exact List.map_dropLast.symm
  · rfl

/-- The lines of a text in lower case are its lines in lower case. -/
theorem lines_asciiLower (s : Text) : lines (asciiLower s) = (lines s).map asciiLower := by
  have hparts : splitAll '\n' (asciiLower s) = (splitAll '\n' s).map asciiLower :=
    splitAll_asciiLower (by decide) s
  have hlast : ((splitAll '\n' s).map asciiLower).getLast?.getD [] =
      asciiLower ((splitAll '\n' s).getLast?.getD []) := by
    rw [List.getLast?_map]
    cases (splitAll '\n' s).getLast? <;> rfl
  simp only [lines, hparts, hlast, isEmpty_asciiLower, List.map_append, ← List.map_dropLast,
    List.map_map]
  congr 1
  · exact List.map_congr_left fun part _ ↦ dropReturn_asciiLower part
  · split <;> rfl

@[simp]
theorem eqAscii_asciiLower (s t : Text) : eqAscii (asciiLower s) t = eqAscii s t := by
  rw [eqAscii_eq, eqAscii_eq, asciiLower_asciiLower]

@[simp]
theorem folded_asciiLower (s : Text) : folded (asciiLower s) = folded s := by
  rw [folded, folded, asciiLower, List.map_map]
  congr 2
  exact funext CaseBlind.foldChar

@[simp]
theorem isKeyword_asciiLower (keyword : String) (s : Text) :
    isKeyword keyword (asciiLower s) = isKeyword keyword s := by
  rw [isKeyword, isKeyword, folded_asciiLower]

@[simp]
theorem isOneOf_asciiLower (keywords : List String) (s : Text) :
    isOneOf keywords (asciiLower s) = isOneOf keywords s := by
  rw [isOneOf, isOneOf, folded_asciiLower]

/-- A text without letters is recognised in any case. -/
@[simp]
theorem asciiLower_beq (sign : Text) (h : sign.any Char.isAlpha = false) (s : Text) :
    (asciiLower s == sign) = (s == sign) := by
  induction s generalizing sign with
  | nil => rfl
  | cons c s ih =>
    cases sign with
    | nil => rfl
    | cons d sign =>
      rw [List.any_cons, Bool.or_eq_false_iff] at h
      rw [asciiLower_cons, List.cons_beq_cons, List.cons_beq_cons, ih _ h.2, toLower_beq h.1]

theorem isPrefixOf_asciiLower {sign : Text} (h : sign.any Char.isAlpha = false) (s : Text) :
    sign.isPrefixOf (asciiLower s) = sign.isPrefixOf s := by
  induction s generalizing sign with
  | nil => rfl
  | cons c s ih =>
    cases sign with
    | nil => rfl
    | cons d sign =>
      rw [List.any_cons, Bool.or_eq_false_iff] at h
      rw [asciiLower_cons, List.isPrefixOf_cons_cons, List.isPrefixOf_cons_cons, ih h.2, BEq.comm,
        toLower_beq h.1, BEq.comm]

@[simp]
theorem endsWith_asciiLower {sign : Text} (h : sign.any Char.isAlpha = false) (s : Text) :
    endsWith (asciiLower s) sign = endsWith s sign := by
  rw [endsWith, endsWith, List.isSuffixOf, List.isSuffixOf, reverse_asciiLower]
  exact isPrefixOf_asciiLower (by rwa [List.any_reverse]) _

end VbOutline.Text
