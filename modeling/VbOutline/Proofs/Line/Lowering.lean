import VbOutline.Line.Bracket
import VbOutline.Proofs.Line.Numbers
import VbOutline.Proofs.Text.Lowering

/-!
# Lines in lower case

The readers of a line find the same in a line whose ASCII letters are small: the same words, groups,
pieces and numbers, in lower case and at the same offsets. Keywords are compared up to case, and the
scanners look only at characters that are no letters.
-/

namespace VbOutline.Line

open Text

@[simp]
theorem leadingWord_asciiLower (s : Text) :
    leadingWord (asciiLower s) = asciiLower (leadingWord s) := by
  simp [leadingWord]

@[simp]
theorem leadingChunk_asciiLower (s : Text) :
    leadingChunk (asciiLower s) = asciiLower (leadingChunk s) := by
  simp [leadingChunk]

@[simp]
theorem afterChunk_asciiLower (s : Text) :
    afterChunk (asciiLower s) = asciiLower (afterChunk s) := by
  simp [afterChunk]

@[simp]
theorem keyword?_asciiLower (keywords : List String) (s : Text) :
    keyword? keywords (asciiLower s) = (keyword? keywords s).map lowerBoth := by
  simp only [keyword?, leadingWord_asciiLower, isOneOf_asciiLower,
    dropWhile_asciiLower CaseBlind.isWordChar]
  split <;> rfl

@[simp]
theorem startsWithKeyword_asciiLower (keywords : List String) (s : Text) :
    startsWithKeyword keywords (asciiLower s) = startsWithKeyword keywords s := by
  simp [startsWithKeyword]

@[simp]
theorem isTerminator_asciiLower (s : Text) : isTerminator (asciiLower s) = isTerminator s :=
  startsWithKeyword_asciiLower _ s

@[simp]
theorem isReserved_asciiLower (word : Text) : isReserved (asciiLower word) = isReserved word := by
  simp [isReserved]

@[simp]
theorem stripKeyword?_asciiLower (keyword : String) (s : Text) :
    stripKeyword? keyword (asciiLower s) = (stripKeyword? keyword s).map asciiLower := by
  simp only [stripKeyword?, take_asciiLower, drop_asciiLower, eqAscii_asciiLower,
    isEmpty_asciiLower]
  split <;> rfl

@[simp]
theorem takeModifiers_asciiLower (allowed : List String) (s : Text) :
    takeModifiers allowed (asciiLower s) =
      ((takeModifiers allowed s).1.map asciiLower, asciiLower (takeModifiers allowed s).2) := by
  fun_induction takeModifiers allowed s with
  | case1 s h more ih =>
    rw [takeModifiers]
    simp [h, ih, more]
  | case2 s h =>
    rw [takeModifiers]
    simp_all

theorem splitBy_map {α β : Type} (r : β → β → Bool) (f : α → β) (xs : List α) :
    (xs.map f).splitBy r = (xs.splitBy fun a b ↦ r (f a) (f b)).map (List.map f) := by
  cases xs with
  | nil => rfl
  | cons x xs =>
    have hloop (group : List α) (groups : List (List α)) :
        List.splitBy.loop r (xs.map f) (f x) (group.map f) (groups.map (List.map f)) =
          (List.splitBy.loop (fun a b ↦ r (f a) (f b)) xs x group groups).map (List.map f) := by
      induction xs generalizing x group groups with
      | nil => simp [List.splitBy.loop]
      | cons y xs ih =>
        rw [List.map_cons, List.splitBy.loop, List.splitBy.loop]
        cases r (f x) (f y) with
        | true => exact ih y (x :: group) groups
        | false => simpa using ih y [] ((x :: group).reverse :: groups)
    exact hloop [] []

theorem runs_asciiLower (s : Text) : runs (asciiLower s) = (runs s).map asciiLower := by
  rw [runs, asciiLower, splitBy_map, runs]
  congr 2
  funext a b
  rw [CaseBlind.isWordChar a, CaseBlind.isWordChar b]

@[simp]
theorem findWord?_asciiLower {p : Text → Bool} (hp : ∀ w, p (asciiLower w) = p w) (s : Text) :
    findWord? p (asciiLower s) = (findWord? p s).map fun found ↦
      (asciiLower found.1, asciiLower found.2.1, asciiLower found.2.2) := by
  have hflatten (parts : List Text) :
      (parts.map asciiLower).flatten = asciiLower parts.flatten := List.map_flatten.symm
  have hrun : (fun r ↦ !p r) ∘ asciiLower = fun r ↦ !p r := funext fun r ↦ congrArg Bool.not (hp r)
  rw [findWord?, findWord?, runs_asciiLower, List.dropWhile_map, List.takeWhile_map, hrun]
  cases (runs s).dropWhile fun r ↦ !p r with
  | nil => rfl
  | cons word after => simp only [List.map_cons, hflatten, Option.map_some]

theorem cutFrom_asciiLower (words : List String) (inSpace : Bool) (s : Text) :
    cutFrom words inSpace (asciiLower s) = asciiLower (cutFrom words inSpace s) := by
  induction s generalizing inSpace with
  | nil => rfl
  | cons c s ih =>
    rw [asciiLower_cons, cutFrom, cutFrom, CaseBlind.isSpace c, trimStart_asciiLower,
      startsWithKeyword_asciiLower, ih]
    split <;> rfl

@[simp]
theorem cutBefore_asciiLower (words : List String) (s : Text) :
    cutBefore words (asciiLower s) = asciiLower (cutBefore words s) :=
  cutFrom_asciiLower words false s

/-- The states of a scanner that looks at no letters. -/
theorem states_asciiLower {σ : Type} {step : σ → Char → σ} (h : ∀ n, CaseBlind (step n)) (start : σ)
    (s : Text) :
    states step start (asciiLower s) = (states step start s).map (Prod.map id Char.toLower) := by
  induction s generalizing start with
  | nil => rfl
  | cons c s ih =>
    rw [asciiLower_cons, states_cons, states_cons, h start c, ih]
    rfl

theorem map_snd_lowered {σ : Type} (ps : List (σ × Char)) :
    (ps.map (Prod.map id Char.toLower)).map Prod.snd = asciiLower (ps.map Prod.snd) := by
  rw [asciiLower, List.map_map, List.map_map]
  rfl

theorem caseBlind_after {brackets : Brackets}
    (h : (brackets.opening ++ brackets.closing).any Char.isAlpha = false) (n : Nesting) :
    CaseBlind (n.after brackets) := by
  intro c
  have hcontains {signs : List Char} (hsigns : signs.any Char.isAlpha = false) :
      signs.contains c.toLower = signs.contains c := by
    induction signs with
    | nil => rfl
    | cons d signs ih =>
      rw [List.any_cons, Bool.or_eq_false_iff] at hsigns
      rw [List.contains_cons, List.contains_cons, toLower_beq hsigns.1, ih hsigns.2]
  rw [List.any_append, Bool.or_eq_false_iff] at h
  rw [Nesting.after, Nesting.after, toLower_beq (by decide), hcontains h.1, hcontains h.2]

theorem withNesting_asciiLower (brackets : Brackets)
    (h : (brackets.opening ++ brackets.closing).any Char.isAlpha = false) (start : Nesting)
    (s : Text) :
    withNesting brackets start (asciiLower s) =
      (withNesting brackets start s).map (Prod.map id Char.toLower) :=
  states_asciiLower (caseBlind_after h) start s

theorem pieces_asciiLower (s : Text) : pieces (asciiLower s) = (pieces s).map asciiLower := by
  rw [pieces_eq_cut, pieces_eq_cut, withNesting_asciiLower listBrackets (by decide)]
  induction withNesting listBrackets .outside s with
  | nil => rfl
  | cons p ps ih =>
    have hseparates : separates (Prod.map id Char.toLower p) = separates p := by
      rw [separates, separates, Prod.map_fst, Prod.map_snd, toLower_beq (by decide), id]
    rw [List.map_cons, cut_cons, cut_cons, ih, hseparates]
    split
    · rfl
    · cases cut ps [[]] <;> rfl

theorem withOffsets_map_asciiLower (start : Nat) (cut : List Text) :
    withOffsets start (cut.map asciiLower) =
      (withOffsets start cut).map (Prod.map id asciiLower) := by
  induction cut generalizing start with
  | nil => rfl
  | cons piece rest ih =>
    rw [List.map_cons, withOffsets, withOffsets, byteSize_asciiLower, ih]
    rfl

@[simp]
theorem splitTopLevel_asciiLower (s : Text) :
    splitTopLevel (asciiLower s) = (splitTopLevel s).map (Prod.map id asciiLower) := by
  rw [splitTopLevel, pieces_asciiLower, withOffsets_map_asciiLower, splitTopLevel]

@[simp]
theorem beforeAssignment?_asciiLower (s : Text) :
    beforeAssignment? (asciiLower s) = (beforeAssignment? s).map asciiLower := by
  have hassigns (p : Nesting × Char) :
      ((Prod.map id Char.toLower p).2 == '=' && (Prod.map id Char.toLower p).1.isOutside) =
        (p.2 == '=' && p.1.isOutside) := by
    rw [Prod.map_snd, Prod.map_fst, toLower_beq (by decide)]
    rfl
  simp only [beforeAssignment?, withNesting_asciiLower valueBrackets (by decide),
    List.any_map, List.takeWhile_map, Function.comp_def, hassigns]
  split
  · rw [Option.map_some, map_snd_lowered]
  · rfl

@[simp]
theorem takeGroup?_asciiLower (s : Text) :
    takeGroup? (asciiLower s) = (takeGroup? s).map lowerBoth := by
  obtain ⟨rest, rfl, hlower⟩ | ⟨hother, hlower⟩ := asciiLower_sign_cases '(' rfl s
  · have hcloses (p : Nesting × Char) :
        ((Prod.map id Char.toLower p).1.after roundBrackets (Prod.map id Char.toLower p).2).depth =
          (p.1.after roundBrackets p.2).depth := by
      rw [Prod.map_fst, Prod.map_snd, caseBlind_after (by decide)]
      rfl
    rw [hlower]
    simp only [takeGroup?, withNesting_asciiLower roundBrackets (by decide),
      List.dropWhile_map, List.takeWhile_map, Function.comp_def, hcloses]
    cases List.dropWhile _ (withNesting roundBrackets ⟨1, false⟩ rest) with
    | nil => rfl
    | cons p after => simp only [List.map_cons, map_snd_lowered, Option.map_some, lowerBoth]
  · rw [takeGroup?.eq_2 _ hother, takeGroup?.eq_2 _ hlower, Option.map_none]

@[simp]
theorem isGenericGroup_asciiLower (inner : Text) :
    isGenericGroup (asciiLower inner) = isGenericGroup inner := by
  simp [isGenericGroup]

theorem withQuotes_asciiLower (line : Text) :
    withQuotes (asciiLower line) = (withQuotes line).map (Prod.map id Char.toLower) := by
  apply states_asciiLower
  intro quoted c
  rw [quoteStep, quoteStep, toLower_beq (by decide)]

@[simp]
theorem stripComment_asciiLower (line : Text) :
    stripComment (asciiLower line) = asciiLower (stripComment line) := by
  have hbegins (p : Bool × Char) :
      beginsComment (Prod.map id Char.toLower p) = beginsComment p := by
    rw [beginsComment, beginsComment, Prod.map_snd, toLower_beq (by decide)]
    rfl
  rw [stripComment, withQuotes_asciiLower, List.takeWhile_map, map_snd_lowered]
  simp only [Function.comp_def, hbegins]
  rfl

theorem masked_lowered (p : Bool × Char) :
    masked (Prod.map id Char.toLower p) = asciiLower (masked p) := by
  have hquote : (p.2.toLower != '"') = (p.2 != '"') := CaseBlind.bne (by decide) p.2
  rw [masked, Prod.map_fst, Prod.map_snd, CaseBlind.utf8Size, hquote, masked]
  dsimp only [id]
  split
  · rw [asciiLower, List.map_replicate]
    rfl
  · rfl

@[simp]
theorem maskStrings_asciiLower (code : Text) :
    maskStrings (asciiLower code) = asciiLower (maskStrings code) := by
  rw [maskStrings_eq_flatMap, maskStrings_eq_flatMap, withQuotes_asciiLower, List.flatMap_map,
    asciiLower, List.map_flatMap]
  exact List.flatMap_congr fun p _ ↦ masked_lowered p

@[simp]
theorem isContinued_asciiLower (code : Text) :
    isContinued (asciiLower code) = isContinued code := by
  simp [isContinued]

theorem firstCode?_map_asciiLower (lines : List Text) :
    firstCode? (lines.map asciiLower) = (firstCode? lines).map asciiLower := by
  induction lines with
  | nil => rfl
  | cons line lines ih =>
    rw [firstCode?, firstCode?] at ih
    rw [firstCode?, firstCode?, List.map_cons, List.findSome?_cons, List.findSome?_cons, ih,
      stripComment_asciiLower, trim_asciiLower]
    dsimp only
    rw [isEmpty_asciiLower]
    cases (trim (stripComment line)).isEmpty <;> rfl

theorem nextCode?_map_asciiLower (lines : List Text) (index : Nat) :
    nextCode? (lines.map asciiLower) index = (nextCode? lines index).map asciiLower := by
  rw [nextCode?, nextCode?, ← List.map_drop, firstCode?_map_asciiLower]

theorem withSuffix?_asciiLower (digits rest : Text) :
    withSuffix? (asciiLower digits) (asciiLower rest) =
      (withSuffix? digits rest).map asciiLower := by
  simp only [withSuffix?, takeWhile_asciiLower CaseBlind.isWordChar, length_asciiLower,
    all_asciiLower CaseBlind.isAlpha]
  split
  · rw [Option.map_some, asciiLower_append]
  · rfl

theorem withFraction?_asciiLower (digits rest : Text) :
    withFraction? (asciiLower digits) (asciiLower rest) =
      (withFraction? digits rest).map asciiLower := by
  obtain ⟨tail, rfl, hlower⟩ | ⟨hother, hlower⟩ := asciiLower_sign_cases '.' rfl rest
  · have hfraction := withSuffix?_asciiLower (digits ++ '.' :: tail.takeWhile isWordDigit)
      (tail.dropWhile isWordDigit)
    rw [asciiLower_append, asciiLower_cons, show '.'.toLower = '.' from rfl] at hfraction
    rw [hlower, withFraction?, withFraction?, takeWhile_asciiLower CaseBlind.isWordDigit,
      isEmpty_asciiLower, dropWhile_asciiLower CaseBlind.isWordDigit, hfraction]
    split <;> rfl
  · rw [withFraction?.eq_2 _ _ hother, withFraction?.eq_2 _ _ hlower, Option.map_none]

@[simp]
theorem number?_asciiLower (s : Text) : number? (asciiLower s) = (number? s).map asciiLower := by
  simp only [number?, takeWhile_asciiLower CaseBlind.isWordDigit, isEmpty_asciiLower,
    dropWhile_asciiLower CaseBlind.isWordDigit, withFraction?_asciiLower, withSuffix?_asciiLower]
  split
  · rfl
  · exact Option.map_or.symm

theorem numbersFrom_asciiLower (offset skip : Nat) (inWord : Bool) (s : Text) :
    numbersFrom offset skip inWord (asciiLower s) =
      (numbersFrom offset skip inWord s).map (Prod.map id asciiLower) := by
  induction s generalizing offset skip inWord with
  | nil => cases skip <;> rfl
  | cons c rest ih =>
    cases skip with
    | succ k =>
      rw [asciiLower_cons, numbersFrom, numbersFrom, CaseBlind.utf8Size c, CaseBlind.isWordChar c,
        ih]
    | zero =>
      have hnumber : (if inWord then none else number? (asciiLower (c :: rest))) =
          (if inWord then none else number? (c :: rest)).map asciiLower := by
        rw [number?_asciiLower]
        split <;> rfl
      rw [asciiLower_cons, numbersFrom, numbersFrom, ← asciiLower_cons, hnumber,
        CaseBlind.utf8Size c, CaseBlind.isWordChar c]
      cases if inWord then none else number? (c :: rest) with
      | none => exact ih _ _ _
      | some literal =>
        simp only [Option.map_some, ih, length_asciiLower, List.map_cons]
        rfl

@[simp]
theorem numbers_asciiLower (masked : Text) :
    numbers (asciiLower masked) = (numbers masked).map (Prod.map id asciiLower) :=
  numbersFrom_asciiLower 0 0 false masked

end VbOutline.Line
