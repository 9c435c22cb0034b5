import VbOutline.Proofs.Line.Scanning

/-!
# Nested brackets

A text is nested if each bracket in it is closed by one of its own kind, what is inside string
literals apart. A scanner that goes over such a text comes back to the depth at which it started, and
in between it does not get below. So the readings of a line that look for something outside brackets
pass over nested texts as a whole: a group ends where its own bracket is closed, and a list falls into
pieces at the commas between its items only.
-/

namespace VbOutline.Line

open Text

/-- The brackets of a text are properly nested outside literals, and none of the barred characters
stands outside brackets and literals. A doubled quote inside a literal ends it and begins another. -/
inductive Nested (brackets : Brackets) : List Char → Text → Prop
  | nil {barred : List Char} : Nested brackets barred []
  | plain {barred : List Char} {c : Char} {s : Text} : c ∉ barred → c ≠ '"' →
      c ∉ brackets.opening → c ∉ brackets.closing → Nested brackets barred s →
      Nested brackets barred (c :: s)
  | literal {barred : List Char} {inside s : Text} : '"' ∉ inside → Nested brackets barred s →
      Nested brackets barred ('"' :: inside ++ '"' :: s)
  | group {barred : List Char} {first last : Char} {inside s : Text} :
      (first, last) ∈ brackets.opening.zip brackets.closing → Nested brackets [] inside →
      Nested brackets barred s → Nested brackets barred (first :: inside ++ last :: s)

/-- Quotes and opening and closing brackets are different characters. -/
structure Brackets.Distinct (brackets : Brackets) : Prop where
  quote_opening : '"' ∉ brackets.opening
  quote_closing : '"' ∉ brackets.closing
  disjoint : ∀ c ∈ brackets.closing, c ∉ brackets.opening

theorem distinct_listBrackets : listBrackets.Distinct := by
  constructor <;> decide

theorem distinct_valueBrackets : valueBrackets.Distinct := by
  constructor <;> decide

theorem distinct_roundBrackets : roundBrackets.Distinct := by
  constructor <;> decide

namespace Nested

variable {brackets : Brackets} {barred : List Char} {s t : Text}

theorem append (hs : Nested brackets barred s) (ht : Nested brackets barred t) :
    Nested brackets barred (s ++ t) := by
  induction hs with
  | nil => exact ht
  | plain hbarred hquote hopening hclosing _ ih =>
    exact .plain hbarred hquote hopening hclosing (ih ht)
  | literal hinside _ ih =>
    rw [List.append_assoc, List.cons_append]
    exact .literal hinside (ih ht)
  | group hpair hinside _ _ ih =>
    rw [List.append_assoc, List.cons_append]
    exact .group hpair hinside (ih ht)

theorem of_plain (h : ∀ c ∈ s, c ∉ barred ∧ c ≠ '"' ∧ c ∉ brackets.opening ∧ c ∉ brackets.closing) :
    Nested brackets barred s := by
  induction s with
  | nil => exact .nil
  | cons c s ih =>
    obtain ⟨⟨hbarred, hquote, hopening, hclosing⟩, hs⟩ := List.forall_mem_cons.1 h
    exact .plain hbarred hquote hopening hclosing (ih hs)

end Nested

/-- The parentheses of a text are balanced, those in literals included. -/
def Balanced (s : Text) : Prop :=
  s.count '(' = s.count ')' ∧ ∀ front ∈ s.inits, front.count ')' ≤ front.count '('

instance (s : Text) : Decidable (Balanced s) :=
  inferInstanceAs (Decidable
    (s.count '(' = s.count ')' ∧ ∀ front ∈ s.inits, front.count ')' ≤ front.count '('))

section

variable {brackets : Brackets}

/-- No brackets but parentheses, and no quotes, are in the text. -/
def IsRound (brackets : Brackets) (s : Text) : Prop :=
  ∀ c ∈ s, c ∈ '"' :: brackets.opening ++ brackets.closing → c = '(' ∨ c = ')'

instance (s : Text) : Decidable (IsRound brackets s) :=
  inferInstanceAs (Decidable
    (∀ c ∈ s, c ∈ '"' :: brackets.opening ++ brackets.closing → c = '(' ∨ c = ')'))

/-- A text that closes more parentheses than it opens consists of nested parts, one more than
there are parentheses that were open before it. -/
theorem exists_nested_parts (hpair : ('(', ')') ∈ brackets.opening.zip brackets.closing) {s : Text}
    (hround : IsRound brackets s) (depth : Nat) (hclosed : s.count ')' = depth + s.count '(')
    (hfronts : ∀ front, front <+: s → front.count ')' ≤ depth + front.count '(') :
    ∃ (first : Text) (rests : List Text), rests.length = depth ∧
      s = first ++ rests.flatMap (fun rest ↦ ')' :: rest) ∧
      Nested brackets [] first ∧ ∀ rest ∈ rests, Nested brackets [] rest := by
  induction s generalizing depth with
  | nil =>
    have hdepth : depth = 0 := hclosed.symm
    exact ⟨[], [], hdepth.symm, rfl, .nil, by simp⟩
  | cons c s ih =>
    have hmore : IsRound brackets s := fun d hd ↦ hround d (List.mem_cons_of_mem c hd)
    have hnext (front : Text) (hfront : front <+: s) :
        (c :: front).count ')' ≤ depth + (c :: front).count '(' :=
      hfronts (c :: front) (List.cons_prefix_cons.2 ⟨rfl, hfront⟩)
    by_cases hopen : c = '('
    · subst hopen
      have hcount (t : Text) : ('(' :: t).count ')' = t.count ')' ∧
          ('(' :: t).count '(' = t.count '(' + 1 :=
        ⟨List.count_cons_of_ne (by decide), List.count_cons_self⟩
      simp only [hcount] at hclosed hnext
      obtain ⟨first, rests, hlength, rfl, hfirst, hrests⟩ := ih hmore (depth + 1) (by omega)
        fun front hfront ↦ by
          have hle := hnext front hfront
          omega
      -- the part before the closing parenthesis and the one after it are put together
      obtain ⟨rest, more, rfl⟩ := List.exists_cons_of_length_eq_add_one hlength
      obtain ⟨hrest, hmore⟩ := List.forall_mem_cons.1 hrests
      exact ⟨'(' :: first ++ ')' :: rest, more, Nat.succ.inj hlength, by simp,
        .group hpair hfirst hrest, hmore⟩
    · by_cases hclose : c = ')'
      · subst hclose
        have hcount (t : Text) : (')' :: t).count ')' = t.count ')' + 1 ∧
            (')' :: t).count '(' = t.count '(' :=
          ⟨List.count_cons_self, List.count_cons_of_ne (by decide)⟩
        simp only [hcount] at hclosed hnext
        have hpos : 1 ≤ depth := by simpa using hnext [] List.nil_prefix
        obtain ⟨first, rests, hlength, rfl, hfirst, hrests⟩ := ih hmore (depth - 1) (by omega)
          fun front hfront ↦ by
            have hle := hnext front hfront
            omega
        refine ⟨[], first :: rests, ?_, rfl, .nil, List.forall_mem_cons.2 ⟨hfirst, hrests⟩⟩
        rw [List.length_cons, hlength]
        omega
      · have hcount (t : Text) : (c :: t).count ')' = t.count ')' ∧
            (c :: t).count '(' = t.count '(' :=
          ⟨List.count_cons_of_ne hclose, List.count_cons_of_ne hopen⟩
        simp only [hcount] at hclosed hnext
        obtain ⟨first, rests, hlength, rfl, hfirst, hrests⟩ := ih hmore depth hclosed hnext
        have hplain : c ∉ '"' :: brackets.opening ++ brackets.closing := by
          intro hsign
          obtain rfl | rfl := hround c List.mem_cons_self hsign
          · exact hopen rfl
          · exact hclose rfl
        simp only [List.cons_append, List.mem_cons, List.mem_append, not_or] at hplain
        exact ⟨c :: first, rests, hlength, rfl,
          .plain List.not_mem_nil hplain.1 hplain.2.1 hplain.2.2 hfirst, hrests⟩

/-- A text with balanced parentheses and without other brackets is nested. -/
theorem Balanced.nested (hpair : ('(', ')') ∈ brackets.opening.zip brackets.closing) {s : Text}
    (hround : IsRound brackets s) (h : Balanced s) : Nested brackets [] s := by
  obtain ⟨first, rests, hlength, rfl, hfirst, -⟩ := exists_nested_parts hpair hround 0
    (by simpa using h.1.symm) (fun front hfront ↦ by
      simpa using h.2 front ((List.mem_inits _ _).2 hfront))
  obtain rfl := List.eq_nil_of_length_eq_zero hlength
  simpa using hfirst

end

/-! ## The scanner -/

namespace Nesting

variable {brackets : Brackets} {depth : Nat} {c : Char}

/-- The scanner after a text. -/
def scan (brackets : Brackets) (n : Nesting) (s : Text) : Nesting := s.foldl (after brackets) n

@[simp]
theorem scan_nil (n : Nesting) : scan brackets n [] = n := rfl

@[simp]
theorem scan_cons (n : Nesting) (c : Char) (s : Text) :
    scan brackets n (c :: s) = scan brackets (n.after brackets c) s := rfl

@[simp]
theorem scan_append (n : Nesting) (s t : Text) :
    scan brackets n (s ++ t) = scan brackets (scan brackets n s) t := List.foldl_append

theorem after_quote (n : Nesting) :
    n.after brackets '"' = { n with quoted := !n.quoted } := by simp [after]

theorem after_quoted (hquote : c ≠ '"') :
    after brackets ⟨depth, true⟩ c = ⟨depth, true⟩ := by simp [after, hquote]

theorem after_plain (n : Nesting) (hquote : c ≠ '"') (hopening : c ∉ brackets.opening)
    (hclosing : c ∉ brackets.closing) : n.after brackets c = n := by
  simp [after, hquote, hopening, hclosing]

theorem after_opening (hbrackets : brackets.Distinct) (hc : c ∈ brackets.opening) :
    after brackets ⟨depth, false⟩ c = ⟨depth + 1, false⟩ := by
  have hquote : c ≠ '"' := by
    rintro rfl
    exact hbrackets.quote_opening hc
  simp [after, hquote, hc]

theorem after_closing (hbrackets : brackets.Distinct) (hc : c ∈ brackets.closing) :
    after brackets ⟨depth, false⟩ c = ⟨depth - 1, false⟩ := by
  have hquote : c ≠ '"' := by
    rintro rfl
    exact hbrackets.quote_closing hc
  simp [after, hquote, hc, hbrackets.disjoint c hc]

theorem scan_inside {inside : Text} (hinside : '"' ∉ inside) :
    scan brackets ⟨depth, true⟩ inside = ⟨depth, true⟩ := by
  induction inside with
  | nil => rfl
  | cons c inside ih =>
    rw [List.mem_cons, not_or] at hinside
    rw [scan_cons, after_quoted (Ne.symm hinside.1), ih hinside.2]

end Nesting

open Nesting

section

variable {brackets : Brackets} {barred : List Char} {s : Text}

theorem withNesting_cons (n : Nesting) (c : Char) (s : Text) :
    withNesting brackets n (c :: s) = (n, c) :: withNesting brackets (n.after brackets c) s :=
  states_cons _ n c s

theorem withNesting_append (n : Nesting) (s t : Text) :
    withNesting brackets n (s ++ t) =
      withNesting brackets n s ++ withNesting brackets (scan brackets n s) t := states_append _ n s t

theorem quoted_of_mem_withNesting {depth : Nat} {inside : Text} (hinside : '"' ∉ inside)
    {p : Nesting × Char} (hp : p ∈ withNesting brackets ⟨depth, true⟩ inside) :
    p.1 = ⟨depth, true⟩ ∧ p.2 ≠ '"' := by
  induction inside with
  | nil => cases hp
  | cons c inside ih =>
    rw [List.mem_cons, not_or] at hinside
    rw [withNesting_cons, after_quoted (Ne.symm hinside.1), List.mem_cons] at hp
    obtain rfl | hp := hp
    · exact ⟨rfl, Ne.symm hinside.1⟩
    · exact ih hinside.2 hp

/-- The scanner comes back from a nested text to where it started. -/
theorem Nested.scan_eq (hbrackets : brackets.Distinct) (h : Nested brackets barred s) (depth : Nat) :
    scan brackets ⟨depth, false⟩ s = ⟨depth, false⟩ := by
  induction h generalizing depth with
  | nil => rfl
  | plain _ hquote hopening hclosing _ ih =>
    rw [scan_cons, after_plain _ hquote hopening hclosing, ih]
  | literal hinside _ ih =>
    rw [List.cons_append, scan_cons, after_quote, scan_append, Bool.not_false, scan_inside hinside,
      scan_cons, after_quote, Bool.not_true, ih]
  | group hpair _ _ ihinside ih =>
    obtain ⟨hfirst, hlast⟩ := List.of_mem_zip hpair
    rw [List.cons_append, scan_cons, after_opening hbrackets hfirst, scan_append, ihinside, scan_cons,
      after_closing hbrackets hlast, Nat.add_sub_cancel, ih]

/-- On the way over a nested text the scanner does not get below the depth at which it started, and
at that depth it meets no barred character. -/
theorem Nested.of_mem_withNesting (hbrackets : brackets.Distinct)
    (hbarred : ∀ c ∈ barred, c ≠ '"' ∧ c ∉ brackets.opening) (h : Nested brackets barred s)
    {depth : Nat} {p : Nesting × Char} (hp : p ∈ withNesting brackets ⟨depth, false⟩ s) :
    depth ≤ p.1.depth ∧ depth ≤ (p.1.after brackets p.2).depth ∧
      (p.2 ∈ barred → p.1.quoted = true ∨ depth < p.1.depth) := by
  induction h generalizing depth with
  | nil => cases hp
  | plain hc hquote hopening hclosing _ ih =>
    rw [withNesting_cons, after_plain _ hquote hopening hclosing, List.mem_cons] at hp
    obtain rfl | hp := hp
    · rw [after_plain _ hquote hopening hclosing]
      exact ⟨Nat.le_refl depth, Nat.le_refl depth, fun hmem ↦ absurd hmem hc⟩
    · exact ih hbarred hp
  | literal hinside _ ih =>
    rw [List.cons_append, withNesting_cons, after_quote, Bool.not_false, withNesting_append,
      scan_inside hinside, withNesting_cons, after_quote, Bool.not_true, List.mem_cons,
      List.mem_append, List.mem_cons] at hp
    obtain rfl | hp | rfl | hp := hp
    · rw [after_quote]
      exact ⟨Nat.le_refl depth, Nat.le_refl depth, fun hmem ↦ absurd rfl (hbarred _ hmem).1⟩
    · obtain ⟨hquoted, hne⟩ := quoted_of_mem_withNesting hinside hp
      rw [hquoted, after_quoted hne]
      exact ⟨Nat.le_refl depth, Nat.le_refl depth, fun _ ↦ .inl rfl⟩
    · rw [after_quote]
      exact ⟨Nat.le_refl depth, Nat.le_refl depth, fun _ ↦ .inl rfl⟩
    · exact ih hbarred hp
  | group hpair hnested _ ihinside ih =>
    obtain ⟨hfirst, hlast⟩ := List.of_mem_zip hpair
    rw [List.cons_append, withNesting_cons, after_opening hbrackets hfirst, withNesting_append,
      hnested.scan_eq hbrackets, withNesting_cons, after_closing hbrackets hlast, Nat.add_sub_cancel,
      List.mem_cons, List.mem_append, List.mem_cons] at hp
    obtain rfl | hp | rfl | hp := hp
    · rw [after_opening hbrackets hfirst]
      exact ⟨Nat.le_refl depth, Nat.le_succ depth, fun hmem ↦ absurd hfirst (hbarred _ hmem).2⟩
    · -- inside the group the scanner is deeper by one, whatever it meets there
      obtain ⟨hbefore, hafter, -⟩ := ihinside (by simp) hp
      exact ⟨Nat.le_of_succ_le hbefore, Nat.le_of_succ_le hafter, fun _ ↦ .inr hbefore⟩
    · rw [after_closing hbrackets hlast]
      exact ⟨Nat.le_succ depth, Nat.le_refl depth, fun _ ↦ .inr (Nat.lt_succ_self depth)⟩
    · exact ih hbarred hp

end

/-- The scanner meets the character outside brackets and literals somewhere in the text. -/
def StandsOutside (brackets : Brackets) (c : Char) (s : Text) : Prop :=
  ∃ p ∈ withNesting brackets .outside s, p.2 = c ∧ p.1.isOutside

instance (brackets : Brackets) (c : Char) (s : Text) : Decidable (StandsOutside brackets c s) :=
  inferInstanceAs (Decidable (∃ p ∈ withNesting brackets .outside s, p.2 = c ∧ p.1.isOutside))

section

variable {brackets : Brackets} {barred : List Char} {c : Char} {s t : Text}

theorem StandsOutside.of_isPrefix (h : StandsOutside brackets c s) (hst : s <+: t) :
    StandsOutside brackets c t := by
  obtain ⟨p, hp, houtside⟩ := h
  obtain ⟨more, rfl⟩ := hst
  exact ⟨p, by rw [withNesting_append]; exact List.mem_append_left _ hp, houtside⟩

/-- What is barred in a nested text does not stand outside. -/
theorem Nested.not_standsOutside (hbrackets : brackets.Distinct)
    (hbarred : ∀ c ∈ barred, c ≠ '"' ∧ c ∉ brackets.opening) (h : Nested brackets barred s)
    (hc : c ∈ barred) : ¬ StandsOutside brackets c s := by
  rintro ⟨⟨n, d⟩, hp, rfl, houtside⟩
  obtain ⟨-, -, hinside⟩ := h.of_mem_withNesting hbrackets hbarred hp
  rw [isOutside, Bool.and_eq_true, beq_iff_eq, Bool.not_eq_true'] at houtside
  obtain hquoted | hdepth := hinside hc
  · cases hquoted.symm.trans houtside.2
  · exact hdepth.ne' houtside.1

end

/-! ## Pieces of a list -/

/-- An item of a list: no comma stands outside its brackets and literals, and all of them are closed. -/
structure IsItem (s : Text) : Prop where
  closed : scan listBrackets .outside s = .outside
  comma : ¬ StandsOutside listBrackets ',' s

theorem Nested.isItem {s : Text} (h : Nested listBrackets [','] s) : IsItem s :=
  ⟨h.scan_eq distinct_listBrackets 0,
    h.not_standsOutside distinct_listBrackets (by decide) List.mem_cons_self⟩

theorem cut_of_not_separates {ps : List (Nesting × Char)} (h : ∀ p ∈ ps, ¬ separates p)
    (piece : Text) (rest : List Text) :
    cut ps (piece :: rest) = (ps.map Prod.snd ++ piece) :: rest := by
  induction ps with
  | nil => rfl
  | cons p ps ih =>
    obtain ⟨hp, hps⟩ := List.forall_mem_cons.1 h
    rw [cut_cons, if_neg hp, ih hps]
    rfl

theorem not_standsOutside_iff {s : Text} :
    ¬ StandsOutside listBrackets ',' s ↔
      ∀ p ∈ withNesting listBrackets .outside s, ¬ separates p := by
  simp only [StandsOutside, separates, Bool.and_eq_true, beq_iff_eq, not_exists, not_and]

/-- A text without a comma outside is one piece. -/
theorem pieces_eq_singleton {s : Text} (h : ¬ StandsOutside listBrackets ',' s) : pieces s = [s] := by
  rw [pieces_eq_cut, cut_of_not_separates (not_standsOutside_iff.1 h), List.append_nil, withNesting,
    map_snd_states]

/-- There is one piece more than there are commas outside. -/
theorem length_cut (ps : List (Nesting × Char)) :
    (cut ps [[]]).length = ps.countP separates + 1 := by
  induction ps with
  | nil => rfl
  | cons p ps ih =>
    rw [cut_cons]
    split
    · next hcomma => rw [List.length_cons, ih, List.countP_cons_of_pos hcomma]
    · next hother =>
      obtain ⟨piece, more, hcut⟩ := List.exists_cons_of_length_eq_add_one ih
      rw [List.countP_cons_of_neg hother, ← ih, hcut]
      rfl

theorem not_standsOutside_of_length_pieces {s : Text} (h : (pieces s).length = 1) :
    ¬ StandsOutside listBrackets ',' s := by
  rw [pieces_eq_cut, length_cut, Nat.add_eq_right, List.countP_eq_zero] at h
  exact not_standsOutside_iff.2 h

@[simp]
theorem length_withOffsets (start : Nat) (cut : List Text) :
    (withOffsets start cut).length = cut.length := by
  induction cut generalizing start with
  | nil => rfl
  | cons piece cut ih => rw [withOffsets, List.length_cons, List.length_cons, ih]

theorem pieces_append_comma {item : Text} (h : IsItem item) (rest : Text) :
    pieces (item ++ ',' :: rest) = item :: pieces rest := by
  have hcomma : separates (.outside, ',') := rfl
  have hitem := cut_of_not_separates (not_standsOutside_iff.1 h.comma) [] (pieces rest)
  rw [List.append_nil, withNesting, map_snd_states, ← withNesting] at hitem
  rw [← hitem, pieces_eq_cut, withNesting_append, h.closed, withNesting_cons,
    after_plain _ (by decide) (by decide) (by decide), cut_append, cut_cons, if_pos hcomma,
    pieces_eq_cut]

/-- What is put behind a list without a comma belongs to its last piece. -/
theorem pieces_append_of_not_mem (s : Text) {t : Text} (h : ',' ∉ t) :
    ∃ front last, pieces s = front ++ [last] ∧ pieces (s ++ t) = front ++ [last ++ t] := by
  have htail : ∀ p ∈ withNesting listBrackets (scan listBrackets .outside s) t, ¬ separates p := by
    intro p hp hseparates
    rw [separates, Bool.and_eq_true, beq_iff_eq] at hseparates
    exact h (hseparates.1 ▸ (mem_of_mem_states hp))
  have hpiece := cut_of_not_separates htail [] []
  rw [List.append_nil, withNesting, map_snd_states, ← withNesting] at hpiece
  rw [pieces_eq_cut, pieces_eq_cut, withNesting_append, cut_append, hpiece]
  -- the pieces before the last one do not depend on what it ends with
  induction withNesting listBrackets .outside s with
  | nil => exact ⟨[], [], rfl, rfl⟩
  | cons p ps ih =>
    obtain ⟨front, last, hshort, hlong⟩ := ih
    rw [cut_cons, cut_cons, hshort, hlong]
    split
    · exact ⟨[] :: front, last, rfl, rfl⟩
    · cases front with
      | nil => exact ⟨[], p.2 :: last, rfl, rfl⟩
      | cons piece front => exact ⟨(p.2 :: piece) :: front, last, rfl, rfl⟩

/-- A list of items is cut into its items. -/
theorem pieces_intercalate {items : List Text} (hne : items ≠ [])
    (h : ∀ item ∈ items, IsItem item) : pieces ([','].intercalate items) = items := by
  induction items with
  | nil => exact absurd rfl hne
  | cons item items ih =>
    obtain ⟨hitem, hitems⟩ := List.forall_mem_cons.1 h
    cases items with
    | nil => rw [List.intercalate_singleton, pieces_eq_singleton hitem.comma]
    | cons next items =>
      rw [List.intercalate_cons_cons, List.append_assoc, List.singleton_append,
        pieces_append_comma hitem, ih (List.cons_ne_nil next items) hitems]

/-- The pieces of a text to which the scanner comes with `n`. The first one goes on from there, and each
of the others begins outside; a comma that separates stands in none of them. -/
theorem exists_cut (n : Nesting) (s : Text) :
    ∃ first rest, cut (withNesting listBrackets n s) [[]] = first :: rest ∧
      (∀ p ∈ withNesting listBrackets n first, ¬ separates p) ∧
      ∀ piece ∈ rest, ¬ StandsOutside listBrackets ',' piece := by
  induction s generalizing n with
  | nil => exact ⟨[], [], rfl, by simp [withNesting], by simp⟩
  | cons c s ih =>
    obtain ⟨first, rest, hcut, hfirst, hrest⟩ := ih (n.after listBrackets c)
    rw [withNesting_cons, cut_cons, hcut]
    split
    · next hcomma =>
      rw [separates, Bool.and_eq_true, beq_iff_eq] at hcomma
      obtain ⟨rfl, houtside⟩ := hcomma
      obtain rfl : n = .outside := by
        rw [isOutside, Bool.and_eq_true, beq_iff_eq, Bool.not_eq_true'] at houtside
        exact congrArg₂ Nesting.mk houtside.1 houtside.2
      rw [after_plain _ (by decide) (by decide) (by decide)] at hfirst
      exact ⟨[], first :: rest, rfl, by simp [withNesting],
        List.forall_mem_cons.2 ⟨not_standsOutside_iff.2 hfirst, hrest⟩⟩
    · next hother =>
      refine ⟨c :: first, rest, rfl, ?_, hrest⟩
      rw [withNesting_cons, List.forall_mem_cons]
      exact ⟨hother, hfirst⟩

theorem not_standsOutside_of_mem_pieces {s piece : Text} (h : piece ∈ pieces s) :
    ¬ StandsOutside listBrackets ',' piece := by
  obtain ⟨first, rest, hcut, hfirst, hrest⟩ := exists_cut .outside s
  rw [pieces_eq_cut, hcut, List.mem_cons] at h
  obtain rfl | h := h
  · exact not_standsOutside_iff.2 hfirst
  · exact hrest piece h

theorem map_snd_withOffsets (start : Nat) (cut : List Text) :
    (withOffsets start cut).map (·.2) = cut := by
  induction cut generalizing start with
  | nil => rfl
  | cons piece cut ih => rw [withOffsets, List.map_cons, ih]

/-- Before a piece come the pieces in front of it, each with its comma. -/
theorem offset_of_withOffsets {start offset : Nat} {piece : Text} {cut : List Text}
    {front back : List (Nat × Text)} (h : withOffsets start cut = front ++ (offset, piece) :: back) :
    offset = start + byteSize (front.flatMap fun p ↦ p.2 ++ [',']) := by
  induction cut generalizing start front with
  | nil => simp [withOffsets] at h
  | cons first cut ih =>
    rw [withOffsets] at h
    cases front with
    | nil =>
      obtain ⟨rfl, -⟩ := Prod.mk.inj (List.cons.inj h).1
      rfl
    | cons p front =>
      obtain ⟨rfl, hrest⟩ := List.cons.inj h
      rw [ih hrest, List.flatMap_cons, byteSize_append, byteSize_append]
      have hcomma : byteSize [','] = 1 := rfl
      dsimp only
      omega

/-- A list is cut into pieces that give it back when they are joined by commas. Each stands at the offset
given with it, behind the pieces before it and their commas, and is not cut further. Every list of items
is cut into these. -/
theorem splitTopLevel_joined :
    (∀ s, [','].intercalate ((splitTopLevel s).map (·.2)) = s ∧
      ∀ front offset piece back, splitTopLevel s = front ++ (offset, piece) :: back →
        StandsAt s offset piece ∧ offset = byteSize (front.flatMap fun p ↦ p.2 ++ [',']) ∧
          splitTopLevel piece = [(0, piece)]) ∧
      ∀ items, items ≠ [] → (∀ item ∈ items, IsItem item) →
        (splitTopLevel ([','].intercalate items)).map (·.2) = items := by
  refine ⟨fun s ↦ ⟨?_, fun front offset piece back h ↦ ?_⟩, fun items hne h ↦ ?_⟩
  · rw [splitTopLevel, map_snd_withOffsets, intercalate_pieces]
  · have hmem : (offset, piece) ∈ splitTopLevel s := by
      rw [h]
      exact List.mem_append_right front List.mem_cons_self
    have hpiece : piece ∈ pieces s := by
      rw [← map_snd_withOffsets 0 (pieces s)]
      exact List.mem_map_of_mem hmem
    refine ⟨standsAt_of_mem_splitTopLevel hmem, ?_, ?_⟩
    · rw [offset_of_withOffsets h, Nat.zero_add]
    · rw [splitTopLevel, pieces_eq_singleton (not_standsOutside_of_mem_pieces hpiece), withOffsets,
        withOffsets]
  · rw [splitTopLevel, map_snd_withOffsets, pieces_intercalate hne h]

/-- Brackets may be closed by others, or closed without being open, and an unclosed bracket or quote
hides all commas after it. -/
theorem splitTopLevel_joined_unbalanced :
    splitTopLevel "é>,(a,b),\"c".toList =
        [(0, "é>".toList), (4, "(a,b)".toList), (10, "\"c".toList)] ∧
      splitTopLevel "(a,b)".toList = [(0, "(a,b)".toList)] ∧
      (splitTopLevel "f(x,<y)>,\",(\",>,".toList).map (·.2) =
        ["f(x,<y)>".toList, "\",(\"".toList, ">".toList, []] := by
  have hcut : splitTopLevel "é>,(a,b),\"c".toList =
      [(0, "é>".toList), (4, "(a,b)".toList), (10, "\"c".toList)] := by decide
  refine ⟨hcut, ?_, ?_⟩
  · exact ((splitTopLevel_joined.1 _).2 [_] _ _ [_] hcut).2.2
  · refine splitTopLevel_joined.2 ["f(x,<y)>".toList, "\",(\"".toList, ">".toList, []] (by decide) ?_
    intro item hitem
    simp only [List.mem_cons, List.not_mem_nil, or_false] at hitem
    obtain rfl | rfl | rfl | rfl := hitem
    all_goals exact ⟨by decide, by decide⟩

theorem beforeAssignment?_eq_none_iff {s : Text} :
    beforeAssignment? s = none ↔ ¬ StandsOutside valueBrackets '=' s := by
  simp only [beforeAssignment?, ite_eq_right_iff, reduceCtorEq, imp_false, List.any_eq_true,
    Bool.and_eq_true, beq_iff_eq, StandsOutside]

/-- The first equals sign outside ends what it assigns to. -/
theorem beforeAssignment?_append {head : Text} (hclosed : scan valueBrackets .outside head = .outside)
    (h : ¬ StandsOutside valueBrackets '=' head) (value : Text) :
    beforeAssignment? (head ++ '=' :: value) = some head := by
  have hhead : ∀ p ∈ withNesting valueBrackets .outside head,
      (!(p.2 == '=' && p.1.isOutside)) = true := by
    intro p hp
    rw [Bool.not_eq_true', Bool.eq_false_iff]
    intro hassignment
    rw [Bool.and_eq_true, beq_iff_eq] at hassignment
    exact h ⟨p, hp, hassignment⟩
  have hscanned : withNesting valueBrackets .outside (head ++ '=' :: value) =
      withNesting valueBrackets .outside head ++
        (Nesting.outside, '=') :: withNesting valueBrackets .outside value := by
    rw [withNesting_append, hclosed, withNesting_cons,
      after_plain _ (by decide) (by decide) (by decide)]
  have hany : (withNesting valueBrackets .outside (head ++ '=' :: value)).any
      (fun p ↦ p.2 == '=' && p.1.isOutside) := by
    rw [hscanned, List.any_append, List.any_cons]
    simp [isOutside, outside]
  rw [beforeAssignment?, if_pos hany, hscanned, List.takeWhile_append_of_pos hhead,
    List.takeWhile_cons_of_neg (by decide), List.append_nil, withNesting, map_snd_states]

/-- A group ends where its bracket is closed. -/
theorem takeGroup?_eq_some_of_nested {inner : Text} (h : Nested roundBrackets [] inner)
    (after : Text) : takeGroup? ('(' :: (inner ++ ')' :: after)) = some (inner, after) := by
  have hinside : ∀ p ∈ withNesting roundBrackets ⟨1, false⟩ inner,
      (!((p.1.after roundBrackets p.2).depth == 0)) = true := by
    intro p hp
    obtain ⟨-, hdepth, -⟩ := h.of_mem_withNesting distinct_roundBrackets (by simp) hp
    simp only [Bool.not_eq_true', beq_eq_false_iff_ne]
    omega
  have hscanned : withNesting roundBrackets ⟨1, false⟩ (inner ++ ')' :: after) =
      withNesting roundBrackets ⟨1, false⟩ inner ++
        (⟨1, false⟩, ')') :: withNesting roundBrackets ⟨0, false⟩ after := by
    rw [withNesting_append, h.scan_eq distinct_roundBrackets, withNesting_cons,
      after_closing distinct_roundBrackets (by decide)]
  rw [takeGroup?, hscanned, List.dropWhile_append_of_pos hinside,
    List.takeWhile_append_of_pos hinside, List.dropWhile_cons_of_neg (by decide),
    List.takeWhile_cons_of_neg (by decide), List.append_nil]
  simp only [withNesting, map_snd_states]

end VbOutline.Line
