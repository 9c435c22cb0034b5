import Mathlib.Data.List.DropRight
import VbOutline.Line.Word
import VbOutline.Proofs.Text.Lines

/-!
# Lines that are put together from words

Words that are written with white space between them are read back one by one: a word ends where
something stands that cannot belong to it. White space is no part of a word or of an identifier, and
a name begins with a character of a word.
-/

namespace VbOutline

namespace Text

/-- The code points of white space. -/
def spaceCodes : List Nat :=
  List.range' 0x09 5 ++ [0x20, 0x85, 0xA0, 0x1680] ++ List.range' 0x2000 11 ++
    [0x2028, 0x2029, 0x202F, 0x205F, 0x3000]

theorem mem_spaceCodes_of_isSpace {c : Char} (h : isSpace c) : c.toNat ∈ spaceCodes := by
  simp only [isSpace, Bool.or_eq_true, Bool.and_eq_true, decide_eq_true_eq, beq_iff_eq] at h
  simp only [spaceCodes, List.mem_append, List.mem_range'_1, List.mem_cons, List.not_mem_nil]
  omega

/-- What holds of the characters with these code points holds of white space. -/
theorem of_isSpace {p : Char → Bool} (hall : ∀ n ∈ spaceCodes, p (Char.ofNat n) = true) {c : Char}
    (h : isSpace c) : p c := by
  have hc := hall c.toNat (mem_spaceCodes_of_isSpace h)
  rwa [Char.ofNat_toNat] at hc

theorem not_isIdentChar_of_isSpace {c : Char} (h : isSpace c) : isIdentChar c = false := by
  simpa using of_isSpace (p := fun c ↦ !isIdentChar c) (by decide +kernel) h

theorem not_isWordChar_of_isSpace {c : Char} (h : isSpace c) : isWordChar c = false := by
  simpa using of_isSpace (p := fun c ↦ !isWordChar c) (by decide +kernel) h

theorem not_isAlpha_foldChar_of_isSpace {c : Char} (h : isSpace c) :
    (foldChar c).isAlpha = false := by
  simpa using of_isSpace (p := fun c ↦ !(foldChar c).isAlpha) (by decide +kernel) h

theorem not_isSpace_of_isWordChar {c : Char} (h : isWordChar c) : isSpace c = false := by
  cases hspace : isSpace c with
  | false => rfl
  | true => cases h.symm.trans (not_isWordChar_of_isSpace hspace)

theorem isWordChar_of_isNameStart {c : Char} (h : isNameStart c) : isWordChar c := by
  rw [isNameStart, isPlainStart, Bool.or_eq_true, Bool.or_eq_true, Bool.and_eq_true, beq_iff_eq,
    beq_iff_eq] at h
  obtain (⟨hletter, hold⟩ | rfl) | rfl := h
  · rw [isWordChar]
    split
    · next hascii =>
      rw [isLetter, if_pos hascii] at hletter
      simp [Char.isAlphanum, hletter]
    · simp only [isAlphabetic, hletter, hold, Bool.true_or, Bool.true_and]
  · decide
  · decide +kernel

section

variable {p : Char → Bool} {word rest : Text}

theorem takeWhile_append_stop (hword : ∀ c ∈ word, p c) (hrest : ∀ c ∈ rest.head?, p c = false) :
    (word ++ rest).takeWhile p = word := by
  rw [List.takeWhile_append_of_pos hword]
  cases rest with
  | nil => rw [List.takeWhile_nil, List.append_nil]
  | cons c rest => rw [List.takeWhile_cons_of_neg (by simp [hrest c rfl]), List.append_nil]

theorem dropWhile_append_stop (hword : ∀ c ∈ word, p c) (hrest : ∀ c ∈ rest.head?, p c = false) :
    (word ++ rest).dropWhile p = rest := by
  rw [List.dropWhile_append_of_pos hword]
  cases rest with
  | nil => rfl
  | cons c rest => rw [List.dropWhile_cons_of_neg (by simp [hrest c rfl])]

end

section

variable {s t spaces : Text}

theorem trimStart_eq_self (h : ∀ c ∈ s.head?, isSpace c = false) : trimStart s = s :=
  dropWhile_append_stop (List.forall_mem_nil _) h

theorem trimStart_append (hspaces : ∀ c ∈ spaces, isSpace c)
    (h : ∀ c ∈ s.head?, isSpace c = false) : trimStart (spaces ++ s) = s :=
  dropWhile_append_stop hspaces h

theorem isSpace_head?_blank (s : Text) : ∀ c ∈ (' ' :: s).head?, isSpace c := by
  rintro _ ⟨⟩
  decide

theorem trimStart_blank (h : ∀ c ∈ s.head?, isSpace c = false) : trimStart (' ' :: s) = s :=
  (List.dropWhile_cons_of_pos (by decide)).trans (trimStart_eq_self h)

theorem indentOf_append (hspaces : ∀ c ∈ spaces, isSpace c)
    (h : ∀ c ∈ s.head?, isSpace c = false) : indentOf (spaces ++ s) = byteSize spaces := by
  rw [indentOf, takeWhile_append_stop hspaces h]

theorem dropEndWhile_eq_self {p : Char → Bool} (h : ∀ c ∈ s.getLast?, p c = false) :
    dropEndWhile p s = s := by
  apply List.rdropWhile_eq_self_iff.2
  intro hne
  rw [h _ (List.getLast_mem_getLast? hne)]
  exact Bool.false_ne_true

theorem dropUnderscores_eq_self (h : s.getLast? ≠ some '_') : dropUnderscores s = s := by
  apply dropEndWhile_eq_self
  intro c hc
  rw [beq_eq_false_iff_ne]
  rintro rfl
  exact h hc

theorem trimEnd_eq_self (h : ∀ c ∈ s.getLast?, isSpace c = false) : trimEnd s = s :=
  dropEndWhile_eq_self h

theorem trim_eq_self (hhead : ∀ c ∈ s.head?, isSpace c = false)
    (hlast : ∀ c ∈ s.getLast?, isSpace c = false) : trim s = s := by
  rw [trim, trimStart_eq_self hhead, trimEnd_eq_self hlast]

theorem trim_append (hspaces : ∀ c ∈ spaces, isSpace c) (hhead : ∀ c ∈ s.head?, isSpace c = false)
    (hlast : ∀ c ∈ s.getLast?, isSpace c = false) : trim (spaces ++ s) = s := by
  rw [trim, trimStart_append hspaces hhead, trimEnd_eq_self hlast]

/-- What comes before something that can be seen is not trimmed at the end. -/
theorem trimEnd_append_cons (s : Text) {c : Char} (hc : isSpace c = false) (t : Text) :
    trimEnd (s ++ c :: t) = s ++ c :: trimEnd t := by
  obtain ⟨spaces, ht, hspaces⟩ := exists_eq_trimEnd_append t
  have hlast : ∀ d ∈ (c :: trimEnd t).getLast?, isSpace d = false := by
    rw [List.getLast?_cons]
    cases hend : (trimEnd t).getLast? with
    | none => simpa using hc
    | some d =>
      have hseen : trimEnd (trimEnd t) = trimEnd t := trimEnd_trimEnd t
      obtain ⟨hne, rfl⟩ := List.mem_getLast?_eq_getLast (show d ∈ (trimEnd t).getLast? from hend)
      have hnot := List.rdropWhile_eq_self_iff.1 hseen hne
      simpa using hnot
  calc
    trimEnd (s ++ c :: t) = trimEnd ((s ++ c :: trimEnd t) ++ spaces) := by
      rw [List.append_assoc, List.cons_append, ← ht]
    _ = trimEnd (s ++ c :: trimEnd t) := trimEnd_append_of_all hspaces _
    _ = s ++ c :: trimEnd t := by
      apply trimEnd_eq_self
      rwa [List.getLast?_append_of_ne_nil _ (List.cons_ne_nil _ _)]

/-- A trimmed text begins and ends with something that can be seen. -/
theorem not_isSpace_of_trim_eq_self (h : trim s = s) :
    (∀ c ∈ s.head?, isSpace c = false) ∧ ∀ c ∈ s.getLast?, isSpace c = false := by
  have hstart : trimStart s = s := by
    apply (trimStart_isSuffix s).eq_of_length_le
    calc
      s.length = (trim s).length := by rw [h]
      _ ≤ (trimStart s).length := (trim_isPrefix_trimStart s).length_le
  have hend : trimEnd s = s := by
    rwa [trim, hstart] at h
  refine ⟨?_, ?_⟩
  · intro c hc
    have hhead := List.head?_dropWhile_not isSpace s
    rw [show s.dropWhile isSpace = s from hstart, show s.head? = some c from hc] at hhead
    simpa using hhead
  · intro c hc
    obtain ⟨hne, rfl⟩ := List.mem_getLast?_eq_getLast hc
    exact Bool.eq_false_iff.2 (List.rdropWhile_eq_self_iff.1 hend hne)

end

end Text

namespace Line

open Text

section

variable {chunk word rest : Text} {c : Char}

theorem leadingChunk_append (hchunk : ∀ c ∈ chunk, isSpace c = false)
    (hrest : ∀ c ∈ rest.head?, isSpace c) : leadingChunk (chunk ++ rest) = chunk := by
  apply takeWhile_append_stop
  · simpa using hchunk
  · simpa using hrest

theorem afterChunk_append (hchunk : ∀ c ∈ chunk, isSpace c = false)
    (hrest : ∀ c ∈ rest.head?, isSpace c) : afterChunk (chunk ++ rest) = rest := by
  apply dropWhile_append_stop
  · simpa using hchunk
  · simpa using hrest

theorem leadingWord_append (hword : ∀ c ∈ word, isWordChar c)
    (hrest : ∀ c ∈ rest.head?, isWordChar c = false) : leadingWord (word ++ rest) = word :=
  takeWhile_append_stop hword hrest

/-- A word that ends with a text ends there, whatever follows that cannot belong to it. -/
theorem leadingWord_append_cons (s : Text) (hc : isWordChar c = false) (rest : Text) :
    leadingWord (s ++ c :: rest) = leadingWord s := by
  rw [leadingWord, leadingWord, List.takeWhile_append]
  split
  · next hall =>
    rw [List.takeWhile_cons_of_neg (by simp [hc]), List.append_nil,
      (List.takeWhile_prefix _).eq_of_length hall]
  · rfl

end

/-- A name as it is declared. -/
def IsName (s : Text) : Prop := ∃ c rest, s = c :: rest ∧ isNameStart c ∧ ∀ d ∈ rest, isWordChar d

/-- A dotted name. -/
inductive IsPath : Text → Prop
  | name {s : Text} : IsName s → IsPath s
  | dotted {s t : Text} : IsName s → IsPath t → IsPath (s ++ '.' :: t)

theorem IsName.isWordChar {s : Text} (h : IsName s) : ∀ c ∈ s, isWordChar c := by
  obtain ⟨c, rest, rfl, hc, hrest⟩ := h
  exact List.forall_mem_cons.2 ⟨isWordChar_of_isNameStart hc, hrest⟩

theorem IsName.any_head? {s : Text} (h : IsName s) (rest : Text) :
    (s ++ rest).head?.any isNameStart := by
  obtain ⟨c, more, rfl, hc, -⟩ := h
  exact hc

theorem IsName.ne_nil {s : Text} (h : IsName s) : s ≠ [] := by
  obtain ⟨c, rest, rfl, -, -⟩ := h
  exact List.cons_ne_nil c rest

theorem IsPath.any_head? {s : Text} (h : IsPath s) (rest : Text) :
    (s ++ rest).head?.any isNameStart := by
  cases h with
  | name h => exact h.any_head? rest
  | @dotted s t h _ =>
    rw [List.append_assoc]
    exact h.any_head? _

theorem IsPath.ne_nil {s : Text} (h : IsPath s) : s ≠ [] := by
  rintro rfl
  cases h.any_head? []

theorem IsPath.head?_append {s : Text} (h : IsPath s) (rest : Text) :
    ∀ c ∈ (s ++ rest).head?, isSpace c = false := by
  intro c hc
  have hstart := h.any_head? rest
  rw [show (s ++ rest).head? = some c from hc, Option.any_some] at hstart
  exact not_isSpace_of_isWordChar (isWordChar_of_isNameStart hstart)

theorem IsPath.isWordChar {s : Text} (h : IsPath s) : ∀ c ∈ s, isWordChar c ∨ c = '.' := by
  induction h with
  | name h => exact fun c hc ↦ .inl (h.isWordChar c hc)
  | dotted h _ ih =>
    rw [List.forall_mem_append, List.forall_mem_cons]
    exact ⟨fun c hc ↦ .inl (h.isWordChar c hc), .inr rfl, ih⟩

theorem IsPath.not_isSpace {s : Text} (h : IsPath s) : ∀ c ∈ s, isSpace c = false := by
  intro c hc
  obtain hword | rfl := h.isWordChar c hc
  · exact not_isSpace_of_isWordChar hword
  · decide

/-- The words are written with letters, at least one. -/
def Lettered (words : List String) : Prop :=
  ∀ w ∈ words, w.toList ≠ [] ∧ w.toList.all Char.isAlpha

instance (words : List String) : Decidable (Lettered words) :=
  inferInstanceAs (Decidable (∀ w ∈ words, w.toList ≠ [] ∧ w.toList.all Char.isAlpha))

theorem isAlpha_of_isOneOf {words : List String} (hwords : Lettered words) {word : Text}
    (h : isOneOf words word) : word ≠ [] ∧ ∀ c ∈ word, (foldChar c).isAlpha := by
  obtain ⟨hne, hall⟩ := hwords _ (List.contains_iff_mem.1 h)
  rw [folded, String.toList_ofList] at hne hall
  rw [List.all_map, List.all_eq_true] at hall
  exact ⟨fun hnil ↦ hne (by rw [hnil, List.map_nil]), hall⟩

theorem not_isSpace_of_isOneOf {words : List String} (hwords : Lettered words) {word : Text}
    (h : isOneOf words word) : ∀ c ∈ word, isSpace c = false := by
  intro c hc
  rw [Bool.eq_false_iff]
  intro hspace
  cases ((isAlpha_of_isOneOf hwords h).2 c hc).symm.trans (not_isAlpha_foldChar_of_isSpace hspace)

/-- Modifiers, each with a blank after it. -/
def spaced (modifiers : List Text) : Text := modifiers.flatMap fun m ↦ m ++ [' ']

@[simp]
theorem spaced_nil : spaced [] = [] := rfl

@[simp]
theorem spaced_cons (m : Text) (modifiers : List Text) :
    spaced (m :: modifiers) = m ++ ' ' :: spaced modifiers := by
  rw [spaced, List.flatMap_cons, List.append_assoc]
  rfl

/-- A text that begins with a modifier begins with something that can be seen. -/
theorem head?_spaced_append {words : List String} (hwords : Lettered words) {modifiers : List Text}
    (hmodifiers : ∀ m ∈ modifiers, isOneOf words m) {rest : Text}
    (hrest : ∀ c ∈ rest.head?, isSpace c = false) :
    ∀ c ∈ (spaced modifiers ++ rest).head?, isSpace c = false := by
  cases modifiers with
  | nil => exact hrest
  | cons m modifiers =>
    have hm := hmodifiers m List.mem_cons_self
    have hseen := not_isSpace_of_isOneOf hwords hm
    obtain ⟨c, more, rfl⟩ := List.exists_cons_of_ne_nil (isAlpha_of_isOneOf hwords hm).1
    rintro _ ⟨⟩
    exact hseen c List.mem_cons_self

theorem takeModifiers_eq_nil {words : List String} {s : Text}
    (h : isOneOf words (leadingChunk s) → afterChunk s = []) : takeModifiers words s = ([], s) := by
  rw [takeModifiers, dif_neg]
  exact fun hmodifier ↦ hmodifier.2 (h hmodifier.1)

/-- Modifiers are read back if what follows them is not a modifier itself. -/
theorem takeModifiers_spaced {words : List String} (hwords : Lettered words) {modifiers : List Text}
    (hmodifiers : ∀ m ∈ modifiers, isOneOf words m) {rest : Text}
    (hspace : ∀ c ∈ rest.head?, isSpace c = false) (hrest : takeModifiers words rest = ([], rest)) :
    takeModifiers words (spaced modifiers ++ rest) = (modifiers, rest) := by
  induction modifiers with
  | nil => exact hrest
  | cons m modifiers ih =>
    obtain ⟨hm, hmore⟩ := List.forall_mem_cons.1 hmodifiers
    have hseen := not_isSpace_of_isOneOf hwords hm
    have hblank := isSpace_head?_blank (spaced modifiers ++ rest)
    have hnext : trimStart (' ' :: (spaced modifiers ++ rest)) = spaced modifiers ++ rest :=
      trimStart_blank (head?_spaced_append hwords hmore hspace)
    rw [spaced_cons, List.append_assoc, List.cons_append, takeModifiers,
      leadingChunk_append hseen hblank, afterChunk_append hseen hblank, hnext, ih hmore]
    simp [hm]

/-- None of the words stands after white space. -/
def ClauseFree (words : List String) (s : Text) : Prop :=
  ∀ front c rest, s = front ++ c :: rest → isSpace c → startsWithKeyword words rest = false

theorem not_startsWithKeyword_of_isSpace {words : List String} (hwords : Lettered words) {s : Text}
    (h : ∀ c ∈ s.head?, isSpace c) : startsWithKeyword words s = false := by
  have hword : leadingWord s = [] := by
    cases s with
    | nil => rfl
    | cons c s => exact List.takeWhile_cons_of_neg (by simp [not_isWordChar_of_isSpace (h c rfl)])
  rw [startsWithKeyword, hword, Bool.eq_false_iff]
  exact fun hone ↦ (isAlpha_of_isOneOf hwords hone).1 rfl

section

variable {words : List String} {s : Text} {c : Char}

theorem clauseFree_iff :
    ClauseFree words s ↔
      ∀ t ∈ s.tails, t.head?.any isSpace → startsWithKeyword words t.tail = false := by
  constructor
  · intro h t ht hspace
    obtain ⟨front, rfl⟩ := (List.mem_tails _ _).1 ht
    cases t with
    | nil => cases hspace
    | cons c rest => exact h front c rest rfl hspace
  · rintro h front c rest rfl hc
    exact h (c :: rest) ((List.mem_tails _ _).2 (List.suffix_append _ _)) hc

instance (words : List String) (s : Text) : Decidable (ClauseFree words s) :=
  decidable_of_iff _ clauseFree_iff.symm

theorem ClauseFree.tail (h : ClauseFree words (c :: s)) : ClauseFree words s := by
  rintro front d rest rfl
  exact h (c :: front) d rest rfl

/-- After white space, and after all the white space that follows it, none of the words stands. -/
theorem ClauseFree.after_space (h : ClauseFree words (c :: s)) (hc : isSpace c) :
    startsWithKeyword words (trimStart s) = false := by
  induction s generalizing c with
  | nil => exact h [] c [] rfl hc
  | cons d s ih =>
    cases hd : isSpace d with
    | true =>
      rw [show trimStart (d :: s) = trimStart s from List.dropWhile_cons_of_pos hd]
      exact ih h.tail hd
    | false =>
      rw [trimStart_eq_self (by simpa using hd)]
      exact h [] c (d :: s) rfl hc

theorem cutFrom_eq_self (h : ClauseFree words s) (inSpace : Bool) : cutFrom words inSpace s = s := by
  induction s generalizing inSpace with
  | nil => rfl
  | cons c s ih =>
    rw [cutFrom, ih h.tail, if_neg]
    simp only [Bool.and_eq_true]
    rintro ⟨⟨-, hc⟩, hword⟩
    cases hword.symm.trans (h.after_space hc)

/-- A text in which none of the words stands after white space is kept as it is. -/
theorem cutBefore_eq_self (h : ClauseFree words s) : cutBefore words s = s := cutFrom_eq_self h false

/-- A text is cut before white space. -/
theorem cutFrom_cases (words : List String) (inSpace : Bool) (s : Text) :
    cutFrom words inSpace s = s ∨
      ∃ c rest, s = cutFrom words inSpace s ++ c :: rest ∧ isSpace c := by
  induction s generalizing inSpace with
  | nil => exact .inl rfl
  | cons c s ih =>
    rw [cutFrom]
    split
    · next hcut =>
      rw [Bool.and_eq_true, Bool.and_eq_true] at hcut
      exact .inr ⟨c, s, rfl, hcut.1.2⟩
    · obtain hkept | ⟨d, rest, hsplit, hd⟩ := ih (isSpace c)
      · exact .inl (congrArg _ hkept)
      · exact .inr ⟨d, rest, congrArg _ hsplit, hd⟩

theorem clauseFree_of_cutFrom (hwords : Lettered words) {inSpace : Bool}
    (h : cutFrom words inSpace s = s)
    (hbefore : inSpace = true → startsWithKeyword words (trimStart s) = false) :
    ClauseFree words s := by
  induction s generalizing inSpace with
  | nil =>
    intro front c rest hnil
    simp at hnil
  | cons c s ih =>
    rw [cutFrom] at h
    split at h
    · cases h
    · next hkept =>
      have hafter : isSpace c = true → startsWithKeyword words (trimStart s) = false := by
        intro hc
        cases inSpace with
        | true =>
          rw [← hbefore rfl, show trimStart (c :: s) = trimStart s from List.dropWhile_cons_of_pos hc]
        | false => simpa [hc] using hkept
      have hs := ih (List.cons.inj h).2 hafter
      intro front d rest hsplit hd
      cases front with
      | nil =>
        obtain ⟨rfl, rfl⟩ := List.cons.inj hsplit
        -- the words are looked for after the last of several white spaces
        by_cases hspace : ∀ e ∈ s.head?, isSpace e
        · exact not_startsWithKeyword_of_isSpace hwords hspace
        · have hseen : trimStart s = s := by
            apply trimStart_eq_self
            cases s with
            | nil => simp
            | cons e s => simpa using hspace
          rw [← hafter hd, hseen]
      | cons e front => exact hs front d rest (List.cons.inj hsplit).2 hd

theorem clauseFree_iff_cutBefore (hwords : Lettered words) :
    ClauseFree words s ↔ cutBefore words s = s :=
  ⟨cutBefore_eq_self, fun h ↦ clauseFree_of_cutFrom hwords h (by simp)⟩

/-- A sign divides a text into parts that are looked through one by one. -/
theorem clauseFree_append_cons (hword : isWordChar c = false) (hspace : isSpace c = false) (t : Text) :
    ClauseFree words (s ++ c :: t) ↔ ClauseFree words s ∧ ClauseFree words t := by
  constructor
  · intro h
    refine ⟨?_, ?_⟩
    · rintro front d rest rfl hd
      have hrest := h front d (rest ++ c :: t) (by simp) hd
      rwa [startsWithKeyword, leadingWord_append_cons rest hword] at hrest
    · rintro front d rest rfl hd
      exact h (s ++ c :: front) d rest (by simp) hd
  · rintro ⟨hs, ht⟩ front d rest hsplit hd
    obtain ⟨more, hfront, hmore⟩ | ⟨more, hs', hmore⟩ := List.append_eq_append_iff.1 hsplit
    · cases more with
      | nil =>
        obtain ⟨rfl, -⟩ := List.cons.inj hmore
        cases hd.symm.trans hspace
      | cons e more => exact ht more d rest (List.cons.inj hmore).2 hd
    · cases more with
      | nil =>
        obtain ⟨rfl, -⟩ := List.cons.inj hmore
        cases hd.symm.trans hspace
      | cons e more =>
        obtain ⟨rfl, rfl⟩ := List.cons.inj hmore
        change startsWithKeyword words (more ++ c :: t) = false
        rw [startsWithKeyword, leadingWord_append_cons more hword]
        exact hs front d more hs' hd

theorem ClauseFree.of_seen (h : ∀ c ∈ s, isSpace c = false) : ClauseFree words s := by
  rintro front c rest rfl hc
  cases hc.symm.trans (h c (by simp))

end

end Line

end VbOutline
