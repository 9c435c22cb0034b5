import VbOutline.Line.Comment
import VbOutline.Proofs.Line.Scanning
import VbOutline.Proofs.Text.Boundaries

/-!
# Comments and literals

Whether a literal is open at a place of a line depends on the number of quotes before it. A comment
begins at the first apostrophe where none is open, and what comes before it has no comment of its own.
In the masked code blanks stand for the bytes inside literals, while all other bytes and all quotes
stay where they are. So the masked code has its literals where the code has them, and what is found
in it outside literals stands in the code at the same offset.
-/

namespace VbOutline.Line

open Text

/-- A literal is open after the text, which has an odd number of quotes. -/
def LeavesOpen (s : Text) : Prop := s.count '"' % 2 = 1

instance (s : Text) : Decidable (LeavesOpen s) :=
  inferInstanceAs (Decidable (s.count '"' % 2 = 1))

/-- The byte at an offset belongs to a character, other than a quote, before which a literal is
open. -/
def InLiteral (code : Text) (offset : Nat) : Prop :=
  ∃ front c back, code = front ++ c :: back ∧ LeavesOpen front ∧ c ≠ '"' ∧
    byteSize front ≤ offset ∧ offset < byteSize front + c.utf8Size

/-- A quote opens or closes a literal. -/
theorem decide_leavesOpen_cons (c : Char) (s : Text) :
    decide (LeavesOpen (c :: s)) = ((c == '"') != decide (LeavesOpen s)) := by
  by_cases hc : c = '"'
  · have hopen : LeavesOpen (c :: s) ↔ ¬ LeavesOpen s := by
      rw [LeavesOpen, LeavesOpen, hc, List.count_cons_self]
      omega
    simp only [hopen, beq_iff_eq.2 hc, decide_not, Bool.true_bne]
  · have hopen : LeavesOpen (c :: s) ↔ LeavesOpen s := by
      rw [LeavesOpen, LeavesOpen, List.count_cons_of_ne hc]
    simp only [hopen, beq_eq_false_iff_ne.2 hc, Bool.false_bne]

theorem foldl_quoteStep (quoted : Bool) (s : Text) :
    s.foldl quoteStep quoted = (quoted != decide (LeavesOpen s)) := by
  induction s generalizing quoted with
  | nil => simp [LeavesOpen]
  | cons c s ih => rw [List.foldl_cons, ih, quoteStep, decide_leavesOpen_cons, Bool.bne_assoc]

/-- A character comes inside a literal if the text before it leaves one open. -/
theorem withQuotes_append_cons (front : Text) (c : Char) (back : Text) :
    withQuotes (front ++ c :: back) = withQuotes front ++
      (decide (LeavesOpen front), c) :: states quoteStep (quoteStep (decide (LeavesOpen front)) c) back := by
  rw [withQuotes, states_append, foldl_quoteStep, Bool.false_bne, states_cons, withQuotes]

theorem withQuotes_stripComment (line : Text) :
    withQuotes (stripComment line) = (withQuotes line).takeWhile fun p ↦ !beginsComment p :=
  states_takeWhile _ _ _ _

theorem stripComment_stripComment (line : Text) :
    stripComment (stripComment line) = stripComment line := by
  rw [stripComment, withQuotes_stripComment, List.takeWhile_idem, stripComment]

/-- Every apostrophe of the code of a line is inside a literal. -/
theorem leavesOpen_of_stripComment {line front back : Text}
    (h : stripComment line = front ++ '\'' :: back) : LeavesOpen front := by
  have hmem : (decide (LeavesOpen front), '\'') ∈ withQuotes (stripComment line) := by
    rw [h, withQuotes_append_cons]
    exact List.mem_append_right _ List.mem_cons_self
  rw [withQuotes_stripComment] at hmem
  have hkept := List.mem_takeWhile_imp hmem
  simpa [beginsComment] using hkept

theorem stripComment_of_comment?_eq_none {line : Text} (h : comment? line = none) :
    stripComment line = line := by
  unfold comment? at h
  split at h
  · next hnil =>
    have hall := List.takeWhile_append_dropWhile (l := withQuotes line) (p := fun p ↦ !beginsComment p)
    rw [hnil, List.append_nil] at hall
    rw [stripComment, hall, withQuotes, map_snd_states]
  · cases h

theorem comment?_eq_some {line comment : Text} (h : comment? line = some comment) :
    line = stripComment line ++ '\'' :: comment := by
  unfold comment? at h
  split at h
  · cases h
  · next p rest hrest =>
    have hhead := List.head?_dropWhile_not (fun p ↦ !beginsComment p) (withQuotes line)
    rw [hrest, List.head?_cons] at hhead
    have hquote : p.2 = '\'' := by simp_all [beginsComment]
    obtain rfl := Option.some.inj h
    calc
      line = (withQuotes line).map Prod.snd := (map_snd_states quoteStep false line).symm
      _ = stripComment line ++ (p :: rest).map Prod.snd := by
        rw [stripComment, ← hrest, ← List.map_append, List.takeWhile_append_dropWhile]
      _ = _ := by rw [List.map_cons, hquote]

/-- A comment begins where no literal is open. -/
theorem not_leavesOpen_of_comment? {line comment : Text} (h : comment? line = some comment) :
    ¬ LeavesOpen (stripComment line) := by
  intro hopen
  have hcode := withQuotes_stripComment line
  have hkept : ∀ p ∈ withQuotes (stripComment line), (!beginsComment p) = true := by
    intro p hp
    rw [hcode] at hp
    exact List.mem_takeWhile_imp (p := fun p ↦ !beginsComment p) hp
  -- an apostrophe inside a literal would belong to the code
  rw [comment?_eq_some h, withQuotes_append_cons, ← comment?_eq_some h,
    List.takeWhile_append_of_pos hkept, List.takeWhile_cons_of_pos (by simp [beginsComment, hopen])] at hcode
  simp at hcode

/-! ## Masked code -/

/-- What stands in the masked code for a character. -/
def masked (p : Bool × Char) : Text :=
  if p.1 && p.2 != '"' then List.replicate p.2.utf8Size ' ' else [p.2]

theorem maskStrings_eq_flatMap (code : Text) :
    maskStrings code = (withQuotes code).flatMap masked :=
  rfl

theorem masked_of_kept {front : Text} {c : Char} (h : c = '"' ∨ ¬ LeavesOpen front) :
    masked (decide (LeavesOpen front), c) = [c] := by
  rw [masked, if_neg]
  intro hinside
  rw [Bool.and_eq_true, decide_eq_true_eq, bne_iff_ne] at hinside
  exact h.elim hinside.2 (absurd hinside.1)

theorem masked_of_inside {front : Text} {c : Char} (hopen : LeavesOpen front) (hc : c ≠ '"') :
    masked (decide (LeavesOpen front), c) = List.replicate c.utf8Size ' ' := by
  rw [masked, if_pos]
  simp [hopen, hc]

theorem toBytes_blanks (n : Nat) : toBytes (List.replicate n ' ') = List.replicate n 0x20 := by
  induction n with
  | zero => rfl
  | succ n ih => rw [List.replicate_succ, toBytes_cons, ih]; rfl

theorem byteSize_blanks (n : Nat) : byteSize (List.replicate n ' ') = n := by
  rw [← length_toBytes, toBytes_blanks, List.length_replicate]

theorem byteSize_masked (p : Bool × Char) : byteSize (masked p) = p.2.utf8Size := by
  rw [masked]
  split
  · exact byteSize_blanks _
  · simp

theorem count_masked (p : Bool × Char) : (masked p).count '"' = [p.2].count '"' := by
  rw [masked]
  split
  · next hinside =>
    simp only [Bool.and_eq_true, bne_iff_ne] at hinside
    rw [List.count_replicate, List.count_singleton]
    simp [hinside.2]
  · rfl

theorem byteSize_maskStrings (code : Text) : byteSize (maskStrings code) = byteSize code := by
  have hall (ps : List (Bool × Char)) : byteSize (ps.flatMap masked) = byteSize (ps.map Prod.snd) := by
    induction ps with
    | nil => rfl
    | cons p ps ih =>
      rw [List.flatMap_cons, byteSize_append, byteSize_masked, ih, List.map_cons, byteSize_cons]
  rw [maskStrings_eq_flatMap, hall, withQuotes, map_snd_states]

/-- Masking keeps all quotes and adds none. -/
theorem leavesOpen_maskStrings (code : Text) : LeavesOpen (maskStrings code) ↔ LeavesOpen code := by
  have hall (ps : List (Bool × Char)) : (ps.flatMap masked).count '"' = (ps.map Prod.snd).count '"' := by
    induction ps with
    | nil => rfl
    | cons p ps ih =>
      rw [List.flatMap_cons, List.count_append, count_masked, ih, ← List.count_append]
      rfl
  rw [LeavesOpen, maskStrings_eq_flatMap, hall, withQuotes, map_snd_states, LeavesOpen]

/-- A character is masked where it stands. -/
theorem exists_maskStrings_append_cons (front : Text) (c : Char) (back : Text) :
    ∃ rest, maskStrings (front ++ c :: back) =
      maskStrings front ++ (masked (decide (LeavesOpen front), c) ++ rest) := by
  rw [maskStrings_eq_flatMap, withQuotes_append_cons, List.flatMap_append, List.flatMap_cons]
  exact ⟨_, rfl⟩

/-- Quotes, and characters before which no literal is open, stay where they are. -/
theorem exists_maskStrings_of_kept {front : Text} {c : Char} (h : c = '"' ∨ ¬ LeavesOpen front)
    (back : Text) : ∃ rest, maskStrings (front ++ c :: back) = maskStrings front ++ c :: rest := by
  obtain ⟨rest, hmask⟩ := exists_maskStrings_append_cons front c back
  rw [masked_of_kept h] at hmask
  exact ⟨rest, hmask⟩

section

variable {code : Text} {offset : Nat}

theorem InLiteral.getElem?_maskStrings (h : InLiteral code offset) :
    (toBytes (maskStrings code))[offset]? = some 0x20 := by
  obtain ⟨front, c, back, rfl, hopen, hc, hle, hlt⟩ := h
  obtain ⟨rest, hmask⟩ := exists_maskStrings_append_cons front c back
  have hfront : (toBytes (maskStrings front)).length = byteSize front := by
    rw [length_toBytes, byteSize_maskStrings]
  rw [hmask, masked_of_inside hopen hc, toBytes_append, toBytes_append, toBytes_blanks,
    List.getElem?_append_right (by omega), hfront,
    List.getElem?_append_left (by rw [List.length_replicate]; omega), List.getElem?_replicate,
    if_pos (by omega)]

/-- At an offset outside literals no more characters stand, or one that masking keeps. -/
theorem exists_kept_of_not_inLiteral (h : ¬ InLiteral code offset) :
    byteSize code ≤ offset ∨ ∃ front c back, code = front ++ c :: back ∧
      (c = '"' ∨ ¬ LeavesOpen front) ∧ ∃ k, k < c.utf8Size ∧ offset = byteSize front + k := by
  obtain ⟨front, after, rfl, hle, hnext⟩ := exists_split_by code offset
  cases after with
  | nil =>
    rw [List.append_nil]
    exact .inl hle
  | cons c back =>
    have hlt := hnext c rfl
    refine .inr ⟨front, c, back, rfl, ?_, offset - byteSize front, by omega, by omega⟩
    by_contra hinside
    rw [not_or, not_not] at hinside
    exact h ⟨front, c, back, rfl, hinside.2, hinside.1, hle, hlt⟩

theorem getElem?_maskStrings_of_not_inLiteral (h : ¬ InLiteral code offset) :
    (toBytes (maskStrings code))[offset]? = (toBytes code)[offset]? := by
  obtain hend | ⟨front, c, back, rfl, hkept, k, hk, rfl⟩ := exists_kept_of_not_inLiteral h
  · rw [List.getElem?_eq_none, List.getElem?_eq_none]
    · rwa [length_toBytes]
    · rwa [length_toBytes, byteSize_maskStrings]
  · obtain ⟨rest, hmask⟩ := exists_maskStrings_of_kept hkept back
    rw [hmask, getElem?_toBytes_append_cons front c back hk, ← byteSize_maskStrings front,
      getElem?_toBytes_append_cons (maskStrings front) c rest hk]

theorem inLiteral_of_maskStrings (h : InLiteral (maskStrings code) offset) : InLiteral code offset := by
  obtain ⟨front', d, back', hsplit, hopen, hd, hle, hlt⟩ := h
  by_contra hout
  obtain hend | ⟨front, c, back, rfl, hkept, k, hk, rfl⟩ := exists_kept_of_not_inLiteral hout
  · have hsize := congrArg byteSize hsplit
    rw [byteSize_maskStrings, byteSize_append, byteSize_cons] at hsize
    omega
  · -- the same character stands there in the masked code, with as many quotes before it
    obtain ⟨rest, hmask⟩ := exists_maskStrings_of_kept hkept back
    have hfront := byteSize_maskStrings front
    obtain ⟨rfl, rfl⟩ := split_unique (hmask.symm.trans hsplit) (by omega) (by omega) hle hlt
    rw [leavesOpen_maskStrings] at hopen
    exact hkept.elim hd (absurd hopen)

theorem inLiteral_maskStrings (h : InLiteral code offset) : InLiteral (maskStrings code) offset := by
  obtain ⟨front, c, back, rfl, hopen, hc, hle, hlt⟩ := h
  -- the offset is that of one of the blanks for the character
  obtain ⟨k, rfl⟩ := Nat.exists_eq_add_of_le hle
  obtain ⟨n, hn⟩ : ∃ n, c.utf8Size = k + (n + 1) := ⟨c.utf8Size - k - 1, by omega⟩
  obtain ⟨rest, hmask⟩ := exists_maskStrings_append_cons front c back
  rw [masked_of_inside hopen hc, hn, List.replicate_add, List.replicate_succ] at hmask
  have hsize : byteSize (maskStrings front ++ List.replicate k ' ') = byteSize front + k := by
    rw [byteSize_append, byteSize_maskStrings, byteSize_blanks]
  have hblanks : LeavesOpen (maskStrings front ++ List.replicate k ' ') := by
    have hquotes : (List.replicate k ' ').count '"' = 0 := by
      rw [List.count_replicate, if_neg (by decide)]
    rw [LeavesOpen, List.count_append, hquotes]
    exact (leavesOpen_maskStrings front).2 hopen
  refine ⟨maskStrings front ++ List.replicate k ' ', ' ', List.replicate n ' ' ++ rest, ?_, hblanks,
    by decide, hsize.le, ?_⟩
  · rw [hmask]
    simp only [List.append_assoc, List.cons_append]
  · rw [hsize]
    exact Nat.lt_add_of_pos_right (Char.utf8Size_pos ' ')

/-- The masked code has its literals where the code has them. -/
theorem inLiteral_maskStrings_iff : InLiteral (maskStrings code) offset ↔ InLiteral code offset :=
  ⟨inLiteral_of_maskStrings, inLiteral_maskStrings⟩

theorem maskStrings_maskStrings (code : Text) : maskStrings (maskStrings code) = maskStrings code := by
  apply toBytes_injective
  apply List.ext_getElem?
  intro i
  by_cases hi : InLiteral code i
  · rw [hi.getElem?_maskStrings, (inLiteral_maskStrings_iff.2 hi).getElem?_maskStrings]
  · exact getElem?_maskStrings_of_not_inLiteral fun h ↦ hi (inLiteral_maskStrings_iff.1 h)

/-- What has no byte inside a literal stands in the masked code where it stands in the code. -/
theorem standsAt_maskStrings_iff {part : Text} (hstart : ¬ InLiteral code offset)
    (hpart : ∀ k < byteSize part, ¬ InLiteral code (offset + k)) :
    StandsAt (maskStrings code) offset part ↔ StandsAt code offset part := by
  have hbytes : ((toBytes (maskStrings code)).drop offset).take (toBytes part).length =
      ((toBytes code).drop offset).take (toBytes part).length := by
    apply List.ext_getElem?
    intro k
    rw [List.getElem?_take, List.getElem?_take]
    split
    · next hk =>
      rw [length_toBytes] at hk
      rw [List.getElem?_drop, List.getElem?_drop, getElem?_maskStrings_of_not_inLiteral (hpart k hk)]
    · rfl
  rw [standsAt_iff, standsAt_iff, isBoundary_iff, isBoundary_iff, byteSize_maskStrings,
    getElem?_maskStrings_of_not_inLiteral hstart, List.prefix_iff_eq_take, List.prefix_iff_eq_take, hbytes]

/-- A text without blanks that is found in the masked code stands in the code at the same offset. -/
theorem standsAt_of_maskStrings {part : Text} (h : StandsAt (maskStrings code) offset part)
    (hne : part ≠ []) (hblank : ' ' ∉ part) : StandsAt code offset part := by
  have hout : ∀ k < byteSize part, ¬ InLiteral code (offset + k) := by
    intro k hk hin
    rw [← length_toBytes] at hk
    obtain ⟨more, hmore⟩ := (standsAt_iff.1 h).2
    have hbyte := hin.getElem?_maskStrings
    rw [← List.getElem?_drop, ← hmore, List.getElem?_append_left hk] at hbyte
    exact hblank (mem_of_mem_toBytes (c := ' ') (by decide) (List.mem_of_getElem? hbyte))
  exact (standsAt_maskStrings_iff (hout 0 (byteSize_pos hne)) hout).1 h

end

/-! ## Lines and their code -/

/-- A line is its code alone, or its code and a comment behind an apostrophe. That apostrophe is outside
literals and those in the code are inside, so that the code has no comment. In the masked code blanks
stand for the bytes inside literals, and quotes and what is outside literals stand where they do in the
code. So it has the same literals, it is its own masked form, and a text that is found in it with no byte
inside a literal stands there in the code, as every text without blanks does. -/
theorem comments_stripped_and_literals_masked :
    (∀ line,
      stripComment line <+: line ∧
      (∀ front back, stripComment line = front ++ '\'' :: back → LeavesOpen front) ∧
      (comment? line = none ∧ line = stripComment line ∨
        ∃ comment, comment? line = some comment ∧ line = stripComment line ++ '\'' :: comment ∧
          ¬ LeavesOpen (stripComment line)) ∧
      stripComment (stripComment line) = stripComment line) ∧
    ∀ code,
      byteSize (maskStrings code) = byteSize code ∧
      (∀ front c back, code = front ++ c :: back → c = '"' ∨ ¬ LeavesOpen front →
        StandsAt (maskStrings code) (byteSize front) [c]) ∧
      (∀ offset, InLiteral code offset → (toBytes (maskStrings code))[offset]? = some ' '.toUInt8) ∧
      maskStrings (maskStrings code) = maskStrings code ∧
      (∀ offset, InLiteral (maskStrings code) offset ↔ InLiteral code offset) ∧
      (∀ offset part, ¬ InLiteral code offset →
        (∀ k < byteSize part, ¬ InLiteral code (offset + k)) →
          (StandsAt (maskStrings code) offset part ↔ StandsAt code offset part)) ∧
      ∀ offset part, StandsAt (maskStrings code) offset part → part ≠ [] → ' ' ∉ part →
        StandsAt code offset part := by
  refine ⟨fun line ↦ ⟨stripComment_isPrefix line, fun front back ↦ leavesOpen_of_stripComment, ?_,
    stripComment_stripComment line⟩, fun code ↦ ⟨byteSize_maskStrings code, ?_,
    fun offset ↦ InLiteral.getElem?_maskStrings, maskStrings_maskStrings code,
    fun offset ↦ inLiteral_maskStrings_iff, fun offset part ↦ standsAt_maskStrings_iff,
    fun offset part ↦ standsAt_of_maskStrings⟩⟩
  · cases hcomment : comment? line with
    | none => exact .inl ⟨rfl, (stripComment_of_comment?_eq_none hcomment).symm⟩
    | some comment =>
      exact .inr ⟨comment, rfl, comment?_eq_some hcomment, not_leavesOpen_of_comment? hcomment⟩
  · rintro front c back rfl hkept
    obtain ⟨rest, hmask⟩ := exists_maskStrings_of_kept hkept back
    exact ⟨maskStrings front, rest, by simp [hmask], byteSize_maskStrings front⟩

/-- An apostrophe in a literal begins no comment, one behind it does. The last literal is not closed. -/
theorem comments_stripped_and_literals_masked_openLiteral :
    let line := "a(\"it's\") 'b".toList
    let code := "x\"é 1\"2+\"3".toList
    stripComment line = "a(\"it".toList ++ '\'' :: "s\") ".toList ∧ LeavesOpen "a(\"it".toList ∧
      comment? line = some "b".toList ∧
      maskStrings code = "x\"    \"2+\" ".toList ∧
      StandsAt (maskStrings code) 6 ['"'] ∧
      InLiteral code 3 ∧ (toBytes (maskStrings code))[3]? = some 0x20 ∧
      (∀ k < 3, ¬ InLiteral code (6 + k)) ∧ StandsAt code 6 "\"2+".toList ∧
      StandsAt code 7 "2+".toList := by
  intro line code
  have hline := comments_stripped_and_literals_masked.1 line
  obtain ⟨-, hkept, hblank, -, -, hfound, hwhole⟩ := comments_stripped_and_literals_masked.2 code
  have hstrip : stripComment line = "a(\"it".toList ++ '\'' :: "s\") ".toList := by decide
  have hmask : maskStrings code = "x\"    \"2+\" ".toList := by decide
  have hinside : InLiteral code 3 :=
    ⟨"x\"".toList, 'é', " 1\"2+\"3".toList, rfl, by decide, by decide, by decide, by decide⟩
  have houtside : ∀ k < 3, ¬ InLiteral code (6 + k) := by
    have hbytes : ∀ k < 3, (toBytes (maskStrings code))[6 + k]? ≠ some 0x20 := by decide
    exact fun k hk hin ↦ hbytes k hk (hblank (6 + k) hin)
  have hquoted : StandsAt (maskStrings code) 6 "\"2+".toList :=
    ⟨"x\"    ".toList, "\" ".toList, hmask, by decide⟩
  have hsum : StandsAt (maskStrings code) 7 "2+".toList :=
    ⟨"x\"    \"".toList, "\" ".toList, hmask, by decide⟩
  exact ⟨hstrip, hline.2.1 _ _ hstrip, by decide, hmask,
    hkept "x\"é 1".toList '"' "2+\"3".toList rfl (.inl rfl), hinside, hblank 3 hinside, houtside,
    (hfound 6 "\"2+".toList (houtside 0 (by decide)) houtside).1 hquoted,
    hwhole 7 _ hsum (by decide) (by decide)⟩

end VbOutline.Line
