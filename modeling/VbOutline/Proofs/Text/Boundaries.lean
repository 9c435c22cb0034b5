import Mathlib.Order.Bounds.Basic
import VbOutline.Proofs.Text.Placement
import VbOutline.Proofs.Text.Utf8

/-!
# Boundaries of characters

A boundary is a byte offset between two characters, or at one of the ends of a text. Other offsets lie
inside a character. The bytes of a text show which is which: the first byte of a character is never one
that continues a character, and all others are. So a part stands where a boundary is and its bytes
follow.
-/

namespace VbOutline.Text

/-- The byte offset lies between two characters, or at one of the ends of the text. -/
def IsBoundary (s : Text) (offset : Nat) : Prop :=
  ∃ before, before <+: s ∧ byteSize before = offset

/-- Of two beginnings of a text the one with fewer bytes is the beginning of the other one. -/
theorem isPrefix_of_byteSize_le {s t whole : Text} (hs : s <+: whole) (ht : t <+: whole)
    (h : byteSize s ≤ byteSize t) : s <+: t := by
  obtain hst | ⟨more, rfl⟩ := List.prefix_or_prefix_of_prefix hs ht
  · exact hst
  · have hmore : more = [] := by
      by_contra hne
      have hpos := byteSize_pos hne
      rw [byteSize_append] at h
      omega
    rw [hmore, List.append_nil]

theorem eq_of_byteSize_eq {s t whole : Text} (hs : s <+: whole) (ht : t <+: whole)
    (h : byteSize s = byteSize t) : s = t :=
  (isPrefix_of_byteSize_le hs ht h.le).eq_of_length_le
    (isPrefix_of_byteSize_le ht hs h.ge).length_le

/-- The boundaries within a part are those of the part. -/
theorem isBoundary_append_iff {before part after : Text} {offset : Nat}
    (h : offset ≤ byteSize part) : IsBoundary (before ++ part ++ after) (byteSize before + offset) ↔ IsBoundary part offset := by
  rw [List.append_assoc]
  constructor
  · rintro ⟨front, hfront, hsize⟩
    obtain ⟨left, rfl⟩ := isPrefix_of_byteSize_le (List.prefix_append before _) hfront (by omega)
    rw [List.prefix_append_right_inj] at hfront
    rw [byteSize_append, Nat.add_left_cancel_iff] at hsize
    exact ⟨left, isPrefix_of_byteSize_le hfront (List.prefix_append part after) (by omega), hsize⟩
  · rintro ⟨left, hleft, rfl⟩
    refine ⟨before ++ left, ?_, byteSize_append before left⟩
    exact (List.prefix_append_right_inj before).2 (hleft.trans (List.prefix_append part after))

theorem columnFrom_of_not_isBoundary (seen : Nat) {s : Text} {offset : Nat}
    (hle : offset ≤ byteSize s) (h : ¬ IsBoundary s offset) : columnFrom seen offset s = 0 := by
  induction s generalizing seen offset with
  | nil => exact absurd ⟨[], List.nil_prefix, (Nat.le_zero.1 hle).symm⟩ h
  | cons c s ih =>
    rw [byteSize_cons] at hle
    rw [columnFrom]
    split
    · next hzero => exact absurd ⟨[], List.nil_prefix, (beq_iff_eq.1 hzero).symm⟩ h
    · split
      · next hc =>
        apply ih _ (by omega)
        rintro ⟨before, hbefore, hsize⟩
        refine h ⟨c :: before, List.cons_prefix_cons.2 ⟨rfl, hbefore⟩, ?_⟩
        rw [byteSize_cons]
        omega
      · rfl

/-- The characters that end at an offset or before it, and the ones that do not. -/
theorem exists_split_by (s : Text) (offset : Nat) :
    ∃ before after, s = before ++ after ∧ byteSize before ≤ offset ∧
      ∀ c ∈ after.head?, offset < byteSize before + c.utf8Size := by
  induction s generalizing offset with
  | nil => exact ⟨[], [], rfl, Nat.zero_le offset, by simp⟩
  | cons c s ih =>
    by_cases hc : c.utf8Size ≤ offset
    · obtain ⟨before, after, rfl, hle, hnext⟩ := ih (offset - c.utf8Size)
      refine ⟨c :: before, after, rfl, ?_, ?_⟩
      · rw [byteSize_cons]
        omega
      · intro d hd
        have hlt := hnext d hd
        rw [byteSize_cons]
        omega
    · exact ⟨[], c :: s, rfl, Nat.zero_le offset, by simpa using hc⟩

/-- What has ended at an offset ends at the last boundary up to the offset. -/
theorem isGreatest_boundary {before after : Text} {offset : Nat} (hle : byteSize before ≤ offset)
    (hnext : ∀ c ∈ after.head?, offset < byteSize before + c.utf8Size) :
    IsGreatest {b | IsBoundary (before ++ after) b ∧ b ≤ min offset (byteSize (before ++ after))}
      (byteSize before) := by
  have hbefore : before <+: before ++ after := List.prefix_append before after
  constructor
  · refine ⟨⟨before, hbefore, rfl⟩, ?_⟩
    exact Nat.le_min.2 ⟨hle, byteSize_le_of_isPrefix hbefore⟩
  · rintro _ ⟨⟨part, hpart, rfl⟩, hmin⟩
    by_contra hlonger
    obtain ⟨more, rfl⟩ := isPrefix_of_byteSize_le hbefore hpart (by omega)
    rw [List.prefix_append_right_inj] at hpart
    cases more with
    | nil => simp at hlonger
    | cons c more =>
      obtain ⟨rest, rfl⟩ := hpart
      have hlt := hnext c rfl
      rw [byteSize_append, byteSize_cons] at hmin
      omega

/-- At an offset only one character stands. -/
theorem split_unique {front front' back back' : Text} {c d : Char} {offset : Nat}
    (h : front ++ c :: back = front' ++ d :: back') (hle : byteSize front ≤ offset)
    (hlt : offset < byteSize front + c.utf8Size) (hle' : byteSize front' ≤ offset)
    (hlt' : offset < byteSize front' + d.utf8Size) : front = front' ∧ c = d := by
  have hnext : ∀ e ∈ (c :: back).head?, offset < byteSize front + e.utf8Size := by simpa using hlt
  have hnext' : ∀ e ∈ (d :: back').head?, offset < byteSize front' + e.utf8Size := by simpa using hlt'
  have hlast := isGreatest_boundary hle hnext
  rw [h] at hlast
  have hsize := hlast.unique (isGreatest_boundary hle' hnext')
  have hprefix : front <+: front' ++ d :: back' := h ▸ List.prefix_append front (c :: back)
  have hprefix' : front' <+: front' ++ d :: back' := List.prefix_append front' (d :: back')
  have hfront : front = front' :=
    (isPrefix_of_byteSize_le hprefix hprefix' hsize.le).eq_of_length_le
      (isPrefix_of_byteSize_le hprefix' hprefix hsize.ge).length_le
  rw [hfront] at h
  exact ⟨hfront, (List.cons.inj (List.append_cancel_left h)).1⟩

/-! ## Bytes -/

theorem length_toBytes (s : Text) : (toBytes s).length = byteSize s := by
  induction s with
  | nil => rfl
  | cons c s ih =>
    rw [toBytes, List.flatMap_cons, List.length_append, String.length_utf8EncodeChar, byteSize_cons]
    rw [toBytes] at ih
    rw [ih]

theorem toBytes_cons (c : Char) (s : Text) : toBytes (c :: s) = String.utf8EncodeChar c ++ toBytes s :=
  rfl

theorem toBytes_injective : Function.Injective toBytes := by
  intro s t h
  rw [← ofBytesLossy_toBytes s, h, ofBytesLossy_toBytes]

theorem ofBytesLossy_toBytes_append (s : Text) (rest : List UInt8) :
    ofBytesLossy (toBytes s ++ rest) = s ++ ofBytesLossy rest := by
  induction s with
  | nil => rfl
  | cons c s ih =>
    rw [toBytes_cons, List.append_assoc, ofBytesLossy, decodeFrom_utf8EncodeChar]
    exact congrArg _ ih

theorem toBytes_isPrefix_iff {s t : Text} : toBytes s <+: toBytes t ↔ s <+: t := by
  constructor
  · rintro ⟨rest, hrest⟩
    refine ⟨ofBytesLossy rest, ?_⟩
    rw [← ofBytesLossy_toBytes_append, hrest, ofBytesLossy_toBytes]
  · rintro ⟨more, rfl⟩
    exact ⟨toBytes more, (toBytes_append s more).symm⟩

/-- A leading byte continues no character, and it asks for bytes that do. -/
theorem not_isContinuation_of_followers? {b low high : UInt8} {n : Nat}
    (h : followers? b = some (n, low, high)) :
    isContinuation b = false ∧ 0x80 ≤ low ∧ high ≤ 0xBF := by
  have hall : ∀ n < 256, ∀ f ∈ followers? (UInt8.ofNat n),
      isContinuation (UInt8.ofNat n) = false ∧ 0x80 ≤ f.2.1 ∧ f.2.2 ≤ 0xBF := by
    decide +kernel
  have hb := hall b.toNat b.toNat_lt
  rw [UInt8.ofNat_toNat] at hb
  exact hb _ h

theorem IsEncoded.only_others_continue {c : Char} {lead : UInt8} {others : List UInt8}
    (h : IsEncoded c lead others) :
    isContinuation lead = false ∧ ∀ b ∈ others, isContinuation b := by
  obtain ⟨low, high, hfollowers, hfirst⟩ := h.announced
  obtain ⟨hlead, hlow, hhigh⟩ := not_isContinuation_of_followers? hfollowers
  refine ⟨hlead, fun b hb ↦ ?_⟩
  have hbounds : 0x80 ≤ b ∧ b ≤ 0xBF := by
    cases others with
    | nil => cases hb
    | cons first more =>
      obtain rfl | hb := List.mem_cons.1 hb
      · obtain ⟨hfrom, hto⟩ := hfirst b rfl
        exact ⟨UInt8.le_trans hlow hfrom, UInt8.le_trans hto hhigh⟩
      · exact h.continued b hb
  simpa [isContinuation] using hbounds

/-- Of the bytes of a character exactly the ones behind the first one continue a character. -/
theorem isContinuation_utf8EncodeChar {c : Char} {i : Nat} {b : UInt8}
    (h : (String.utf8EncodeChar c)[i]? = some b) : isContinuation b ↔ 0 < i := by
  obtain ⟨lead, others, hc⟩ := exists_isEncoded c
  obtain ⟨hlead, hothers⟩ := hc.only_others_continue
  rw [hc.encoded] at h
  cases i with
  | zero =>
    obtain rfl : lead = b := by simpa using h
    simp [hlead]
  | succ i =>
    rw [List.getElem?_cons_succ] at h
    simp [hothers b (List.mem_of_getElem? h)]

/-- The byte of an ASCII character belongs to no other character. -/
theorem mem_of_mem_toBytes {c : Char} {s : Text} (hc : c.toNat ≤ 0x7F)
    (h : UInt8.ofNat c.toNat ∈ toBytes s) : c ∈ s := by
  obtain ⟨d, hd, hbyte⟩ := List.mem_flatMap.1 h
  have hlow : (UInt8.ofNat c.toNat).toNat < 128 := by
    rw [UInt8.toNat_ofNat']
    omega
  obtain ⟨lead, others, henc⟩ := exists_isEncoded d
  obtain ⟨-, hothers⟩ := henc.only_others_continue
  rw [henc.encoded] at hbyte
  obtain rfl | hmem := List.mem_cons.1 hbyte
  · obtain ⟨low, high, hfollowers, -⟩ := henc.announced
    rw [followers?, if_pos (UInt8.lt_iff_toNat_lt.2 hlow)] at hfollowers
    have hnil : others = [] :=
      List.eq_nil_of_length_eq_zero (Prod.mk.inj (Option.some.inj hfollowers)).1.symm
    have hsame : toBytes [d] = toBytes [c] := by
      rw [toBytes, toBytes, List.flatMap_singleton, List.flatMap_singleton, henc.encoded, hnil,
        (isEncoded_one hc).encoded]
    obtain rfl : d = c := by simpa using toBytes_injective hsame
    exact hd
  · have hbyte := hothers _ hmem
    simp only [isContinuation, Bool.and_eq_true, decide_eq_true_eq, UInt8.le_iff_toNat_le] at hbyte
    have hlarge : 128 ≤ (UInt8.ofNat c.toNat).toNat := hbyte.1
    omega

/-- Where a character begins, its bytes begin. -/
theorem getElem?_toBytes_append_cons (before : Text) (c : Char) (after : Text) {i : Nat}
    (hi : i < c.utf8Size) :
    (toBytes (before ++ c :: after))[byteSize before + i]? = (String.utf8EncodeChar c)[i]? := by
  rw [toBytes_append, ← length_toBytes, List.getElem?_append_right (Nat.le_add_right _ _),
    Nat.add_sub_cancel_left, toBytes_cons, List.getElem?_append_left]
  rwa [String.length_utf8EncodeChar]

/-- An offset in a text is a boundary if the byte there continues no character. -/
theorem isBoundary_iff {s : Text} {offset : Nat} :
    IsBoundary s offset ↔
      offset ≤ byteSize s ∧ ∀ b ∈ (toBytes s)[offset]?, isContinuation b = false := by
  constructor
  · rintro ⟨before, ⟨after, rfl⟩, rfl⟩
    refine ⟨byteSize_le_of_isPrefix (List.prefix_append before after), fun b hb ↦ ?_⟩
    cases after with
    | nil => simp [← length_toBytes] at hb
    | cons c after =>
      have hbyte := getElem?_toBytes_append_cons before c after c.utf8Size_pos
      rw [Nat.add_zero, hb] at hbyte
      have hfirst := isContinuation_utf8EncodeChar hbyte.symm
      simpa using hfirst
  · rintro ⟨hle, hbyte⟩
    obtain ⟨before, after, rfl, hbefore, hnext⟩ := exists_split_by s offset
    obtain rfl | hlt := Nat.eq_or_lt_of_le hbefore
    · exact ⟨before, List.prefix_append before after, rfl⟩
    -- the offset lies behind the first byte of a character
    obtain ⟨i, rfl⟩ := Nat.exists_eq_add_of_lt hlt
    cases after with
    | nil =>
      rw [List.append_nil] at hle
      omega
    | cons c after =>
      have hi : i + 1 < c.utf8Size := by
        have hc := hnext c rfl
        omega
      rw [Nat.add_assoc, getElem?_toBytes_append_cons before c after hi] at hbyte
      have hsome := List.getElem?_eq_getElem (l := String.utf8EncodeChar c) (i := i + 1)
        (by rwa [String.length_utf8EncodeChar])
      have hinside := (isContinuation_utf8EncodeChar hsome).2 (Nat.succ_pos i)
      rw [hbyte _ hsome] at hinside
      cases hinside

/-- A part stands where a boundary is and its bytes follow. -/
theorem standsAt_iff {whole part : Text} {offset : Nat} :
    StandsAt whole offset part ↔
      IsBoundary whole offset ∧ toBytes part <+: (toBytes whole).drop offset := by
  constructor
  · rintro ⟨before, after, rfl, rfl⟩
    rw [List.append_assoc, toBytes_append, ← length_toBytes, List.drop_left, toBytes_isPrefix_iff]
    refine ⟨⟨before, List.prefix_append _ _, (length_toBytes before).symm⟩, List.prefix_append _ _⟩
  · rintro ⟨⟨before, ⟨after, rfl⟩, rfl⟩, hprefix⟩
    rw [toBytes_append, ← length_toBytes, List.drop_left, toBytes_isPrefix_iff] at hprefix
    obtain ⟨rest, rfl⟩ := hprefix
    exact ⟨before, rest, (List.append_assoc before part rest).symm, rfl⟩

end VbOutline.Text
