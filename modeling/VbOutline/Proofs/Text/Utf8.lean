import Mathlib.Tactic.Common
import VbOutline.Text.Utf8

/-!
# Encoded texts are decoded

A character is encoded as a leading byte and the bytes that continue it. The leading byte announces
how many of them there are and in which range the first one lies. So the decoder takes exactly these
bytes, and puts the same character together from their bits.
-/

namespace VbOutline.Text

/-- The byte that carries the last six bits of a number. -/
def continuing (n : Nat) : UInt8 := UInt8.ofNat (n % 64 + 128)

theorem toNat_continuing (n : Nat) : (continuing n).toNat = n % 64 + 128 := by
  rw [continuing, UInt8.toNat_ofNat']
  omega

theorem le_continuing {low : UInt8} {n : Nat} (h : low.toNat ≤ n % 64 + 128) : low ≤ continuing n := by
  rwa [UInt8.le_iff_toNat_le, toNat_continuing]

theorem continuing_le {high : UInt8} {n : Nat} (h : n % 64 + 128 ≤ high.toNat) :
    continuing n ≤ high := by
  rwa [UInt8.le_iff_toNat_le, toNat_continuing]

/-- A byte that continues a character lies in the whole range of such bytes. -/
theorem continuing_bounds (n : Nat) : 0x80 ≤ continuing n ∧ continuing n ≤ 0xBF := by
  refine ⟨le_continuing ?_, continuing_le ?_⟩
  · change 128 ≤ _
    omega
  · change _ ≤ 191
    omega

/-- Bytes in the ranges that are asked for are all taken. -/
theorem following_append {low high : UInt8} {bytes : List UInt8}
    (hfirst : ∀ b ∈ bytes.head?, low ≤ b ∧ b ≤ high)
    (hothers : ∀ b ∈ bytes.tail, 0x80 ≤ b ∧ b ≤ 0xBF) (rest : List UInt8) :
    following bytes.length low high (bytes ++ rest) = bytes := by
  induction bytes generalizing low high with
  | nil => cases rest <;> rfl
  | cons b bytes ih =>
    obtain ⟨hlow, hhigh⟩ := hfirst b rfl
    have hnext : ∀ b ∈ bytes.head?, 0x80 ≤ b ∧ b ≤ 0xBF := fun b hb ↦
      hothers b (List.mem_of_mem_head? hb)
    have hmore : ∀ b ∈ bytes.tail, 0x80 ≤ b ∧ b ≤ 0xBF := fun b hb ↦
      hothers b (List.mem_of_mem_tail hb)
    simp [following, hlow, hhigh, ih hnext hmore]

theorem followers?_two :
    ∀ n < 32, 2 ≤ n → followers? (UInt8.ofNat (n + 192)) = some (1, 0x80, 0xBF) := by
  decide

/-- After the first of these leading bytes the shorter forms are left out, and after the one for
surrogates the surrogates. -/
theorem followers?_three : ∀ n < 16, followers? (UInt8.ofNat (n + 224)) =
    some (2, if n = 0 then 0xA0 else 0x80, if n = 13 then 0x9F else 0xBF) := by
  decide

/-- After the first of these leading bytes the shorter forms are left out, and after the last one what
is beyond the last code point. -/
theorem followers?_four : ∀ n < 5, followers? (UInt8.ofNat (n + 240)) =
    some (3, if n = 0 then 0x90 else 0x80, if n = 4 then 0x8F else 0xBF) := by
  decide

/-! ## Characters -/

/-- A character is encoded as a leading byte and others, which are as many and lie in such ranges as
the leading byte announces, and is decoded from their bits. -/
structure IsEncoded (c : Char) (lead : UInt8) (others : List UInt8) : Prop where
  encoded : String.utf8EncodeChar c = lead :: others
  announced : ∃ low high, followers? lead = some (others.length, low, high) ∧
    ∀ b ∈ others.head?, low ≤ b ∧ b ≤ high
  continued : ∀ b ∈ others.tail, 0x80 ≤ b ∧ b ≤ 0xBF
  decoded : charOfBytes (leadingBits lead others.length) others = c

theorem charOfBytes_eq {c : Char} {lead : Nat} {bytes : List UInt8}
    (h : bytes.foldl (fun n b ↦ n * 64 + b.toNat % 64) lead = c.toNat) : charOfBytes lead bytes = c := by
  rw [charOfBytes, h, Char.ofNat_toNat]

theorem isEncoded_one {c : Char} (h : c.toNat ≤ 0x7F) : IsEncoded c (UInt8.ofNat c.toNat) [] where
  encoded := if_pos h
  announced := by
    refine ⟨0x80, 0xBF, if_pos ?_, by simp⟩
    rw [UInt8.lt_iff_toNat_lt, UInt8.toNat_ofNat']
    change _ < 128
    omega
  continued := by simp
  decoded := by
    apply charOfBytes_eq
    change (UInt8.ofNat c.toNat).toNat = _
    rw [UInt8.toNat_ofNat']
    omega

theorem isEncoded_two {c : Char} (hlow : 0x7F < c.toNat) (hhigh : c.toNat ≤ 0x7FF) :
    IsEncoded c (UInt8.ofNat (c.toNat / 64 % 32 + 192)) [continuing c.toNat] where
  encoded := by
    change (if c.toNat ≤ 127 then _ else if c.toNat ≤ 2047 then _ else _) = _
    rw [if_neg (by omega), if_pos hhigh]
    rfl
  announced := by
    refine ⟨_, _, followers?_two _ (by omega) (by omega), ?_⟩
    rintro _ ⟨⟩
    exact continuing_bounds _
  continued := by simp
  decoded := by
    apply charOfBytes_eq
    change (UInt8.ofNat (c.toNat / 64 % 32 + 192)).toNat % 32 * 64 + (continuing c.toNat).toNat % 64 = _
    rw [UInt8.toNat_ofNat', toNat_continuing]
    omega

theorem isEncoded_three {c : Char} (hlow : 0x7FF < c.toNat) (hhigh : c.toNat ≤ 0xFFFF) :
    IsEncoded c (UInt8.ofNat (c.toNat / 4096 % 16 + 224))
      [continuing (c.toNat / 64), continuing c.toNat] where
  encoded := by
    change (if c.toNat ≤ 127 then _ else if c.toNat ≤ 2047 then _ else
      if c.toNat ≤ 65535 then _ else _) = _
    rw [if_neg (by omega), if_neg (by omega), if_pos hhigh]
    rfl
  announced := by
    refine ⟨_, _, followers?_three _ (by omega), ?_⟩
    rintro _ ⟨⟩
    have hvalid : c.toNat < 0xD800 ∨ 0xDFFF < c.toNat ∧ c.toNat < 0x110000 := c.valid
    constructor
    · apply le_continuing
      split
      · change 160 ≤ _
        omega
      · change 128 ≤ _
        omega
    · apply continuing_le
      split
      · change _ ≤ 159
        omega
      · change _ ≤ 191
        omega
  continued := by
    intro b hb
    obtain rfl : b = continuing c.toNat := by simpa using hb
    exact continuing_bounds _
  decoded := by
    apply charOfBytes_eq
    change ((UInt8.ofNat (c.toNat / 4096 % 16 + 224)).toNat % 16 * 64 +
      (continuing (c.toNat / 64)).toNat % 64) * 64 + (continuing c.toNat).toNat % 64 = _
    rw [UInt8.toNat_ofNat', toNat_continuing, toNat_continuing]
    omega

theorem isEncoded_four {c : Char} (hlow : 0xFFFF < c.toNat) :
    IsEncoded c (UInt8.ofNat (c.toNat / 262144 % 8 + 240))
      [continuing (c.toNat / 4096), continuing (c.toNat / 64), continuing c.toNat] where
  encoded := by
    change (if c.toNat ≤ 127 then _ else if c.toNat ≤ 2047 then _ else
      if c.toNat ≤ 65535 then _ else _) = _
    rw [if_neg (by omega), if_neg (by omega), if_neg (by omega)]
    rfl
  announced := by
    have hvalid : c.toNat < 0xD800 ∨ 0xDFFF < c.toNat ∧ c.toNat < 0x110000 := c.valid
    refine ⟨_, _, followers?_four _ (by omega), ?_⟩
    rintro _ ⟨⟩
    constructor
    · apply le_continuing
      split
      · change 144 ≤ _
        omega
      · change 128 ≤ _
        omega
    · apply continuing_le
      split
      · change _ ≤ 143
        omega
      · change _ ≤ 191
        omega
  continued := by
    intro b hb
    obtain rfl | rfl : b = continuing (c.toNat / 64) ∨ b = continuing c.toNat := by simpa using hb
    · exact continuing_bounds _
    · exact continuing_bounds _
  decoded := by
    have hvalid : c.toNat < 0xD800 ∨ 0xDFFF < c.toNat ∧ c.toNat < 0x110000 := c.valid
    apply charOfBytes_eq
    change (((UInt8.ofNat (c.toNat / 262144 % 8 + 240)).toNat % 8 * 64 +
      (continuing (c.toNat / 4096)).toNat % 64) * 64 + (continuing (c.toNat / 64)).toNat % 64) * 64 +
        (continuing c.toNat).toNat % 64 = _
    rw [UInt8.toNat_ofNat', toNat_continuing, toNat_continuing, toNat_continuing]
    omega

theorem exists_isEncoded (c : Char) : ∃ lead others, IsEncoded c lead others := by
  by_cases hone : c.toNat ≤ 0x7F
  · exact ⟨_, _, isEncoded_one hone⟩
  by_cases htwo : c.toNat ≤ 0x7FF
  · exact ⟨_, _, isEncoded_two (by omega) htwo⟩
  by_cases hthree : c.toNat ≤ 0xFFFF
  · exact ⟨_, _, isEncoded_three (by omega) hthree⟩
  · exact ⟨_, _, isEncoded_four (by omega)⟩

/-! ## Texts -/

theorem toBytes_append (s t : Text) : toBytes (s ++ t) = toBytes s ++ toBytes t :=
  List.flatMap_append

theorem decodeFrom_length (bytes rest : List UInt8) :
    decodeFrom bytes.length (bytes ++ rest) = decodeFrom 0 rest := by
  induction bytes with
  | nil => rfl
  | cons b bytes ih => exact ih

/-- An encoded character is decoded, and decoding goes on behind it. -/
theorem decodeFrom_utf8EncodeChar (c : Char) (rest : List UInt8) :
    decodeFrom 0 (String.utf8EncodeChar c ++ rest) = c :: decodeFrom 0 rest := by
  obtain ⟨lead, others, h⟩ := exists_isEncoded c
  obtain ⟨low, high, hfollowers, hfirst⟩ := h.announced
  have htaken := following_append hfirst h.continued rest
  rw [h.encoded, List.cons_append, decodeFrom, hfollowers]
  simp only [htaken, beq_self_eq_true, if_true, h.decoded, decodeFrom_length]

theorem ofBytesLossy_toBytes (s : Text) : ofBytesLossy (toBytes s) = s := by
  induction s with
  | nil => rfl
  | cons c s ih =>
    calc
      ofBytesLossy (toBytes (c :: s)) = decodeFrom 0 (String.utf8EncodeChar c ++ toBytes s) := rfl
      _ = c :: ofBytesLossy (toBytes s) := decodeFrom_utf8EncodeChar c (toBytes s)
      _ = c :: s := by rw [ih]

end VbOutline.Text
