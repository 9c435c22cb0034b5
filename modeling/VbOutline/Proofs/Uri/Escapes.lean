import Mathlib.Logic.Function.Basic
import VbOutline.Proofs.Text.Utf8
import VbOutline.Uri

/-!
# Paths come back from their URIs

An escape is a percent sign with two digits, which stand for one byte. A percent sign of a path is
escaped itself, so that in a URI it always begins an escape. What is escaped in a character is its
bytes, so that they come back one by one, and the path is decoded from them.
-/

namespace VbOutline.Uri

open Text

/-- The byte of a hexadecimal digit. -/
def hexByte (n : Nat) : UInt8 := UInt8.ofNat (hexDigit n).toNat

theorem toBytes_hexDigit : ∀ n < 16, toBytes [hexDigit n] = [hexByte n] := by
  decide

theorem hexValue?_hexByte : ∀ n < 16, hexValue? (hexByte n) = some n := by
  decide

theorem toBytes_escapeByte (b : UInt8) :
    toBytes (escapeByte b) = [0x25, hexByte (b.toNat / 16), hexByte (b.toNat % 16)] := by
  have hb : b.toNat < 256 := b.toNat_lt
  calc
    toBytes (escapeByte b) =
        toBytes ['%'] ++ toBytes [hexDigit (b.toNat / 16)] ++ toBytes [hexDigit (b.toNat % 16)] := by
      rw [← toBytes_append, ← toBytes_append]
      rfl
    _ = [0x25, hexByte (b.toNat / 16), hexByte (b.toNat % 16)] := by
      rw [toBytes_hexDigit _ (by omega), toBytes_hexDigit _ (by omega)]
      rfl

theorem unescape_cons_of_ne {b : UInt8} (h : b ≠ 0x25) (rest : List UInt8) :
    unescape (b :: rest) = b :: unescape rest := by
  match rest with
  | [] => rfl
  | [_] => rfl
  | _ :: _ :: _ => simp [unescape, h]

theorem unescape_escapeByte (b : UInt8) (rest : List UInt8) :
    unescape (toBytes (escapeByte b) ++ rest) = b :: unescape rest := by
  have hb : b.toNat < 256 := b.toNat_lt
  have hbyte : UInt8.ofNat (b.toNat / 16 * 16 + b.toNat % 16) = b := by
    rw [Nat.div_add_mod', UInt8.ofNat_toNat]
  rw [toBytes_escapeByte]
  simp only [List.cons_append, List.nil_append, unescape, beq_self_eq_true, if_true,
    hexValue?_hexByte _ (show b.toNat / 16 < 16 by omega),
    hexValue?_hexByte _ (show b.toNat % 16 < 16 by omega), hbyte]

theorem unescape_flatMap_escapeByte (bytes rest : List UInt8) :
    unescape (toBytes (bytes.flatMap escapeByte) ++ rest) = bytes ++ unescape rest := by
  induction bytes with
  | nil => rfl
  | cons b bytes ih =>
    rw [List.flatMap_cons, toBytes_append, List.append_assoc, unescape_escapeByte, ih,
      List.cons_append]

theorem toNat_of_between {c : Char} {low high : UInt32} (hlow : low ≤ c.val) (hhigh : c.val ≤ high) :
    low.toNat ≤ c.toNat ∧ c.toNat ≤ high.toNat :=
  ⟨UInt32.le_iff_toNat_le.1 hlow, UInt32.le_iff_toNat_le.1 hhigh⟩

theorem toNat_le_of_isAlphanum {c : Char} (h : c.isAlphanum) :
    c.toNat ≤ 0x7F ∧ c.toNat ≠ 0x25 := by
  obtain hletter | hdigit := Bool.or_eq_true_iff.1 h
  · obtain hupper | hlower := Bool.or_eq_true_iff.1 hletter
    · obtain ⟨hlow, hhigh⟩ := of_decide_eq_true hupper
      have hbounds : 65 ≤ c.toNat ∧ c.toNat ≤ 90 := toNat_of_between hlow hhigh
      omega
    · obtain ⟨hlow, hhigh⟩ := Bool.and_eq_true_iff.1 hlower
      have hbounds : 97 ≤ c.toNat ∧ c.toNat ≤ 122 :=
        toNat_of_between (of_decide_eq_true hlow) (of_decide_eq_true hhigh)
      omega
  · obtain ⟨hlow, hhigh⟩ := Bool.and_eq_true_iff.1 hdigit
    have hbounds : 48 ≤ c.toNat ∧ c.toNat ≤ 57 :=
      toNat_of_between (of_decide_eq_true hlow) (of_decide_eq_true hhigh)
    omega

/-- A character that stands for itself has one byte, and is no percent sign. -/
theorem utf8EncodeChar_of_isUnescaped {c : Char} (h : isUnescaped c) :
    ∃ b, String.utf8EncodeChar c = [b] ∧ b ≠ 0x25 := by
  have hascii : c.toNat ≤ 0x7F ∧ c.toNat ≠ 0x25 := by
    simp only [isUnescaped, Bool.or_eq_true, beq_iff_eq] at h
    obtain ((((h | rfl) | rfl) | rfl) | rfl) | rfl := h
    · exact toNat_le_of_isAlphanum h
    all_goals decide
  refine ⟨_, (isEncoded_one hascii.1).encoded, fun hpercent ↦ hascii.2 ?_⟩
  have htoNat := congrArg UInt8.toNat hpercent
  rw [UInt8.toNat_ofNat'] at htoNat
  change _ = 37 at htoNat
  omega

/-- The bytes of a character come back from what stands for it. -/
theorem unescape_escapeChar (c : Char) (rest : List UInt8) :
    unescape (toBytes (escapeChar c) ++ rest) = String.utf8EncodeChar c ++ unescape rest := by
  rw [escapeChar]
  split
  · next hunescaped =>
    obtain ⟨b, hb, hne⟩ := utf8EncodeChar_of_isUnescaped hunescaped
    have hbytes : toBytes [c] = [b] := by rw [toBytes, List.flatMap_singleton, hb]
    rw [hbytes, hb, List.singleton_append, unescape_cons_of_ne hne, List.singleton_append]
  · exact unescape_flatMap_escapeByte _ rest

theorem unescape_flatMap_escapeChar (path : Text) :
    unescape (toBytes (path.flatMap escapeChar)) = toBytes path := by
  induction path with
  | nil => rfl
  | cons c path ih =>
    rw [List.flatMap_cons, toBytes_append, unescape_escapeChar, ih]
    rfl

/-! ## Paths -/

theorem toPath_ofPath (path : Text) : toPath (ofPath path) = path := by
  have hscheme : scheme.isPrefixOf (ofPath path) :=
    List.isPrefixOf_iff_prefix.2 (List.prefix_append scheme _)
  have hrest : (ofPath path).drop scheme.length = path.flatMap escapeChar := List.drop_left
  rw [toPath, if_pos hscheme, hrest, unescape_flatMap_escapeChar, ofBytesLossy_toBytes]

/-- Every path comes back from its URI, and so no two paths have the same one. -/
theorem paths_come_back :
    (∀ path, toPath (ofPath path) = path) ∧ Function.Injective ofPath :=
  ⟨toPath_ofPath, Function.LeftInverse.injective toPath_ofPath⟩

/-- A path that looks like a URI already is escaped once more. -/
example : ofPath "/a%20b/é .vb".toList = "file:///a%2520b/%C3%A9%20.vb".toList := by
  decide

end VbOutline.Uri
