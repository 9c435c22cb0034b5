import VbOutline.Text.Basic

/-!
# UTF-8

Text as bytes and back. Decoding never fails: each maximal part of the bytes that cannot be
continued to a character is replaced by one replacement character, and a byte that begins nothing is
such a part of its own.
-/

namespace VbOutline.Text

def toBytes (s : Text) : List UInt8 := s.flatMap String.utf8EncodeChar

def replacement : Char := '\uFFFD'

/-- Whether a byte continues a character. -/
def isContinuation (b : UInt8) : Bool := 0x80 ≤ b && b ≤ 0xBF

/-- How many bytes follow a leading byte, and between which bounds the first of them lies. -/
def followers? (b : UInt8) : Option (Nat × UInt8 × UInt8) :=
  if b < 0x80 then some (0, 0x80, 0xBF)
  else if 0xC2 ≤ b && b ≤ 0xDF then some (1, 0x80, 0xBF)
  else if b == 0xE0 then some (2, 0xA0, 0xBF)
  else if b == 0xED then some (2, 0x80, 0x9F)
  else if 0xE1 ≤ b && b ≤ 0xEF then some (2, 0x80, 0xBF)
  else if b == 0xF0 then some (3, 0x90, 0xBF)
  else if 0xF1 ≤ b && b ≤ 0xF3 then some (3, 0x80, 0xBF)
  else if b == 0xF4 then some (3, 0x80, 0x8F)
  else none

/-- The bits that a leading byte contributes. -/
def leadingBits (b : UInt8) (following : Nat) : Nat :=
  match following with
  | 0 => b.toNat
  | 1 => b.toNat % 32
  | 2 => b.toNat % 16
  | _ => b.toNat % 8

/-- The bytes that may follow a leading byte, as far as they are there. -/
def following (n : Nat) (low high : UInt8) : List UInt8 → List UInt8
  | [] => []
  | b :: rest =>
    match n with
    | 0 => []
    | k + 1 => if low ≤ b && b ≤ high then b :: following k 0x80 0xBF rest else []

def charOfBytes (lead : Nat) (bytes : List UInt8) : Char :=
  Char.ofNat (bytes.foldl (fun n b ↦ n * 64 + b.toNat % 64) lead)

/-- Decodes bytes, of which the first `skip` belong to a part that is already decoded. -/
def decodeFrom (skip : Nat) : List UInt8 → Text
  | [] => []
  | b :: rest =>
    match skip with
    | k + 1 => decodeFrom k rest
    | 0 =>
      match followers? b with
      | none => replacement :: decodeFrom 0 rest
      | some (n, low, high) =>
        let bytes := following n low high rest
        (if bytes.length == n then charOfBytes (leadingBits b n) bytes else replacement) ::
          decodeFrom bytes.length rest

def ofBytesLossy (bytes : List UInt8) : Text := decodeFrom 0 bytes

end VbOutline.Text
