import VbOutline.Text.Utf8

/-!
# File URIs

The URI of a file is its absolute path with every byte escaped that is not a letter, a digit or one
of a few marks. Any other text than a file URI stands for itself.
-/

namespace VbOutline.Uri

open Text

def scheme : Text := "file://".toList

/-- Characters that stand for themselves in a URI. -/
def isUnescaped (c : Char) : Bool :=
  c.isAlphanum || c == '/' || c == '.' || c == '-' || c == '_' || c == '~'

def hexDigit (n : Nat) : Char := ("0123456789ABCDEF".toList)[n]?.getD '0'

def escapeByte (b : UInt8) : Text := ['%', hexDigit (b.toNat / 16), hexDigit (b.toNat % 16)]

def escapeChar (c : Char) : Text :=
  if isUnescaped c then [c] else (String.utf8EncodeChar c).flatMap escapeByte

/-- The URI of an absolute path. -/
def ofPath (path : Text) : Text := scheme ++ path.flatMap escapeChar

def hexValue? (b : UInt8) : Option Nat :=
  let n := b.toNat
  if 0x30 ≤ n && n ≤ 0x39 then some (n - 0x30)
  else if 0x41 ≤ n && n ≤ 0x46 then some (n - 0x41 + 10)
  else if 0x61 ≤ n && n ≤ 0x66 then some (n - 0x61 + 10)
  else none

/-- Replaces escapes by their bytes; a percent sign without two hexadecimal digits is kept. -/
def unescape : List UInt8 → List UInt8
  | [] => []
  | [a] => [a]
  | [a, b] => [a, b]
  | a :: h :: l :: rest =>
    match if a == 0x25 then hexValue? h else none, hexValue? l with
    | some high, some low => UInt8.ofNat (high * 16 + low) :: unescape rest
    | _, _ => a :: unescape (h :: l :: rest)

/-- The path that a URI stands for. -/
def toPath (uri : Text) : Text :=
  if scheme.isPrefixOf uri then ofBytesLossy (unescape (toBytes (uri.drop scheme.length))) else uri

end VbOutline.Uri
