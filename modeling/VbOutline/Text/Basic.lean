import VbOutline.Text.Letter
import VbOutline.Text.Mark
import VbOutline.Text.Newcomer
import VbOutline.Text.Number

/-!
# Text as a list of characters

Source text is handled as a list of characters. This module has the character classes that the
statement grammar speaks of, trimming, and the two measures of a position in a line: the number of
UTF-8 bytes and the number of characters before it.

A word character is one that may stand inside a word of the grammar; an identifier character is a
letter-like character, a number or an underscore. The two differ: a superscript digit is an
identifier character and no word character, a joiner is a word character and no identifier
character. Words know the characters of version 16 of the character standard, identifiers those of
version 17.
-/

namespace VbOutline

abbrev Text := List Char

namespace Text

/-- The 25 code points with the White_Space property. -/
def isSpace (c : Char) : Bool :=
  let n := c.toNat
  (0x09 ≤ n && n ≤ 0x0D) || n == 0x20 || n == 0x85 || n == 0xA0 || n == 0x1680 ||
    (0x2000 ≤ n && n ≤ 0x200A) || n == 0x2028 || n == 0x2029 || n == 0x202F || n == 0x205F ||
    n == 0x3000

def isAlphabetic (c : Char) : Bool :=
  isLetter c || alphabeticSigns.contains c.toNat

/-- Connector punctuation, of which ASCII has the underscore only. -/
def isConnector (c : Char) : Bool :=
  let n := c.toNat
  n == 0x5F || n == 0x203F || n == 0x2040 || n == 0x2054 || n == 0xFE33 || n == 0xFE34 ||
    (0xFE4D ≤ n && n ≤ 0xFE4F) || n == 0xFF3F

def isJoiner (c : Char) : Bool :=
  c.toNat == 0x200C || c.toNat == 0x200D

/-- A character that may stand inside a word. -/
def isWordChar (c : Char) : Bool :=
  if c.toNat < 128 then c.isAlphanum || c == '_'
  else
    (isAlphabetic c || isDigit c || plainMarks.contains c.toNat || isConnector c || isJoiner c) &&
      !isNewcomer c

/-- A digit of a number in the grammar. -/
def isWordDigit (c : Char) : Bool := isDigit c && !isNewcomer c

/-- A letter or an underscore. -/
def isPlainStart (c : Char) : Bool :=
  (isLetter c && !isNewcomer c) || c == '_'

/-- A character that may begin a name of the grammar. Names are read up to case, so the combining
iota may begin one, because its upper case is a letter. -/
def isNameStart (c : Char) : Bool :=
  isPlainStart c || c == '\u0345'

def isAlphanumeric (c : Char) : Bool :=
  if c.toNat < 128 then c.isAlphanum
  else isAlphabetic c || isDigit c || otherNumbers.contains c.toNat

def isIdentChar (c : Char) : Bool :=
  isAlphanumeric c || c == '_'

def isAsciiDigit (c : Char) : Bool := c.isDigit

/-! ## Trimming -/

def dropEndWhile (p : Char → Bool) (s : Text) : Text :=
  (s.reverse.dropWhile p).reverse

def trimStart (s : Text) : Text := s.dropWhile isSpace

def trimEnd (s : Text) : Text := dropEndWhile isSpace s

def trim (s : Text) : Text := trimEnd (trimStart s)

/-- Drops the underscores at the end. -/
def dropUnderscores (s : Text) : Text := dropEndWhile (· == '_') s

/-- The words between runs of white space. -/
def spaceWords (s : Text) : List Text :=
  (s.splitBy fun a b ↦ isSpace a == isSpace b).filter fun w ↦ !w.all isSpace

/-- Whether `whole` ends with `tail`. -/
def endsWith (whole tail : Text) : Bool := tail.isSuffixOf whole

/-- Whether `part` occurs in the text as a block of neighbours. -/
def containsText (s part : Text) : Bool :=
  match s with
  | [] => part.isEmpty
  | c :: rest => part.isPrefixOf (c :: rest) || containsText rest part

/-- The text before the first occurrence of `sep` and the text after it. -/
def splitFirst? (sep : Char) (s : Text) : Option (Text × Text) :=
  match s.dropWhile (· != sep) with
  | [] => none
  | _ :: rest => some (s.takeWhile (· != sep), rest)

/-- The text before the last occurrence of `sep` and the text after it. -/
def splitLast? (sep : Char) (s : Text) : Option (Text × Text) :=
  (splitFirst? sep s.reverse).map fun (after, before) ↦ (before.reverse, after.reverse)

/-- The parts between the occurrences of `sep`; there is always one more than occurrences. -/
def splitAll (sep : Char) (s : Text) : List Text :=
  s.foldr (fun c parts ↦
    match parts with
    | [] => [[c]]
    | part :: rest => if c == sep then [] :: part :: rest else (c :: part) :: rest) [[]]

/-! ## Measures -/

/-- The number of bytes of the UTF-8 form. -/
def byteSize (s : Text) : Nat := s.foldl (fun n c ↦ n + c.utf8Size) 0

theorem foldl_utf8Size (n : Nat) (s : Text) :
    s.foldl (fun n c ↦ n + c.utf8Size) n = n + byteSize s := by
  induction s generalizing n with
  | nil => rfl
  | cons c s ih =>
    have hone := ih (0 + c.utf8Size)
    have hall := ih (n + c.utf8Size)
    simp only [byteSize, List.foldl_cons] at hone hall ⊢
    omega

@[simp]
theorem byteSize_nil : byteSize [] = 0 := rfl

@[simp]
theorem byteSize_cons (c : Char) (s : Text) : byteSize (c :: s) = c.utf8Size + byteSize s := by
  have h := foldl_utf8Size (0 + c.utf8Size) s
  simpa [byteSize] using h

/-- The byte offset in `whole` at which its suffix `rest` begins. -/
def offsetOf (whole rest : Text) : Nat := byteSize whole - byteSize rest

/-- The number of bytes of leading white space. -/
def indentOf (s : Text) : Nat := byteSize (s.takeWhile isSpace)

/-- The column of a byte offset in the rest of a line that comes after `seen` characters. -/
def columnFrom (seen offset : Nat) : Text → Nat
  | [] => seen
  | c :: rest =>
    if offset == 0 then seen
    else if c.utf8Size ≤ offset then columnFrom (seen + 1) (offset - c.utf8Size) rest
    else 0

/-- The column of a byte offset. An offset beyond the end has the column of the end, and one inside
a character has column 0. -/
def columnOf (line : Text) (offset : Nat) : Nat := columnFrom 0 offset line

end Text

end VbOutline
