import VbOutline.Toml.Moment
import VbOutline.Toml.Value

/-!
# TOML strings and numbers

Readers take a text and give back a value and the rest of the text.

A string stands between quotes or apostrophes, or between three of them if it may run over lines.
Between quotes a backslash begins an escape. A number may have underscores between its digits, and
an integer may be written to the bases 16, 8 and 2.
-/

namespace VbOutline.Toml

open Text

/-! ## Strings -/

/-- A character that may stand in a comment or a string: a tab, or no control character. -/
def isPlain (c : Char) : Bool := c == '\t' || (0x20 ≤ c.toNat && c.toNat != 0x7F)

def isBlank (c : Char) : Bool := c == ' ' || c == '\t'

def hexDigitValue? (c : Char) : Option Nat :=
  if c.isDigit then some (c.toNat - '0'.toNat)
  else if 'a' ≤ c && c ≤ 'f' then some (c.toNat - 'a'.toNat + 10)
  else if 'A' ≤ c && c ≤ 'F' then some (c.toNat - 'A'.toNat + 10)
  else none

/-- The value of digits to a base. -/
def numeral? (base : Nat) (s : Text) : Option Nat :=
  s.foldl (fun n c ↦ do
    let n ← n
    let d ← hexDigitValue? c
    if d < base then some (n * base + d) else none) (some 0)

/-- The character whose code point is written with `n` hexadecimal digits. -/
def codePoint? (n : Nat) (s : Text) : Option (Char × Text) := do
  let digits := s.take n
  let code ← if digits.length == n then numeral? 16 digits else none
  if code.isValidChar then some (Char.ofNat code, s.drop n) else none

/-- The character that an escape stands for; its backslash is already read. -/
def escape? (s : Text) : Option (Char × Text) :=
  match s with
  | 'b' :: rest => some ('\x08', rest)
  | 't' :: rest => some ('\t', rest)
  | 'n' :: rest => some ('\n', rest)
  | 'f' :: rest => some ('\x0c', rest)
  | 'r' :: rest => some ('\r', rest)
  | '"' :: rest => some ('"', rest)
  | '\\' :: rest => some ('\\', rest)
  | 'u' :: rest => codePoint? 4 rest
  | 'U' :: rest => codePoint? 8 rest
  | _ => none

/-- Drops a line end. -/
def lineEnd? (s : Text) : Option Text :=
  match s with
  | '\n' :: rest => some rest
  | '\r' :: '\n' :: rest => some rest
  | _ => none

/-- A string on one line; its first mark is already read, and `read` are its characters so far, last
one first. -/
def shortString? (fuel : Nat) (mark : Char) (read : Text) (s : Text) : Option (Text × Text) :=
  match fuel, s with
  | fuel + 1, c :: rest =>
    if c == mark then some (read.reverse, rest)
    else if c == '\\' && mark == '"' then
      (escape? rest).bind fun (e, rest) ↦ shortString? fuel mark (e :: read) rest
    else if isPlain c then shortString? fuel mark (c :: read) rest
    else none
  | _, _ => none

/-- Drops blanks and line ends. -/
def dropLineEnds : Text → Text
  | '\r' :: '\n' :: rest => dropLineEnds rest
  | c :: rest => if isBlank c || c == '\n' then dropLineEnds rest else c :: rest
  | [] => []

/-- The white space that a backslash at the end of a line joins, if there is a line end after it. -/
def joinedLines? (s : Text) : Option Text :=
  (lineEnd? (s.dropWhile isBlank)).map dropLineEnds

/-- A string over several lines; its first three marks are already read. Of the marks before the
last three, up to two belong to the string. -/
def longString? (fuel : Nat) (mark : Char) (read : Text) (s : Text) : Option (Text × Text) :=
  match fuel, s with
  | fuel + 1, c :: rest =>
    if [mark, mark, mark].isPrefixOf s then
      let own := min 2 ((s.takeWhile (· == mark)).length - 3)
      some (read.reverse ++ List.replicate own mark, s.drop (own + 3))
    else if c == '\\' && mark == '"' then
      match joinedLines? rest with
      | some rest => longString? fuel mark read rest
      | none => (escape? rest).bind fun (e, rest) ↦ longString? fuel mark (e :: read) rest
    else
      match lineEnd? s with
      | some rest => longString? fuel mark ('\n' :: read) rest
      | none => if isPlain c then longString? fuel mark (c :: read) rest else none
  | _, _ => none

/-- A string on one line, from its first mark. -/
def quoted? (fuel : Nat) (s : Text) : Option (Text × Text) :=
  match s with
  | mark :: rest => if mark == '"' || mark == '\'' then shortString? fuel mark [] rest else none
  | [] => none

/-- A string, from its first mark. -/
def string? (fuel : Nat) (s : Text) : Option (Text × Text) :=
  match s with
  | a :: b :: c :: rest =>
    if a == b && b == c && (a == '"' || a == '\'') then
      longString? fuel a [] ((lineEnd? rest).getD rest)
    else quoted? fuel s
  | _ => quoted? fuel s

/-! ## Numbers -/

/-- Whether a text consists of digits of a class, with single underscores between them. -/
def isDigitRun (isDigit : Char → Bool) (s : Text) : Bool :=
  (splitAll '_' s).all fun part ↦ !part.isEmpty && part.all isDigit

def withoutUnderscores (s : Text) : Text := s.filter (· != '_')

/-- The digits of a decimal number: no zero comes before other digits. -/
def isDecimalRun (s : Text) : Bool :=
  isDigitRun isAsciiDigit s && (s.length == 1 || s.head? != some '0')

def dropSign (s : Text) : Text :=
  match s with
  | '+' :: rest | '-' :: rest => rest
  | _ => s

/-- Whether a text is an exponent after its letter. -/
def isExponent (s : Text) : Bool := isDigitRun isAsciiDigit (dropSign s)

/-- Whether a text after a whole number makes it a number with a fraction or an exponent. -/
def isFloatEnd (s : Text) : Bool :=
  let isE (c : Char) : Bool := c == 'e' || c == 'E'
  match s with
  | '.' :: rest =>
    isDigitRun isAsciiDigit (rest.takeWhile fun c ↦ !isE c) &&
      match rest.dropWhile fun c ↦ !isE c with
      | [] => true
      | _ :: exponent => isExponent exponent
  | e :: rest => isE e && isExponent rest
  | [] => false

/-- Whether a text is a number with a fraction or an exponent, in digits. -/
def isFloat (s : Text) : Bool :=
  let body := dropSign s
  let isWhole (c : Char) : Bool := isAsciiDigit c || c == '_'
  isDecimalRun (body.takeWhile isWhole) && isFloatEnd (body.dropWhile isWhole)

def isFloatWord (s : Text) : Bool :=
  let body := dropSign s
  body == "inf".toList || body == "nan".toList

/-- A positive number from which on the nearest floating-point number is infinite. -/
def floatLimit : Nat := Nat.pow 2 1024 - Nat.pow 2 970

/-- Whether `digits * 10 ^ exponent` is too large for a floating-point number. Where the number of
digits decides, no power of ten is computed. -/
def isHuge (digits : Text) (exponent : Int) : Bool :=
  let digits := digits.dropWhile (· == '0')
  let size : Int := digits.length + exponent
  let n := (numeral? 10 digits).getD 0
  !digits.isEmpty && 309 ≤ size &&
    (310 < size || floatLimit * Nat.pow 10 (-exponent).toNat ≤ n * Nat.pow 10 exponent.toNat)

/-- The exponent after its letter. -/
def exponentOf (s : Text) : Int :=
  let n := (numeral? 10 (dropSign s)).getD 0
  if s.head? == some '-' then -(n : Int) else n

/-- Whether a number with a fraction or an exponent is too large; a negative number never is. -/
def overflows (s : Text) : Bool :=
  let body := withoutUnderscores (dropSign s)
  let isE (c : Char) : Bool := c == 'e' || c == 'E'
  let mantissa := body.takeWhile fun c ↦ !isE c
  let whole := mantissa.takeWhile (· != '.')
  let fraction := (mantissa.dropWhile (· != '.')).drop 1
  let exponent := exponentOf ((body.dropWhile fun c ↦ !isE c).drop 1)
  s.head? != some '-' && isHuge (whole ++ fraction) (exponent - fraction.length)

/-- Integers have 64 bits and a sign. -/
def inRange? (n : Int) : Option Int :=
  let bound := Int.ofNat (Nat.pow 2 63)
  if -bound ≤ n && n < bound then some n else none

def integer? (s : Text) : Option Int :=
  let based (base : Nat) (digits : Text) : Option Int := do
    let isDigit (c : Char) : Bool := (hexDigitValue? c).any (· < base)
    let n ← if isDigitRun isDigit digits then numeral? base (withoutUnderscores digits) else none
    inRange? n
  match s with
  | '0' :: 'x' :: digits => based 16 digits
  | '0' :: 'o' :: digits => based 8 digits
  | '0' :: 'b' :: digits => based 2 digits
  | _ =>
    let body := dropSign s
    if isDecimalRun body then do
      let n ← numeral? 10 (withoutUnderscores body)
      inRange? (if s.head? == some '-' then -(n : Int) else n)
    else none

/-- A character of a word, a number or a moment. -/
def isScalarChar (c : Char) : Bool :=
  c.isAlphanum || c == '_' || c == '+' || c == '-' || c == '.' || c == ':'

/-- A value that is neither a string nor made of other values. -/
def scalar? (s : Text) : Option (Toml × Text) :=
  let word := s.takeWhile isScalarChar
  let rest := s.dropWhile isScalarChar
  if word == "true".toList then some (.boolean true, rest)
  else if word == "false".toList then some (.boolean false, rest)
  else if isFloatWord word then some (.float word, rest)
  else if isFloat word then if overflows word then none else some (.float word, rest)
  else
    match integer? word with
    | some n => some (.integer n, rest)
    | none => (moment? s).map fun (text, rest) ↦ (.moment text, rest)

end VbOutline.Toml
