import VbOutline.Text.Basic

/-!
# Number literals of a line

A number begins where no word is going on: digits, possibly a fraction, and at most two ASCII
letters as a type suffix, after which the word must end. If the fraction does not end well, the
digits before the point are a number of their own.
-/

namespace VbOutline.Line

open Text

/-- The digits with the suffix that follows, if the word ends with it. -/
def withSuffix? (digits rest : Text) : Option Text :=
  let suffix := rest.takeWhile isWordChar
  if suffix.length ≤ 2 && suffix.all Char.isAlpha then some (digits ++ suffix) else none

def withFraction? (digits rest : Text) : Option Text :=
  match rest with
  | '.' :: tail =>
    let fraction := tail.takeWhile isWordDigit
    if fraction.isEmpty then none
    else withSuffix? (digits ++ '.' :: fraction) (tail.dropWhile isWordDigit)
  | _ => none

/-- The number at the beginning of a text. -/
def number? (s : Text) : Option Text :=
  let digits := s.takeWhile isWordDigit
  let rest := s.dropWhile isWordDigit
  if digits.isEmpty then none
  else (withFraction? digits rest).or (withSuffix? digits rest)

/-- The numbers of a text that begins at byte `offset`. `skip` is the rest of a number passed over
and `inWord` tells whether the text continues a word. -/
def numbersFrom (offset skip : Nat) (inWord : Bool) : Text → List (Nat × Text)
  | [] => []
  | c :: rest =>
    match skip with
    | k + 1 => numbersFrom (offset + c.utf8Size) k (isWordChar c) rest
    | 0 =>
      match if inWord then none else number? (c :: rest) with
      | some literal =>
        (offset, literal) :: numbersFrom (offset + c.utf8Size) (literal.length - 1) true rest
      | none => numbersFrom (offset + c.utf8Size) 0 (isWordChar c) rest

/-- The number literals of code whose strings are masked, with their byte offsets. -/
def numbers (masked : Text) : List (Nat × Text) := numbersFrom 0 0 false masked

end VbOutline.Line
