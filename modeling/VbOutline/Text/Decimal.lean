import VbOutline.Text.Basic

/-!
# Decimal numbers

Unsigned numbers are written with the fewest digits. They are read as users write them: ASCII
digits, possibly after a plus sign, below a bound.
-/

namespace VbOutline.Text

def digitChar (n : Nat) : Char := Char.ofNat ('0'.toNat + n)

/-- The decimal digits of a number. -/
def decimal (n : Nat) : Text :=
  if n < 10 then [digitChar n] else decimal (n / 10) ++ [digitChar (n % 10)]
termination_by n

def decimalString (n : Nat) : String := String.ofList (decimal n)

def digitValue (c : Char) : Nat := c.toNat - '0'.toNat

/-- The value of a non-empty row of ASCII digits. -/
def digits? (s : Text) : Option Nat :=
  if !s.isEmpty && s.all isAsciiDigit then
    some (s.foldl (fun n c ↦ n * 10 + digitValue c) 0)
  else none

/-- Reads a number below `bound`. -/
def unsigned? (bound : Nat) (s : Text) : Option Nat :=
  let digits := match s with
    | '+' :: rest => rest
    | _ => s
  (digits? digits).filter (· < bound)

def bound32 : Nat := Nat.pow 2 32

def bound64 : Nat := Nat.pow 2 64

end VbOutline.Text
