import VbOutline.Text.Decimal

/-!
# Dates and times

A moment is a date, a time, or a date and a time, possibly with the offset of its zone. It is
written again with a capital T between date and time, with no more digits of a second than needed
and at most nine, and with a capital Z for no offset.
-/

namespace VbOutline.Toml

open Text

/-- A number of exactly `n` digits at the beginning of a text, and the rest. -/
def fixedNumber? (n : Nat) (s : Text) : Option (Nat × Text) :=
  let digits := s.take n
  if digits.length == n then (digits? digits).map fun value ↦ (value, s.drop n) else none

def after? (c : Char) (s : Text) : Option Text :=
  match s with
  | d :: rest => if c == d then some rest else none
  | [] => none

def isLeapYear (year : Nat) : Bool := year % 4 == 0 && (year % 100 != 0 || year % 400 == 0)

def daysIn (year month : Nat) : Nat :=
  if month == 2 then if isLeapYear year then 29 else 28
  else if [4, 6, 9, 11].contains month then 30
  else 31

/-- A date, as written, and the rest. -/
def date? (s : Text) : Option (Text × Text) := do
  let (year, rest) ← fixedNumber? 4 s
  let (month, rest) ← fixedNumber? 2 (← after? '-' rest)
  let (day, rest) ← fixedNumber? 2 (← after? '-' rest)
  if 1 ≤ month && month ≤ 12 && 1 ≤ day && day ≤ daysIn year month then
    some (s.take 10, rest)
  else none

/-- The digits of a second after the point, and the rest. -/
def fraction? (s : Text) : Option (Text × Text) :=
  match s with
  | '.' :: rest =>
    let digits := rest.takeWhile isAsciiDigit
    let kept := dropEndWhile (· == '0') (digits.take 9)
    if digits.isEmpty then none
    else some (if kept.isEmpty then [] else '.' :: kept, rest.drop digits.length)
  | _ => some ([], s)

/-- A time whose hour is at most `lastHour`. -/
def timeUpTo? (lastHour : Nat) (s : Text) : Option (Text × Text) := do
  let (hour, rest) ← fixedNumber? 2 s
  let (minute, rest) ← fixedNumber? 2 (← after? ':' rest)
  let (second, rest) ← fixedNumber? 2 (← after? ':' rest)
  let (fraction, rest) ← fraction? rest
  if hour ≤ lastHour && minute < 60 && second ≤ 60 then some (s.take 8 ++ fraction, rest) else none

def time? (s : Text) : Option (Text × Text) := timeUpTo? 23 s

/-- The offset of a zone, which may be missing. -/
def offset? (s : Text) : Option (Text × Text) := do
  match s with
  | 'Z' :: rest | 'z' :: rest => some (['Z'], rest)
  | '+' :: rest | '-' :: rest =>
    let (hour, after) ← fixedNumber? 2 rest
    let (minute, after) ← fixedNumber? 2 (← after? ':' after)
    let sign := if hour == 0 && minute == 0 then '+' else s.head?.getD '+'
    if hour < 24 && minute < 60 then some (sign :: rest.take 5, after) else none
  | _ => some ([], s)

/-- The time that may follow a date after a T or a blank; a blank may also end the date. -/
def timeAfterDate? (s : Text) : Option (Text × Text) :=
  let timeAndOffset? (rest : Text) : Option (Text × Text) := do
    let (time, rest) ← time? rest
    let (offset, rest) ← offset? rest
    some ('T' :: time ++ offset, rest)
  match s with
  | 'T' :: rest | 't' :: rest => timeAndOffset? rest
  | ' ' :: rest => (timeAndOffset? rest).or (some ([], s))
  | _ => some ([], s)

/-- A moment at the beginning of a text, and the rest. -/
def moment? (s : Text) : Option (Text × Text) :=
  match date? s with
  | some (date, rest) => (timeAfterDate? rest).map fun (time, rest) ↦ (date ++ time, rest)
  | none => time? s

end VbOutline.Toml
