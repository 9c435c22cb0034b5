import VbOutline.Toml.Moment
import VbOutline.Toml.Value

/-!
# Moments written as tables

A table inside a document whose first key is `$__toml_private_datetime` is a moment, and the string
under that key says which one; the other keys of the table say nothing. These strings have rules of
their own: an hour may be 24, and the offset of a zone may have any minutes as long as it is not
longer than a day.
-/

namespace VbOutline.Toml

open Text

/-- A number with at least two digits. -/
def twoDigits (n : Nat) : Text := if n < 10 then '0' :: decimal n else decimal n

/-- The offset that ends a string, which may be missing. -/
def lastOffset? (s : Text) : Option Text := do
  match s with
  | [] => some []
  | ['Z'] | ['z'] => some ['Z']
  | sign :: rest =>
    let (hours, rest) ← fixedNumber? 2 rest
    let (minutes, rest) ← fixedNumber? 2 (← after? ':' rest)
    let total := hours * 60 + minutes
    let shown := if total == 0 then '+' else sign
    if (sign == '+' || sign == '-') && total ≤ 24 * 60 && rest.isEmpty then
      some (shown :: twoDigits (total / 60) ++ ':' :: twoDigits (total % 60))
    else none

/-- The moment that a string says, in its usual form. -/
def momentOfText? (s : Text) : Option Text := do
  if s[2]? == some ':' then
    let (time, rest) ← timeUpTo? 24 s
    if rest.isEmpty then some time else none
  else
    let (date, rest) ← date? s
    match rest with
    | [] => some date
    | 'T' :: rest | 't' :: rest | ' ' :: rest =>
      let (time, rest) ← timeUpTo? 24 rest
      some (date ++ 'T' :: time ++ (← lastOffset? rest))
    | _ => none

/-- The first key of a table that is a moment. -/
def momentKey : Text := "$__toml_private_datetime".toList

def momentOf? : Toml → Option Toml
  | .string s => (momentOfText? s).map .moment
  | _ => none

mutual

/-- The value with moments in place of the tables that stand for them. -/
def withMoments? : Toml → Option Toml
  | .array items => (itemsWithMoments? items).map .array
  | .table ((key, value) :: rest) =>
    if key == momentKey then momentOf? value
    else do
      let value ← withMoments? value
      let rest ← entriesWithMoments? rest
      some (.table ((key, value) :: rest))
  | value => some value

def itemsWithMoments? : List Toml → Option (List Toml)
  | [] => some []
  | item :: rest => do
    let item ← withMoments? item
    let rest ← itemsWithMoments? rest
    some (item :: rest)

/-- Looks into the values of a table that is not a moment itself. -/
def entriesWithMoments? : List (Text × Toml) → Option (List (Text × Toml))
  | [] => some []
  | (key, value) :: rest => do
    let value ← withMoments? value
    let rest ← entriesWithMoments? rest
    some ((key, value) :: rest)

end

end VbOutline.Toml
