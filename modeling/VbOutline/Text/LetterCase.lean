import VbOutline.Text.Basic
import VbOutline.Text.CaseTable

/-!
# Letter case

Three comparisons that ignore case are in use. Keywords of the grammar are compared by simple case
folding, under which the long s is an `s` and the Kelvin sign a `k`. Names, modifiers and codes are
compared in ASCII case only. Searches in names and option values compare full lower-case forms.
-/

namespace VbOutline.Text

def asciiLower (s : Text) : Text := s.map Char.toLower

/-- Equal up to ASCII case. -/
def eqAscii : Text → Text → Bool
  | [], [] => true
  | a :: as, b :: bs => a.toLower == b.toLower && eqAscii as bs
  | _, _ => false

theorem eqAscii_eq (a b : Text) : eqAscii a b = (asciiLower a == asciiLower b) := by
  induction a generalizing b with
  | nil => cases b <;> simp [eqAscii, asciiLower]
  | cons x xs ih =>
    cases b with
    | nil => simp [eqAscii, asciiLower]
    | cons y ys => simp [eqAscii, asciiLower, ih]

/-! ## Case folding of keywords -/

/-- The simple case folding of the characters that fold to an ASCII letter; all others stay. -/
def foldChar (c : Char) : Char :=
  if c == 'ſ' then 's' else if c == '\u212A' then 'k' else c.toLower

/-- The form in which a word is compared with keywords, which are listed in lower case. -/
def folded (word : Text) : String := String.ofList (word.map foldChar)

def isKeyword (keyword : String) (word : Text) : Bool := folded word == keyword

def isOneOf (keywords : List String) (word : Text) : Bool := keywords.contains (folded word)

/-! ## Upper and lower case -/

def isUpper (c : Char) : Bool :=
  if c.toNat < 128 then c.isUpper else inRuns upperRuns c

def isLower (c : Char) : Bool :=
  if c.toNat < 128 then c.isLower else inRuns lowerRuns c

def isCased (c : Char) : Bool :=
  isUpper c || isLower c || titleLetters.contains c.toNat

def isCaseNeutral (c : Char) : Bool := caseNeutrals.contains c.toNat

/-- The lower-case form of a character that stands alone. -/
def lowerChar (c : Char) : Text :=
  if c.toNat < 128 then [c.toLower]
  else if c.toNat == 0x130 then ['i', '\u0307']
  else
    match lowerShifts.find? fun s ↦ s.run.holds c.toNat with
    | some s => [Char.ofNat ((c.toNat : Int) + s.shift).toNat]
    | none => [c]

/-- Whether the nearest character that is not case-neutral has a case. -/
def meetsCased (s : Text) : Bool :=
  ((s.dropWhile isCaseNeutral).head?.map isCased).getD false

/-- A capital sigma has its final form where a cased letter comes before it and none after it. -/
def lowerSigma (before after : Text) : Char :=
  if meetsCased before && !meetsCased after then 'ς' else 'σ'

/-- Lower-cases `s`, given the characters before it in reverse order. -/
def lowerFrom (before : Text) : Text → Text
  | [] => []
  | c :: rest =>
    (if c == 'Σ' then [lowerSigma before rest] else lowerChar c) ++ lowerFrom (c :: before) rest

/-- The full lower-case form of a text. -/
def lower (s : Text) : Text := lowerFrom [] s

end VbOutline.Text
