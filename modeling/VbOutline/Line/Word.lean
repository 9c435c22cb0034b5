import VbOutline.Text.LetterCase

/-!
# Words in a line

A word is a maximal run of word characters. Keywords are recognised as whole words and up to case
folding; occurrences of a name are looked for in ASCII case and delimited by identifier characters.
-/

namespace VbOutline.Line

open Text

/-- The word at the beginning of a text, possibly empty. -/
def leadingWord (s : Text) : Text := s.takeWhile isWordChar

/-- The rest of a text that begins with one of the keywords, together with the keyword as written. -/
def keyword? (keywords : List String) (s : Text) : Option (Text × Text) :=
  if isOneOf keywords (leadingWord s) then some (leadingWord s, s.dropWhile isWordChar) else none

def startsWithKeyword (keywords : List String) (s : Text) : Bool :=
  isOneOf keywords (leadingWord s)

/-- The text up to the first white space. -/
def leadingChunk (s : Text) : Text := s.takeWhile fun c ↦ !isSpace c

/-- The text from the first white space on. -/
def afterChunk (s : Text) : Text := s.dropWhile fun c ↦ !isSpace c

theorem length_dropWhile_le (p : Char → Bool) (s : Text) : (s.dropWhile p).length ≤ s.length :=
  (List.dropWhile_suffix p).length_le

theorem length_splitFirst?_lt {sep : Char} {s before rest : Text}
    (h : splitFirst? sep s = some (before, rest)) : rest.length < s.length := by
  unfold splitFirst? at h
  split at h
  · simp at h
  · next c tail htail =>
    have hle := length_dropWhile_le (· != sep) s
    simp only [Option.some.injEq, Prod.mk.injEq] at h
    rw [htail, List.length_cons, h.2] at hle
    omega

theorem length_trimStart_lt {s : Text} (h : afterChunk s ≠ []) :
    (trimStart (afterChunk s)).length < s.length := by
  have hle : (afterChunk s).length ≤ s.length := length_dropWhile_le _ s
  cases hs : afterChunk s with
  | nil => exact absurd hs h
  | cons c rest =>
    have hc : isSpace c = true := by
      have hhead := List.head?_dropWhile_not (fun c ↦ !isSpace c) s
      unfold afterChunk at hs
      rw [hs] at hhead
      simpa using hhead
    have hrest : (trimStart rest).length ≤ rest.length := length_dropWhile_le _ rest
    have htrim : trimStart (c :: rest) = trimStart rest := by
      simp [trimStart, hc]
    rw [htrim]
    rw [hs] at hle
    simp only [List.length_cons] at hle
    omega

/-- Splits off the leading words that are among `allowed` and followed by white space. -/
def takeModifiers (allowed : List String) (s : Text) : List Text × Text :=
  if _h : isOneOf allowed (leadingChunk s) = true ∧ afterChunk s ≠ [] then
    let more := takeModifiers allowed (trimStart (afterChunk s))
    (leadingChunk s :: more.1, more.2)
  else ([], s)
termination_by s.length
decreasing_by exact length_trimStart_lt _h.2

/-- The words of a text and the runs of other characters between them. -/
def runs (s : Text) : List Text := s.splitBy fun a b ↦ isWordChar a == isWordChar b

/-- The text before the first run that satisfies `p`, the run, and the text after it. -/
def findWord? (p : Text → Bool) (s : Text) : Option (Text × Text × Text) :=
  match (runs s).dropWhile fun r ↦ !p r with
  | [] => none
  | word :: after => some (((runs s).takeWhile fun r ↦ !p r).flatten, word, after.flatten)

/-- The text before the first white space that is followed by one of the words. Only the first
character of a run of white space is looked at; `inSpace` tells whether a run goes on. -/
def cutFrom (words : List String) (inSpace : Bool) : Text → Text
  | [] => []
  | c :: rest =>
    if !inSpace && isSpace c && startsWithKeyword words (trimStart rest) then []
    else c :: cutFrom words (isSpace c) rest

def cutBefore (words : List String) (s : Text) : Text := cutFrom words false s

/-- The rest of a text after an ASCII keyword at its beginning; the rest may not be empty. -/
def stripKeyword? (keyword : String) (s : Text) : Option Text :=
  let n := keyword.length
  if eqAscii (s.take n) keyword.toList && !(s.drop n).isEmpty then some (s.drop n) else none

/-- Whether a text begins with a word that is given in lower case. -/
def startsAscii : Text → Text → Bool
  | [], _ => true
  | _ :: _, [] => false
  | a :: word, b :: rest => a == b.toLower && startsAscii word rest

/-- Looks for `word` from left to right, each search beginning after the previous occurrence.
`before` is the character before the text, a blank if there is none, and `skip` the rest of an
occurrence passed over. -/
def occursFrom (word : Text) (before : Char) (skip : Nat) : Text → Bool
  | [] => false
  | c :: rest =>
    match skip with
    | k + 1 => occursFrom word c k rest
    | 0 =>
      if startsAscii word (c :: rest) then
        (!isIdentChar before && !((c :: rest).drop word.length).head?.any isIdentChar) ||
          occursFrom word c (word.length - 1) rest
      else occursFrom word c 0 rest

/-- Whether `word` occurs as a whole word, in any ASCII case. -/
def containsWord (s word : Text) : Bool :=
  !word.isEmpty && occursFrom (asciiLower word) ' ' 0 s

/-- The text before the first marker of open work in a comment, the marker, and the text after it. -/
def findTodo? (comment : Text) : Option (Text × Text × Text) :=
  findWord? (fun w ↦ w == "TODO".toList || w == "FIXME".toList) comment

/-- The first marker of open work in a comment, with its byte offset. -/
def todoMarker? (comment : Text) : Option (Nat × Text) :=
  (findTodo? comment).map fun (before, word, _) ↦ (byteSize before, word)

/-- A statement that leaves its block. -/
def isTerminator (text : Text) : Bool :=
  startsWithKeyword ["return", "throw"] text

def reservedWords : List String := [
  "addhandler", "alias", "and", "andalso", "as", "byref", "byval", "call", "case", "catch",
  "class", "const", "declare", "default", "delegate", "dim", "do", "each", "else", "elseif",
  "end", "enum", "erase", "error", "event", "exit", "false", "finally", "for", "friend",
  "function", "get", "goto", "handles", "if", "implements", "imports", "in", "inherits",
  "interface", "is", "isnot", "let", "lib", "loop", "me", "mod", "module", "mustinherit",
  "mustoverride", "mybase", "namespace", "new", "next", "not", "nothing", "notinheritable",
  "notoverridable", "of", "on", "operator", "optional", "or", "orelse", "overloads",
  "overridable", "overrides", "paramarray", "partial", "private", "property", "protected",
  "public", "raiseevent", "readonly", "redim", "removehandler", "resume", "return", "select",
  "set", "shadows", "shared", "static", "step", "structure", "sub", "synclock", "then",
  "throw", "to", "true", "try", "until", "using", "wend", "when", "while", "with",
  "withevents", "writeonly"]

def isReserved (word : Text) : Bool :=
  reservedWords.contains (String.ofList (asciiLower word))

end VbOutline.Line
