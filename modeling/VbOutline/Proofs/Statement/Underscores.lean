import Mathlib.Algebra.Order.BigOperators.Group.List
import Mathlib.Algebra.Order.Group.Nat
import VbOutline.Proofs.Line.Nesting
import VbOutline.Proofs.Line.Words
import VbOutline.Proofs.Statement.Names

/-!
# Underscores at the end of names

A line that goes on in the next one ends with an underscore that stands alone. Four parts of a line may
be cut off by such a marker: an open parameter list, an argument, a return type, and a name of an
implements clause. All underscores at the end of these parts are dropped, whether or not the line is
continued and whether or not the part stands at its end. So such a part is read as it is written if and
only if it does not end with an underscore.
-/

namespace VbOutline

open Text Line

namespace Text

variable {s t : Text}

theorem dropEndWhile_cons (p : Char → Bool) (c : Char) (s : Text) :
    dropEndWhile p (c :: s) =
      if (dropEndWhile p s).isEmpty && p c then [] else c :: dropEndWhile p s := by
  rw [dropEndWhile, dropEndWhile, List.reverse_cons, List.dropWhile_append, List.isEmpty_reverse]
  cases hdropped : (s.reverse.dropWhile p).isEmpty with
  | true =>
    rw [List.isEmpty_iff.1 hdropped]
    cases hc : p c <;> simp [hc]
  | false => simp

/-- It makes no difference which end is dropped first. -/
theorem dropWhile_dropEndWhile (p q : Char → Bool) (s : Text) :
    (dropEndWhile q s).dropWhile p = dropEndWhile q (s.dropWhile p) := by
  induction s with
  | nil => rfl
  | cons c s ih =>
    rw [dropEndWhile_cons, List.dropWhile_cons]
    cases hc : p c with
    | true =>
      rw [if_pos rfl, ← ih]
      split
      · next hempty =>
        rw [List.isEmpty_iff.1 (Bool.and_eq_true_iff.1 hempty).1]
      · rw [List.dropWhile_cons_of_pos hc]
    | false =>
      rw [if_neg Bool.false_ne_true, dropEndWhile_cons]
      split
      · rfl
      · rw [List.dropWhile_cons_of_neg (by simp [hc])]

/-- A beginning that ends with something else is not dropped at the end. -/
theorem isPrefix_dropEndWhile {p : Char → Bool} (h : t <+: s)
    (hlast : ∀ c ∈ t.getLast?, p c = false) : t <+: dropEndWhile p s := by
  obtain ⟨dropped, hs, hdropped⟩ := exists_eq_dropEndWhile_append p s
  generalize dropEndWhile p s = kept at hs
  subst hs
  obtain hshort | ⟨more, rfl⟩ := List.prefix_or_prefix_of_prefix h (List.prefix_append kept dropped)
  · exact hshort
  · rw [List.prefix_append_right_inj] at h
    obtain rfl | ⟨front, c, rfl⟩ := List.eq_nil_or_concat' more
    · rw [List.append_nil]
    · have hc : p c = true := hdropped c (h.subset (by simp))
      rw [← List.append_assoc, List.getLast?_concat] at hlast
      cases hc.symm.trans (hlast c rfl)

/-- A part of a line without the underscores at its end, and without white space before them. -/
def withoutMarker (s : Text) : Text := trimEnd (dropUnderscores s)

theorem withoutMarker_isPrefix (s : Text) : withoutMarker s <+: s :=
  (trimEnd_isPrefix _).trans (dropEndWhile_isPrefix _ s)

theorem exists_eq_withoutMarker_append (s : Text) :
    ∃ dropped, s = withoutMarker s ++ dropped ∧ ∀ c ∈ dropped, c = '_' ∨ isSpace c := by
  obtain ⟨underscores, hs, hunderscores⟩ := exists_eq_dropEndWhile_append (· == '_') s
  obtain ⟨spaces, hkept, hspaces⟩ := exists_eq_trimEnd_append (dropUnderscores s)
  refine ⟨spaces ++ underscores, ?_, ?_⟩
  · calc
      s = dropUnderscores s ++ underscores := hs
      _ = (withoutMarker s ++ spaces) ++ underscores := congrArg (· ++ underscores) hkept
      _ = withoutMarker s ++ (spaces ++ underscores) := List.append_assoc _ _ _
  · intro c hc
    obtain hspace | hunderscore := List.mem_append.1 hc
    · exact .inr (hspaces c hspace)
    · exact .inl (beq_iff_eq.1 (hunderscores c hunderscore))

theorem trim_dropUnderscores (s : Text) :
    trim (dropUnderscores (trimEnd s)) = withoutMarker (trim s) := by
  have hstart : trimStart (dropUnderscores (trimEnd s)) = dropUnderscores (trim s) :=
    calc
      trimStart (dropUnderscores (trimEnd s)) = dropUnderscores (trimStart (trimEnd s)) :=
        dropWhile_dropEndWhile isSpace _ _
      _ = dropUnderscores (trim s) := congrArg _ (dropWhile_dropEndWhile isSpace isSpace s)
  rw [trim, hstart]
  rfl

theorem length_withoutMarker_lt (h : s.getLast? = some '_') :
    (withoutMarker s).length < s.length := by
  obtain ⟨front, rfl⟩ := List.getLast?_eq_some_iff.1 h
  have hdropped : dropUnderscores (front ++ ['_']) = dropUnderscores front :=
    List.rdropWhile_concat_pos _ _ _ rfl
  calc
    (withoutMarker (front ++ ['_'])).length = (withoutMarker front).length := by
      rw [withoutMarker, hdropped, withoutMarker]
    _ ≤ front.length := (withoutMarker_isPrefix front).length_le
    _ < (front ++ ['_']).length := by simp

/-- A trimmed part is left as it is if and only if it does not end with an underscore. -/
theorem withoutMarker_eq_self_iff (h : trimEnd s = s) :
    withoutMarker s = s ↔ s.getLast? ≠ some '_' := by
  constructor
  · intro hkept hlast
    have hlt := length_withoutMarker_lt hlast
    rw [hkept] at hlt
    exact Nat.lt_irrefl _ hlt
  · intro hlast
    rw [withoutMarker, dropUnderscores_eq_self hlast, h]

/-- Trimmed parts that are not empty are left as they are if and only if none of them ends with an
underscore. -/
theorem map_withoutMarker_eq_iff {parts : List Text} (h : ∀ s ∈ parts, trimEnd s = s) :
    (parts.map withoutMarker).filter (fun s ↦ !s.isEmpty) = parts.filter (fun s ↦ !s.isEmpty) ↔
      ∀ s ∈ parts.filter (fun s ↦ !s.isEmpty), s.getLast? ≠ some '_' := by
  constructor
  · intro hsame s hmem hlast
    have hs : s ∈ parts := (List.mem_filter.1 hmem).1
    -- fewer characters are left than there were
    have hlength := congrArg (fun texts : List Text ↦ texts.flatten.length) hsame
    simp only [List.flatten_filter_not_isEmpty, List.length_flatten, List.map_map] at hlength
    have hlt : (parts.map (List.length ∘ withoutMarker)).sum < (parts.map List.length).sum := by
      apply List.sum_lt_sum
      · exact fun t _ ↦ (withoutMarker_isPrefix t).length_le
      · exact ⟨s, hs, length_withoutMarker_lt hlast⟩
    omega
  · intro hnone
    have hkept : parts.map withoutMarker = parts.map id := by
      apply List.map_congr_left
      intro s hs
      cases s with
      | nil => rfl
      | cons c s =>
        have hlast := hnone (c :: s) (List.mem_filter.2 ⟨hs, rfl⟩)
        exact (withoutMarker_eq_self_iff (h _ hs)).2 hlast
    rw [hkept, List.map_id]

end Text

namespace Argument

/-- A piece of a parameter list from its name on, as it is written. -/
def text? (piece : Text) : Option Text :=
  (skipAttributes (trimStart piece)).map fun declared ↦ trimEnd (skipPassing declared)

/-- How an argument is read from its text. -/
structure IsReadFrom (a : Argument) (text : Text) : Prop where
  name : a.name = text.takeWhile isIdentChar
  /-- The signature is the whole text unless the text ends with an underscore. -/
  signature : a.signature = text ↔ text.getLast? ≠ some '_'
  /-- The signature begins with the name unless the name is all of the text and ends with an
  underscore. -/
  begins : a.name <+: a.signature ↔ ¬ (text = a.name ∧ text.getLast? = some '_')

/-- White space at the end of a text does not belong to the name at its beginning. -/
theorem takeWhile_isIdentChar_trimEnd (s : Text) :
    (trimEnd s).takeWhile isIdentChar = s.takeWhile isIdentChar := by
  obtain ⟨spaces, hs, hspaces⟩ := exists_eq_trimEnd_append s
  have hnone : spaces.takeWhile isIdentChar = [] := by
    cases spaces with
    | nil => rfl
    | cons c spaces =>
      have hc := not_isIdentChar_of_isSpace (hspaces c List.mem_cons_self)
      exact List.takeWhile_cons_of_neg (by simp [hc])
  conv_rhs => rw [hs]
  rw [List.takeWhile_append, hnone, List.append_nil]
  split
  · next hall => exact (List.takeWhile_prefix isIdentChar).eq_of_length hall
  · rfl

theorem isPrefix_withoutMarker_iff {text : Text} (h : trimEnd text = text) :
    text.takeWhile isIdentChar <+: withoutMarker text ↔
      ¬ (text = text.takeWhile isIdentChar ∧ text.getLast? = some '_') := by
  have hsplit : text.takeWhile isIdentChar ++ text.dropWhile isIdentChar = text :=
    List.takeWhile_append_dropWhile
  have hident : ∀ c ∈ text.takeWhile isIdentChar, isIdentChar c := fun _ ↦ List.mem_takeWhile_imp
  have hfollows := List.head?_dropWhile_not isIdentChar text
  generalize text.takeWhile isIdentChar = name at hsplit hident ⊢
  generalize text.dropWhile isIdentChar = rest at hsplit hfollows
  subst hsplit
  constructor
  · rintro hbegins ⟨hwhole, hlast⟩
    rw [hwhole] at hbegins hlast
    have hlt := length_withoutMarker_lt hlast
    have hle := hbegins.length_le
    omega
  · intro hnot
    by_cases hlast : (name ++ rest).getLast? = some '_'
    · cases rest with
      | nil => exact absurd ⟨List.append_nil name, hlast⟩ hnot
      | cons c rest =>
        -- the underscores are dropped behind what follows the name
        have hc : isIdentChar c = false := by simpa using hfollows
        have hdropped : name ++ [c] <+: dropUnderscores (name ++ c :: rest) := by
          apply isPrefix_dropEndWhile
          · exact (List.prefix_append_right_inj name).2 ⟨rest, rfl⟩
          · rw [List.getLast?_concat]
            rintro _ ⟨⟩
            rw [beq_eq_false_iff_ne]
            rintro rfl
            cases hc
        apply isPrefix_dropEndWhile ((List.prefix_append name [c]).trans hdropped)
        intro d hd
        rw [Bool.eq_false_iff]
        intro hspace
        cases (hident d (List.mem_of_getLast? hd)).symm.trans (not_isIdentChar_of_isSpace hspace)
    · rw [(withoutMarker_eq_self_iff h).2 hlast]
      exact List.prefix_append name rest

theorem isReadFrom_of_ofPiece? {offset : Nat} {piece : Text} {a : Argument}
    (h : ofPiece? offset piece = some a) : ∃ text ∈ text? piece, a.IsReadFrom text := by
  unfold ofPiece? at h
  split at h
  · next declared hdeclared =>
    rw [Option.ite_none_left_eq_some, Option.some.injEq] at h
    obtain ⟨-, rfl⟩ := h
    have htrim : trimEnd (trimEnd (skipPassing declared)) = trimEnd (skipPassing declared) :=
      trimEnd_trimEnd _
    have hname := takeWhile_isIdentChar_trimEnd (skipPassing declared)
    refine ⟨trimEnd (skipPassing declared), by rw [text?, hdeclared]; rfl, hname.symm, ?_, ?_⟩
    · exact withoutMarker_eq_self_iff htrim
    · dsimp only
      rw [← hname]
      exact isPrefix_withoutMarker_iff htrim
  · cases h

end Argument

/-! ## Headers -/

namespace Header

/-- The parameter list as it is written: up to the parenthesis that closes it or, if there is none, up
to the end of the line. -/
def Groups.written (g : Groups) : Text :=
  match takeGroup? ('(' :: g.paramsTail) with
  | some (inner, _) => trim inner
  | none => trim g.paramsTail

/-- The parameter list is not closed on its line. -/
def Groups.IsOpen (g : Groups) : Prop := takeGroup? ('(' :: g.paramsTail) = none

/-- The return type as it is written, up to a clause that may follow it. -/
def Groups.returnText? (g : Groups) : Option Text :=
  match stripKeyword? "as " (trim g.rest) with
  | some after =>
    let text := trim (cutBefore ["implements", "handles"] (trimStart after))
    if text.isEmpty then none else some text
  | none => none

/-- How a header is read from its groups. -/
structure IsReadFrom (h : Header) (g : Groups) : Prop where
  /-- The parameter list is read as it is written unless it is open and ends with an underscore. -/
  list : ∀ list ∈ h.params, list = g.written ↔ ¬ (g.IsOpen ∧ g.written.getLast? = some '_')
  /-- Its pieces are those that are written, apart from the end of the last one. -/
  pieces : ∀ list ∈ h.params, ∃ front last cut,
    pieces g.written = front ++ [last] ∧ pieces list = front ++ [cut] ∧ cut <+: last
  arguments : ∀ list ∈ h.params, ∀ p ∈ splitTopLevel list,
    ∀ a ∈ Argument.ofPiece? (h.paramsOffset + p.1) p.2, ∃ text ∈ Argument.text? p.2, a.IsReadFrom text
  /-- The return type is read as it is written unless it ends with an underscore. -/
  returnType : h.returnType = g.returnText? ↔ ∀ text ∈ g.returnText?, text.getLast? ≠ some '_'

theorem Groups.trimEnd_written (g : Groups) : trimEnd g.written = g.written := by
  rw [written]
  split
  · exact trimEnd_trim _
  · exact trimEnd_trim _

/-- A closed list is read as a whole, and an open one without a marker at its end. -/
def Groups.Listed (g : Groups) : Prop :=
  ∀ list ∈ g.params,
    g.IsOpen ∧ list = withoutMarker g.written ∨ ¬ g.IsOpen ∧ list = g.written

theorem readGroups_listed (n : Nat) {g : Groups} (hg : g.Listed) : (readGroups n g).Listed := by
  induction n generalizing g with
  | zero => exact hg
  | succ n ih =>
    rw [readGroups]
    split
    · next inside _ =>
      split
      · next inner after htake =>
        split
        · exact ih hg
        · apply ih
          rintro _ ⟨⟩
          right
          simp [Groups.IsOpen, Groups.written, htake]
      · next htake =>
        rintro _ ⟨⟩
        left
        simp [Groups.IsOpen, Groups.written, htake, trim_dropUnderscores]
    · exact hg

/-- The groups after the name of a header. -/
def groupsOf (code : Text) : Groups :=
  let named := trimStart (afterChunk (takeModifiers modifierWords (trim code)).2)
  let rest := named.drop ((dottedName? named).getD []).length
  readGroups 2 ⟨none, none, rest, skipLibraryClauses rest⟩

theorem groupsOf_listed (code : Text) : (groupsOf code).Listed := by
  apply readGroups_listed
  rintro _ ⟨⟩

theorem parse?_groupsOf {code : Text} {h : Header} (hparse : parse? code = some h) :
    h.params = (groupsOf code).params ∧ h.returnType = returnType? (groupsOf code).rest := by
  unfold parse? at hparse
  dsimp only at hparse
  split at hparse
  · split at hparse
    · next block name _ hname =>
      obtain rfl := Option.some.inj hparse
      rw [groupsOf, hname]
      exact ⟨rfl, rfl⟩
    · cases hparse
  · cases hparse

section

variable {g : Groups} {list : Text}

theorem Groups.Listed.eq_written_iff (hg : g.Listed) (hlist : list ∈ g.params) :
    list = g.written ↔ ¬ (g.IsOpen ∧ g.written.getLast? = some '_') := by
  obtain ⟨hopen, rfl⟩ | ⟨hclosed, rfl⟩ := hg list hlist
  · rw [withoutMarker_eq_self_iff g.trimEnd_written, and_iff_right hopen]
  · exact iff_of_true rfl fun h ↦ hclosed h.1

theorem Groups.Listed.exists_pieces (hg : g.Listed) (hlist : list ∈ g.params) :
    ∃ front last cut, Line.pieces g.written = front ++ [last] ∧ Line.pieces list = front ++ [cut] ∧
      cut <+: last := by
  obtain ⟨dropped, hwritten, hdropped⟩ : ∃ dropped, g.written = list ++ dropped ∧ ',' ∉ dropped := by
    obtain ⟨-, rfl⟩ | ⟨-, rfl⟩ := hg list hlist
    · obtain ⟨dropped, hsplit, hdropped⟩ := exists_eq_withoutMarker_append g.written
      refine ⟨dropped, hsplit, fun hcomma ↦ ?_⟩
      obtain hunderscore | hspace := hdropped ',' hcomma
      · cases hunderscore
      · cases hspace
    · exact ⟨[], (List.append_nil _).symm, List.not_mem_nil⟩
  obtain ⟨front, cut, hcut, hlast⟩ := pieces_append_of_not_mem list hdropped
  exact ⟨front, cut ++ dropped, cut, hwritten ▸ hlast, hcut, List.prefix_append cut dropped⟩

theorem returnType?_eq_returnText?_iff (g : Groups) :
    returnType? g.rest = g.returnText? ↔ ∀ text ∈ g.returnText?, text.getLast? ≠ some '_' := by
  rw [returnType?, Groups.returnText?]
  cases stripKeyword? "as " (trim g.rest) with
  | none => simp
  | some after =>
    simp only [trim_dropUnderscores]
    have htrim := trimEnd_trim (cutBefore ["implements", "handles"] (trimStart after))
    generalize trim (cutBefore ["implements", "handles"] (trimStart after)) = text at htrim
    cases hempty : text.isEmpty with
    | true =>
      rw [List.isEmpty_iff.1 hempty]
      simp [withoutMarker, dropUnderscores, dropEndWhile, trimEnd]
    | false =>
      rw [if_neg Bool.false_ne_true]
      simp only [Option.mem_some_iff, forall_eq']
      rw [← withoutMarker_eq_self_iff htrim]
      constructor
      · intro hread
        rw [Option.ite_none_left_eq_some] at hread
        exact Option.some.inj hread.2
      · intro hkept
        rw [hkept, hempty, if_neg Bool.false_ne_true]

end

theorem isReadFrom_groupsOf {code : Text} {h : Header} (hparse : parse? code = some h) :
    h.IsReadFrom (groupsOf code) := by
  obtain ⟨hparams, hreturn⟩ := parse?_groupsOf hparse
  have hlisted := groupsOf_listed code
  refine ⟨?_, ?_, ?_, ?_⟩
  · rw [hparams]
    exact fun _ ↦ hlisted.eq_written_iff
  · rw [hparams]
    exact fun _ ↦ hlisted.exists_pieces
  · exact fun _ _ _ _ _ ↦ Argument.isReadFrom_of_ofPiece?
  · rw [hreturn]
    exact returnType?_eq_returnText?_iff (groupsOf code)

end Header

namespace Statement

/-- The names of an implements clause as they are written. -/
def nameTexts (code : Text) : List Text :=
  let list := (afterSpacedWord? "implements" (trim code)).getD []
  ((pieces list).map trim).filter fun name ↦ !name.isEmpty

theorem map_name_implements? {text : Text} {names : List PlacedName}
    (h : implements? text = some names) :
    names.map PlacedName.name =
      (((pieces ((afterSpacedWord? "implements" text).getD [])).map trim).map withoutMarker).filter
        fun name ↦ !name.isEmpty := by
  unfold implements? at h
  split at h
  · next rest hrest =>
    dsimp only at h
    rw [Option.ite_none_left_eq_some, Option.some.injEq] at h
    obtain ⟨-, rfl⟩ := h
    rw [hrest, Option.getD_some, splitTopLevel, List.map_map]
    generalize 0 = start
    induction pieces rest generalizing start with
    | nil => rfl
    | cons piece cut ih =>
      have hname := trim_dropUnderscores (trimStart piece)
      rw [trim_trimStart, show trimEnd (trimStart piece) = trim piece from rfl] at hname
      rw [withOffsets, List.filterMap_cons, List.map_cons, List.filter_cons,
        ← ih (start + byteSize piece + 1), Function.comp_apply]
      simp only [hname]
      cases (withoutMarker (trim piece)).isEmpty with
      | true => simp
      | false => simp
  · cases h

theorem map_name_eq_nameTexts_iff {code : Text} {names : List PlacedName}
    (h : implements? (trim code) = some names) :
    names.map PlacedName.name = nameTexts code ↔
      ∀ name ∈ nameTexts code, name.getLast? ≠ some '_' := by
  rw [map_name_implements? h, nameTexts]
  apply map_withoutMarker_eq_iff
  intro name hname
  obtain ⟨piece, -, rfl⟩ := List.mem_map.1 hname
  exact trimEnd_trim piece

/-! ## Classified lines -/

/-- On every line the parts of a header and the names of an implements clause are read as they are
written up to underscores at their ends: a part is cut if and only if it ends with one. -/
theorem parse_isReadFrom (code : Text) :
    (∀ h, parse code = .header h → h.IsReadFrom (Header.groupsOf code)) ∧
      ∀ names, parse code = .implements names →
        (names.map PlacedName.name = nameTexts code ↔
          ∀ name ∈ nameTexts code, name.getLast? ≠ some '_') := by
  have hread := readFrom_parse code
  constructor
  · intro h hparse
    rw [hparse] at hread
    exact Header.isReadFrom_groupsOf hread
  · intro names hparse
    rw [hparse] at hread
    obtain ⟨found, hfound, rfl⟩ := hread
    rw [List.map_map]
    exact map_name_eq_nameTexts_iff hfound

/-- The last argument of an open list loses its underscore on a line that is not continued. -/
theorem parse_isReadFrom_openList :
    let code := "Sub Run(first, second_".toList
    isContinued code = false ∧ ∃ h, parse code = .header h ∧
      h.params = some "first, second".toList ∧
      "first, second".toList ≠ (Header.groupsOf code).written := by
  intro code
  have hparse : parse code = .header
      { block := .sub
        modifiers := []
        name := "Run".toList
        nameOffset := 4
        typeParams := none
        params := some "first, second".toList
        paramsOffset := 8
        returnType := none
        continued := false } := by
    decide +kernel
  have hopen : (Header.groupsOf code).IsOpen := by
    unfold Header.Groups.IsOpen
    decide +kernel
  have hlast : (Header.groupsOf code).written.getLast? = some '_' := by
    decide +kernel
  refine ⟨by decide, _, hparse, rfl, ?_⟩
  intro hwhole
  exact (((parse_isReadFrom code).1 _ hparse).list _ rfl).1 hwhole ⟨hopen, hlast⟩

/-- An interface, an argument without a type and a return type whose names end with an underscore. -/
theorem parse_trailingUnderscores :
    let clause := "Implements IRun_".toList
    let header := "Function Pick(first_) As Node_".toList
    isContinued clause = false ∧ parse clause = .implements [⟨"IRun".toList, 11⟩] ∧
      isContinued header = false ∧
      parse header = .header
        { block := .function
          modifiers := []
          name := "Pick".toList
          nameOffset := 9
          typeParams := none
          params := some "first_".toList
          paramsOffset := 14
          returnType := some "Node".toList
          continued := false } ∧
      Argument.parse "first_".toList 14 = [⟨"first_".toList, 14, "first".toList⟩] := by
  refine ⟨by decide, by decide +kernel, by decide, by decide +kernel, by decide +kernel⟩

end Statement

end VbOutline
