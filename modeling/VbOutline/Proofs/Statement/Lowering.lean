import VbOutline.Proofs.Line.Lowering
import VbOutline.Proofs.Statement.Names

/-!
# Statements in lower case

A line of code in lower case reads as the same statement with its names and texts in lower case and
all offsets as they are. Only the name that stands for the missing name of a region is not read, so
it has the same letters in both.
-/

namespace VbOutline

open Text Line

namespace Argument

def lowered (a : Argument) : Argument :=
  { a with name := asciiLower a.name, signature := asciiLower a.signature }

@[simp]
theorem skipAttributes_asciiLower (s : Text) :
    skipAttributes (asciiLower s) = (skipAttributes s).map asciiLower := by
  have hhead (s : Text) : ((asciiLower s).head? == some '<') = (s.head? == some '<') := by
    cases s with
    | nil => rfl
    | cons c s => exact toLower_beq (by decide) c
  fun_induction skipAttributes s with
  | case1 s h before rest hsplit ih =>
    rw [skipAttributes, hhead, if_pos h]
    split
    · next before' rest' hsplit' =>
      rw [splitFirst?_asciiLower _ rfl, hsplit, Option.map_some, Option.some.injEq] at hsplit'
      obtain ⟨-, rfl⟩ := Prod.mk.inj hsplit'
      rw [trimStart_asciiLower, ih]
    · next hsplit' =>
      rw [splitFirst?_asciiLower _ rfl, hsplit] at hsplit'
      cases hsplit'
  | case2 s h hsplit =>
    rw [skipAttributes, hhead, if_pos h]
    split
    · next hsplit' =>
      rw [splitFirst?_asciiLower _ rfl, hsplit] at hsplit'
      cases hsplit'
    · rfl
  | case3 s h =>
    rw [skipAttributes, hhead, if_neg h, Option.map_some]

@[simp]
theorem isPassing_asciiLower (word : Text) : isPassing (asciiLower word) = isPassing word := by
  simp [isPassing]

@[simp]
theorem skipPassing_asciiLower (s : Text) :
    skipPassing (asciiLower s) = asciiLower (skipPassing s) := by
  fun_induction skipPassing s with
  | case1 s h ih =>
    rw [skipPassing]
    simpa [h] using ih
  | case2 s h =>
    rw [skipPassing]
    simp_all

theorem ofPiece?_asciiLower (offset : Nat) (piece : Text) :
    ofPiece? offset (asciiLower piece) = (ofPiece? offset piece).map lowered := by
  rw [ofPiece?, ofPiece?, trimStart_asciiLower, skipAttributes_asciiLower]
  cases skipAttributes (trimStart piece) with
  | none => rfl
  | some declared =>
    simp only [Option.map_some, skipPassing_asciiLower, takeWhile_asciiLower CaseBlind.isIdentChar,
      isEmpty_asciiLower, any_head?_asciiLower CaseBlind.isAsciiDigit, offsetOf_asciiLower,
      trimEnd_asciiLower, dropUnderscores_asciiLower]
    split <;> rfl

theorem parse_asciiLower (params : Text) (offset : Nat) :
    parse (asciiLower params) offset = (parse params offset).map lowered := by
  rw [parse, parse, splitTopLevel_asciiLower, List.filterMap_map, List.map_filterMap]
  congr 1
  funext piece
  exact ofPiece?_asciiLower _ _

end Argument

namespace TypeClause

def lowered (t : TypeClause) : TypeClause := { t with type := asciiLower t.type }

@[simp]
theorem withoutArguments_asciiLower (type : Text) :
    withoutArguments (asciiLower type) = asciiLower (withoutArguments type) := by
  simp only [withoutArguments, trim_asciiLower, splitLast?_asciiLower '(' rfl,
    getLast?_beq_asciiLower ')' rfl]
  cases splitLast? '(' (trim type) with
  | none => rfl
  | some parts =>
    simp only [Option.map_some, lowerBoth, isGenericGroup_asciiLower, trimEnd_asciiLower]
    split <;> rfl

theorem typeName_lowered (t : TypeClause) : t.lowered.typeName = asciiLower t.typeName := by
  simp only [typeName, lowered, cutBefore_asciiLower, withoutArguments_asciiLower]
  split <;> exact trim_asciiLower _

theorem ofText_asciiLower (s : Text) : ofText (asciiLower s) = (ofText s).lowered := by
  simp only [ofText, leadingChunk_asciiLower, isKeyword_asciiLower, afterChunk_asciiLower,
    isEmpty_asciiLower, trimStart_asciiLower]
  split <;> rfl

theorem afterBounds?_asciiLower (s : Text) :
    afterBounds? (asciiLower s) = (afterBounds? s).map asciiLower := by
  obtain ⟨rest, rfl, hlower⟩ | ⟨hother, hlower⟩ := asciiLower_sign_cases '(' rfl s
  · rw [hlower, afterBounds?, afterBounds?, splitFirst?_asciiLower _ rfl, Option.map_map,
      Option.map_map]
    rfl
  · rw [afterBounds?.eq_2 _ hother, afterBounds?.eq_2 _ hlower, Option.map_some]

theorem afterNullable_asciiLower (s : Text) :
    afterNullable (asciiLower s) = asciiLower (afterNullable s) := by
  obtain ⟨rest, rfl, hlower⟩ | ⟨hother, hlower⟩ := asciiLower_sign_cases '?' rfl s
  · rw [hlower, afterNullable, afterNullable]
  · rw [afterNullable.eq_2 _ hother, afterNullable.eq_2 _ hlower]

theorem parse?_asciiLower (s : Text) :
    parse? (asciiLower s) = (parse? s).map (Option.map lowered) := by
  rw [parse?, parse?, trimStart_asciiLower, afterBounds?_asciiLower]
  cases afterBounds? (trimStart s) with
  | none => rfl
  | some rest =>
    simp only [Option.map_some, afterNullable_asciiLower, trimStart_asciiLower, isEmpty_asciiLower,
      leadingChunk_asciiLower, isKeyword_asciiLower, afterChunk_asciiLower, ofText_asciiLower]
    split
    · rfl
    · split <;> rfl

end TypeClause

namespace Declarator

def lowered (d : Declarator) : Declarator :=
  { d with
    name := asciiLower d.name
    ownType := d.ownType.map asciiLower
    effectiveType := d.effectiveType.map asciiLower }

theorem nameAndType?_asciiLower (head : Text) :
    nameAndType? (asciiLower head) = (nameAndType? head).map fun found ↦
      (asciiLower found.1, found.2.map TypeClause.lowered) := by
  simp only [nameAndType?, any_head?_asciiLower CaseBlind.isNameStart, leadingWord_asciiLower,
    length_asciiLower, drop_asciiLower, take_asciiLower, isEmpty_asciiLower,
    TypeClause.parse?_asciiLower]
  split
  · cases TypeClause.parse? (head.drop (leadingWord head).length) with
    | some clause => rfl
    | none =>
      simp only [Option.map_none]
      split
      · rfl
      · rw [Option.map_map, Option.map_map]
        rfl
  · rfl

theorem ofPiece?_asciiLower (offset : Nat) (piece : Text) :
    ofPiece? offset (asciiLower piece) = (ofPiece? offset piece).map lowered := by
  have hgetD (assigned : Option Text) :
      (assigned.map asciiLower).getD (asciiLower piece) = asciiLower (assigned.getD piece) := by
    cases assigned <;> rfl
  simp only [ofPiece?, beforeAssignment?_asciiLower, hgetD, trim_asciiLower,
    nameAndType?_asciiLower]
  cases nameAndType? (trim ((beforeAssignment? piece).getD piece)) with
  | none => rfl
  | some found =>
    simp only [Option.map_some, isReserved_asciiLower, indentOf_asciiLower, Option.isSome_map]
    split
    · rfl
    · simp only [Option.map_some, lowered, Option.map_map, Option.map_none, Function.comp_def,
        TypeClause.typeName_lowered]

/-- What sharing types does at one name, given the next type and the names to the right. -/
def share (d : Declarator) (right : Option Text × List Declarator) :
    Option Text × List Declarator :=
  let shared := if d.hasInitializer then none else right.1
  (d.ownType.or right.1, { d with effectiveType := d.ownType.or shared } :: right.2)

theorem share_lowered (d : Declarator) (right : Option Text × List Declarator) :
    share d.lowered (Prod.map (Option.map asciiLower) (List.map lowered) right) =
      Prod.map (Option.map asciiLower) (List.map lowered) (share d right) := by
  obtain ⟨next, done⟩ := right
  cases hinitializer : d.hasInitializer <;> simp [share, lowered, hinitializer, Option.map_or]

theorem shareTypes_lowered (ds : List Declarator) :
    shareTypes (ds.map lowered) = (shareTypes ds).map lowered := by
  have hfold : (ds.map lowered).foldr share (none, []) =
      Prod.map (Option.map asciiLower) (List.map lowered) (ds.foldr share (none, [])) := by
    induction ds with
    | nil => rfl
    | cons d ds ih => rw [List.map_cons, List.foldr_cons, List.foldr_cons, ih, share_lowered]
  exact congrArg Prod.snd hfold

end Declarator

namespace Declaration

def lowered (d : Declaration) : Declaration :=
  ⟨d.modifiers.map asciiLower, d.declarators.map Declarator.lowered⟩

@[simp]
theorem hasModifier_lowered (d : Declaration) (modifier : String) :
    d.lowered.hasModifier modifier = d.hasModifier modifier := by
  simp [hasModifier, lowered, Function.comp_def]

@[simp]
theorem isConst_lowered (d : Declaration) : d.lowered.isConst = d.isConst :=
  hasModifier_lowered d "Const"

@[simp]
theorem isDim_lowered (d : Declaration) : d.lowered.isDim = d.isDim := hasModifier_lowered d "Dim"

theorem isExplicit_lowered (d : Declaration) : d.lowered.isExplicit = d.isExplicit := by
  simp [isExplicit]

theorem mapM_map_eq {α α' β β' : Type} {f : α → Option β} {g : α' → Option β'} {u : α → α'}
    {v : β → β'} (h : ∀ x, g (u x) = (f x).map v) (xs : List α) :
    (xs.map u).mapM g = (xs.mapM f).map (List.map v) := by
  induction xs with
  | nil => rfl
  | cons x xs ih =>
    rw [List.map_cons, List.mapM_cons, List.mapM_cons, h, ih]
    cases f x with
    | none => rfl
    | some y => cases xs.mapM f <;> rfl

theorem mapM_ofPiece?_asciiLower (offset : Nat) (body : Text) :
    ((splitTopLevel (asciiLower body)).mapM fun (start, piece) ↦
        Declarator.ofPiece? (offset + start) piece) =
      ((splitTopLevel body).mapM fun (start, piece) ↦
        Declarator.ofPiece? (offset + start) piece).map (List.map Declarator.lowered) := by
  rw [splitTopLevel_asciiLower]
  exact mapM_map_eq (fun piece ↦ Declarator.ofPiece?_asciiLower (offset + piece.1) piece.2) _

theorem parse?_asciiLower (code : Text) : parse? (asciiLower code) = (parse? code).map lowered := by
  have hany (ds : List Declarator) :
      ((ds.map Declarator.lowered).any fun d ↦ d.ownType.isSome || d.hasInitializer) =
        ds.any fun d ↦ d.ownType.isSome || d.hasInitializer := by
    rw [List.any_map]
    simp only [Function.comp_def, Declarator.lowered, Option.isSome_map]
  simp only [parse?, trim_asciiLower, takeModifiers_asciiLower, List.isEmpty_map,
    contains_asciiLower '\n' rfl, indentOf_asciiLower, offsetOf_asciiLower,
    mapM_ofPiece?_asciiLower]
  split
  · rfl
  · generalize
      List.mapM (m := Option) _ (splitTopLevel (takeModifiers modifierWords (trim code)).2) = read
    cases read with
    | none => rfl
    | some declarators =>
      have hexplicit :=
        isExplicit_lowered ⟨(takeModifiers modifierWords (trim code)).1, declarators⟩
      rw [lowered] at hexplicit
      simp only [Option.map_some, hexplicit, hany, Declarator.shareTypes_lowered]
      split <;> rfl

theorem lowered_lowered (d : Declaration) : d.lowered.lowered = d.lowered := by
  simp [lowered, Declarator.lowered, Function.comp_def]

end Declaration

@[simp]
theorem Block.ofWord?_asciiLower (word : Text) : ofWord? (asciiLower word) = ofWord? word := by
  simp [ofWord?]

namespace Header

def lowered (h : Header) : Header :=
  { h with
    modifiers := h.modifiers.map asciiLower
    name := asciiLower h.name
    typeParams := h.typeParams.map asciiLower
    params := h.params.map asciiLower
    returnType := h.returnType.map asciiLower }

theorem block_lowered (h : Header) : h.lowered.block = h.block := rfl

@[simp]
theorem hasModifier_lowered (h : Header) (modifier : String) :
    h.lowered.hasModifier modifier = h.hasModifier modifier := by
  simp [hasModifier, lowered, Function.comp_def]

theorem isBodyless_lowered (h : Header) : h.lowered.isBodyless = h.isBodyless := by
  simp [isBodyless]

theorem dottedTail_asciiLower (s : Text) :
    dottedTail (asciiLower s) = asciiLower (dottedTail s) := by
  induction s with
  | nil => rfl
  | cons c rest ih =>
    rw [asciiLower_cons, dottedTail, dottedTail, CaseBlind.isWordChar c, toLower_beq (by decide),
      any_head?_asciiLower CaseBlind.isNameStart, ih]
    split <;> rfl

@[simp]
theorem dottedName?_asciiLower (s : Text) :
    dottedName? (asciiLower s) = (dottedName? s).map asciiLower := by
  cases s with
  | nil => rfl
  | cons c rest =>
    rw [asciiLower_cons, dottedName?, dottedName?, CaseBlind.isNameStart c, dottedTail_asciiLower]
    split <;> rfl

@[simp]
theorem afterLibraryClause?_asciiLower (s : Text) :
    afterLibraryClause? (asciiLower s) = (afterLibraryClause? s).map asciiLower := by
  rw [afterLibraryClause?, afterLibraryClause?, leadingChunk_asciiLower, isOneOf_asciiLower,
    afterChunk_asciiLower, trimStart_asciiLower]
  split
  · obtain ⟨quoted, hs, hlower⟩ | ⟨hother, hlower⟩ :=
      asciiLower_sign_cases '"' rfl (trimStart (afterChunk s))
    · rw [hlower, hs]
      simp only [splitFirst?_asciiLower '"' rfl, Option.map_map, Function.comp_def,
        lowerBoth, trimStart_asciiLower]
    · split
      · next quoted hquoted => exact (hlower quoted hquoted).elim
      · rfl
  · rfl

theorem skipLibraryClauses_asciiLower (s : Text) :
    skipLibraryClauses (asciiLower s) = asciiLower (skipLibraryClauses s) := by
  fun_induction skipLibraryClauses s with
  | case1 s rest h ih =>
    rw [skipLibraryClauses]
    split
    · next rest' h' =>
      rw [trimStart_asciiLower, afterLibraryClause?_asciiLower, h, Option.map_some,
        Option.some.injEq] at h'
      rw [← h', ih]
    · next h' =>
      rw [trimStart_asciiLower, afterLibraryClause?_asciiLower, h] at h'
      cases h'
  | case2 s h =>
    rw [skipLibraryClauses]
    split
    · next rest' h' =>
      rw [trimStart_asciiLower, afterLibraryClause?_asciiLower, h] at h'
      cases h'
    · rfl

namespace Groups

def lowered (g : Groups) : Groups where
  typeParams := g.typeParams.map asciiLower
  params := g.params.map asciiLower
  paramsTail := asciiLower g.paramsTail
  rest := asciiLower g.rest

end Groups

theorem readGroups_lowered (n : Nat) (g : Groups) :
    readGroups n g.lowered = (readGroups n g).lowered := by
  induction n generalizing g with
  | zero => rfl
  | succ n ih =>
    have hrest : trimStart g.lowered.rest = asciiLower (trimStart g.rest) := trimStart_asciiLower _
    rw [readGroups, readGroups, hrest]
    obtain ⟨inside, hs, hlower⟩ | ⟨hother, hlower⟩ :=
      asciiLower_sign_cases '(' rfl (trimStart g.rest)
    · have hgroup := takeGroup?_asciiLower ('(' :: inside)
      rw [asciiLower_cons, show '('.toLower = '(' from rfl] at hgroup
      rw [hlower, hs]
      simp only [hgroup]
      cases takeGroup? ('(' :: inside) with
      | none =>
        simp only [Option.map_none, Groups.lowered, Option.map_some, trimEnd_asciiLower,
          dropUnderscores_asciiLower, trim_asciiLower, asciiLower_nil]
      | some group =>
        simp only [Option.map_some, lowerBoth, isGenericGroup_asciiLower, trim_asciiLower,
          show g.lowered.typeParams.isNone = g.typeParams.isNone from Option.isNone_map,
          show g.lowered.params.isNone = g.params.isNone from Option.isNone_map]
        split
        · rw [← ih]
          rfl
        · rw [← ih]
          rfl
    · split
      · next inside hinside => exact (hlower inside hinside).elim
      · rfl

@[simp]
theorem returnType?_asciiLower (tail : Text) :
    returnType? (asciiLower tail) = (returnType? tail).map asciiLower := by
  rw [returnType?, returnType?, trim_asciiLower, stripKeyword?_asciiLower]
  cases stripKeyword? "as " (trim tail) with
  | none => rfl
  | some after =>
    simp only [Option.map_some, trimStart_asciiLower, cutBefore_asciiLower, trimEnd_asciiLower,
      dropUnderscores_asciiLower, trim_asciiLower, isEmpty_asciiLower]
    split <;> rfl

theorem parse?_asciiLower (code : Text) : parse? (asciiLower code) = (parse? code).map lowered := by
  simp only [parse?, trim_asciiLower, takeModifiers_asciiLower, leadingChunk_asciiLower,
    isOneOf_asciiLower, afterChunk_asciiLower, trimStart_asciiLower, dottedName?_asciiLower,
    Block.ofWord?_asciiLower, indentOf_asciiLower, offsetOf_asciiLower]
  split
  · cases Block.ofWord? (leadingChunk (takeModifiers modifierWords (trim code)).2) with
    | none => rfl
    | some block =>
      generalize trimStart (afterChunk (takeModifiers modifierWords (trim code)).2) = named
      cases dottedName? named with
      | none => rfl
      | some name =>
        have hgroups := readGroups_lowered 2 ⟨none, none, named.drop name.length,
          skipLibraryClauses (named.drop name.length)⟩
        simp only [Groups.lowered, Option.map_none] at hgroups
        simp only [Option.map_some, length_asciiLower, drop_asciiLower,
          skipLibraryClauses_asciiLower, hgroups, offsetOf_asciiLower, returnType?_asciiLower,
          isContinued_asciiLower, lowered]
  · rfl

theorem lowered_lowered (h : Header) : h.lowered.lowered = h.lowered := by
  simp [lowered, Function.comp_def]

/-- The detail of a header in lower case, up to the case of the keywords in it. -/
theorem asciiLower_detail_lowered (h : Header) :
    asciiLower h.lowered.detail = asciiLower h.detail := by
  have hgetD : asciiLower (h.lowered.params.getD []) = asciiLower (h.params.getD []) := by
    rw [lowered]
    cases h.params <;> simp
  have hreturn : h.lowered.returnType = h.returnType.map asciiLower := rfl
  rw [detail, detail, block_lowered, hreturn]
  simp only [asciiLower_append]
  congr 1
  · congr 1
    rw [lowered]
    cases h.typeParams <;> simp
  · split <;> cases h.returnType <;> simp [hgetD]

end Header

@[simp]
theorem accessorWord?_asciiLower (text : Text) :
    accessorWord? (asciiLower text) = (accessorWord? text).map asciiLower := by
  simp only [accessorWord?, takeModifiers_asciiLower, keyword?_asciiLower]
  cases keyword? ["get", "set"]
      (takeModifiers ["public", "private", "protected", "friend"] text).2 with
  | none => rfl
  | some found =>
    simp only [Option.map_some, lowerBoth, trimStart_asciiLower]
    generalize trimStart found.2 = rest
    obtain ⟨tail, rfl, hlower⟩ | ⟨hother, hlower⟩ := asciiLower_sign_cases '(' rfl rest
    · rw [hlower]
      simp only [contains_asciiLower '\n' rfl]
      split <;> rfl
    · cases rest with
      | nil => rfl
      | cons c tail =>
        split
        · next h => cases h
        · next h => exact (hlower _ h).elim
        · split
          · next h => cases h
          · next h => exact (hother _ h).elim
          · rfl

@[simp]
theorem isAccessor_asciiLower (text : Text) : isAccessor (asciiLower text) = isAccessor text := by
  rw [isAccessor, accessorWord?_asciiLower, Option.isSome_map, isAccessor]

theorem Header.opensBlock_lowered (h : Header) (inside : Bool) (next : Option Text) :
    h.lowered.opensBlock inside (next.map asciiLower) = h.opensBlock inside next := by
  have hnext : (next.map asciiLower).any isAccessor = next.any isAccessor := by
    cases next with
    | none => rfl
    | some code => exact isAccessor_asciiLower code
  rw [opensBlock, opensBlock, isBodyless_lowered, hnext, block_lowered]

/-! ## Statements -/

@[simp]
theorem afterSpacedWord?_asciiLower (word : String) (s : Text) :
    afterSpacedWord? word (asciiLower s) = (afterSpacedWord? word s).map asciiLower := by
  simp only [afterSpacedWord?, leadingChunk_asciiLower, isKeyword_asciiLower, afterChunk_asciiLower,
    isEmpty_asciiLower, trimStart_asciiLower]
  split <;> rfl

theorem any_map_asciiLower {p : Text → Bool} (hp : ∀ s, p (asciiLower s) = p s)
    (found : Option Text) : (found.map asciiLower).any p = found.any p := by
  cases found with
  | none => rfl
  | some s => exact hp s

namespace BlockEnd

theorem region?_asciiLower (text : Text) : region? (asciiLower text) = region? text := by
  obtain ⟨rest, rfl, hlower⟩ | ⟨hother, hlower⟩ := asciiLower_sign_cases '#' rfl text
  · rw [hlower, region?, region?, afterSpacedWord?_asciiLower,
      any_map_asciiLower (startsWithKeyword_asciiLower _)]
  · rw [region?.eq_2 _ hother, region?.eq_2 _ hlower]

theorem worded?_asciiLower (text : Text) : worded? (asciiLower text) = worded? text := by
  rw [worded?, worded?, afterSpacedWord?_asciiLower]
  cases afterSpacedWord? "end" text with
  | none => rfl
  | some rest =>
    rw [Option.map_some, Option.bind_some, Option.bind_some, keyword?_asciiLower]
    cases keyword? endWords rest with
    | none => rfl
    | some found =>
      rw [Option.map_some, Option.bind_some, Option.bind_some]
      dsimp only [lowerBoth]
      rw [Block.ofWord?_asciiLower]

theorem short?_asciiLower (text : Text) : short? (asciiLower text) = short? text := by
  rw [short?, short?, keyword?_asciiLower]
  cases keyword? ["next", "loop", "wend"] text with
  | none => rfl
  | some found =>
    rw [Option.map_some, Option.bind_some, Option.bind_some]
    dsimp only [lowerBoth]
    rw [Block.ofWord?_asciiLower]

@[simp]
theorem parse?_asciiLower (text : Text) : parse? (asciiLower text) = parse? text := by
  rw [parse?, parse?, region?_asciiLower, worded?_asciiLower, short?_asciiLower]

end BlockEnd

namespace ControlStart

theorem ofIf_asciiLower (text : Text) : ofIf (asciiLower text) = ofIf text := by
  rw [ofIf, ofIf, maskStrings_asciiLower, findWord?_asciiLower (isKeyword_asciiLower "then")]
  cases findWord? (isKeyword "then") (maskStrings text) with
  | none => rfl
  | some found =>
    simp only [Option.map_some, trim_asciiLower, isEmpty_asciiLower, bne,
      asciiLower_beq ['_'] (by decide)]

@[simp]
theorem parse?_asciiLower (text : Text) : parse? (asciiLower text) = parse? text := by
  have hword : (accessorWord? (asciiLower text)).or ((keyword? words (asciiLower text)).map (·.1)) =
      ((accessorWord? text).or ((keyword? words text).map (·.1))).map asciiLower := by
    rw [accessorWord?_asciiLower, keyword?_asciiLower, Option.map_or, Option.map_map,
      Option.map_map]
    rfl
  rw [parse?, parse?, hword]
  cases (accessorWord? text).or ((keyword? words text).map (·.1)) with
  | none => rfl
  | some word => simp only [Option.map_some, Block.ofWord?_asciiLower, ofIf_asciiLower]

end ControlStart

@[simp]
theorem Branch.parse?_asciiLower (text : Text) : parse? (asciiLower text) = parse? text := by
  rw [parse?, parse?, keyword?_asciiLower, afterSpacedWord?_asciiLower,
    any_map_asciiLower (startsWithKeyword_asciiLower _), Option.map_map]
  congr 1
  funext found
  simp only [Function.comp_apply, lowerBoth, asciiLower_asciiLower]

def PlacedName.lowered (p : PlacedName) : PlacedName := { p with name := asciiLower p.name }

theorem PlacedName.lowered_lowered (p : PlacedName) : p.lowered.lowered = p.lowered := by
  simp [lowered]

namespace Statement

/-- The statement with all that is read from its line in lower case. -/
def lowered : Statement → Statement
  | header h => header h.lowered
  | region p => region p.lowered
  | imports p isAlias => imports p.lowered isAlias
  | implements names => implements (names.map PlacedName.lowered)
  | declaration d => declaration d.lowered
  | s => s

/-- A region marker in lower case; a missing name is not read from it. -/
theorem region?_asciiLower (text : Text) :
    (region? (asciiLower text)).map PlacedName.lowered = (region? text).map PlacedName.lowered := by
  obtain ⟨marker, rfl, hlower⟩ | ⟨hother, hlower⟩ := asciiLower_sign_cases '#' rfl text
  · have hoffset (quoted : Text) :
        offsetOf ('#' :: asciiLower marker) (asciiLower quoted) = offsetOf ('#' :: marker) quoted :=
      hlower ▸ offsetOf_asciiLower _ _
    rw [hlower, region?, region?, keyword?_asciiLower]
    cases keyword? ["region"] marker with
    | none => rfl
    | some found =>
      simp only [Option.map_some, lowerBoth, trimStart_asciiLower]
      obtain ⟨quoted, hs, hlower⟩ | ⟨hother, hlower⟩ :=
        asciiLower_sign_cases '"' rfl (trimStart found.2)
      · rw [hlower, hs]
        simp only [splitFirst?_asciiLower '"' rfl]
        cases splitFirst? '"' quoted with
        | none => rfl
        | some parts =>
          simp only [Option.map_some, lowerBoth, PlacedName.lowered, asciiLower_asciiLower, hoffset]
      · split
        · next quoted hquoted => exact (hlower quoted hquoted).elim
        · rfl
  · rw [region?.eq_2 _ hother, region?.eq_2 _ hlower]

theorem importAlias?_asciiLower (s : Text) :
    importAlias? (asciiLower s) = (importAlias? s).map asciiLower := by
  simp only [importAlias?, any_head?_asciiLower CaseBlind.isNameStart, leadingWord_asciiLower,
    length_asciiLower, drop_asciiLower, trimStart_asciiLower]
  split
  · obtain ⟨rest, hs, hlower⟩ | ⟨hother, hlower⟩ :=
      asciiLower_sign_cases '=' rfl (trimStart (s.drop (leadingWord s).length))
    · rw [hlower, hs]
      simp only [trimStart_asciiLower, any_head?_asciiLower CaseBlind.isNameStart]
      split <;> rfl
    · split
      · next rest hrest => exact (hlower rest hrest).elim
      · rfl
  · rfl

theorem imports?_asciiLower (text : Text) :
    imports? (asciiLower text) = (imports? text).map (Prod.map PlacedName.lowered id) := by
  have hdotted : CaseBlind fun c ↦ isWordChar c || c == '.' :=
    CaseBlind.isWordChar.or (CaseBlind.beq (by decide))
  rw [imports?, imports?, afterSpacedWord?_asciiLower]
  cases afterSpacedWord? "imports" text with
  | none => rfl
  | some rest =>
    simp only [Option.map_some, importAlias?_asciiLower, offsetOf_asciiLower,
      any_head?_asciiLower CaseBlind.isNameStart, takeWhile_asciiLower hdotted]
    cases importAlias? rest with
    | some name => rfl
    | none =>
      simp only [Option.map_none]
      split <;> rfl

theorem implements?_asciiLower (text : Text) :
    implements? (asciiLower text) = (implements? text).map (List.map PlacedName.lowered) := by
  rw [implements?, implements?, afterSpacedWord?_asciiLower]
  cases afterSpacedWord? "implements" text with
  | none => rfl
  | some rest =>
    simp only [Option.map_some, offsetOf_asciiLower, isEmpty_asciiLower,
      contains_asciiLower '\n' rfl, splitTopLevel_asciiLower, List.filterMap_map]
    split
    · rfl
    · rw [Option.map_some, List.map_filterMap]
      congr 2
      funext piece
      simp only [Function.comp_apply, Prod.map, id, trim_asciiLower, dropUnderscores_asciiLower,
        isEmpty_asciiLower, indentOf_asciiLower]
      split <;> rfl

theorem lowered_shift (indent : Nat) (p : PlacedName) :
    (shift indent p).lowered = shift indent p.lowered := rfl

/-- Code in lower case reads as the same statement up to the case of names and texts. -/
theorem lowered_parse_asciiLower (code : Text) :
    (parse (asciiLower code)).lowered = (parse code).lowered := by
  have hregion := region?_asciiLower (trim code)
  simp only [parse, trim_asciiLower, isEmpty_asciiLower, indentOf_asciiLower,
    BlockEnd.parse?_asciiLower, Header.parse?_asciiLower, imports?_asciiLower,
    implements?_asciiLower, ControlStart.parse?_asciiLower, Branch.parse?_asciiLower,
    Declaration.parse?_asciiLower]
  -- the readings are tried one after the other, and each finds something in both or in neither
  split
  · rfl
  cases BlockEnd.parse? (trim code) with
  | some e => rfl
  | none =>
  cases Header.parse? code with
  | some h => simp only [Option.map_some, lowered, Header.lowered_lowered]
  | none =>
  generalize region? (asciiLower (trim code)) = found at hregion ⊢
  cases hname : region? (trim code) with
  | some p =>
    rw [hname, Option.map_some, Option.map_eq_some_iff] at hregion
    obtain ⟨q, rfl, hq⟩ := hregion
    simp only [Option.map_none, lowered, lowered_shift, hq]
  | none =>
  rw [hname, Option.map_none, Option.map_eq_none_iff] at hregion
  subst hregion
  cases imports? (trim code) with
  | some p =>
    simp only [Option.map_some, Option.map_none, Prod.map, id, lowered, lowered_shift,
      PlacedName.lowered_lowered]
  | none =>
  cases implements? (trim code) with
  | some names =>
    simp only [Option.map_some, Option.map_none, lowered, List.map_map, Function.comp_def,
      lowered_shift, PlacedName.lowered_lowered]
  | none =>
  cases ControlStart.parse? (trim code) with
  | some c => rfl
  | none =>
  cases Branch.parse? (trim code) with
  | some b => rfl
  | none =>
  cases Declaration.parse? code with
  | some d => simp only [Option.map_some, Option.map_none, lowered, Declaration.lowered_lowered]
  | none => rfl

theorem enumMember?_asciiLower (code : Text) :
    enumMember? (asciiLower code) = (enumMember? code).map PlacedName.lowered := by
  simp only [enumMember?, trim_asciiLower, any_head?_asciiLower CaseBlind.isPlainStart,
    leadingWord_asciiLower, isReserved_asciiLower, indentOf_asciiLower, length_asciiLower,
    drop_asciiLower, trimStart_asciiLower]
  split
  · split
    · rfl
    · generalize trimStart ((trim code).drop (leadingWord (trim code)).length) = rest
      obtain ⟨value, rfl, hlower⟩ | ⟨hother, hlower⟩ := asciiLower_sign_cases '=' rfl rest
      · rw [hlower]
        simp only [contains_asciiLower '\n' rfl]
        split <;> rfl
      · cases rest with
        | nil => rfl
        | cons c tail =>
          split
          · next h => cases h
          · next h => exact (hlower _ h).elim
          · split
            · next h => cases h
            · next h => exact (hother _ h).elim
            · rfl
  · rfl

end Statement

end VbOutline
