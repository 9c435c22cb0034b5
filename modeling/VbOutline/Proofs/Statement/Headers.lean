import VbOutline.Proofs.Line.Nesting
import VbOutline.Proofs.Line.Words
import VbOutline.Proofs.Statement.Lowering

/-!
# Headers as they are written

A header that is written in the usual form, with single blanks between its words and its groups
right after its name, is read back as it was meant: every part as written, and every offset at the
part it belongs to. Groups may hold anything whose parentheses are closed, so also groups of their
own and literals with parentheses in them.
-/

namespace VbOutline

open Text Line

namespace Header

/-- A header with its parts as they are written. -/
structure Written where
  indent : Text
  modifiers : List Text
  block : Block
  keyword : Text
  name : Text
  typeParams : Option Text
  params : Option Text
  returnType : Option Text

/-- A group in parentheses, if there is one. -/
def group : Option Text → Text
  | some inner => '(' :: (inner ++ [')'])
  | none => []

def returnClause : Option Text → Text
  | some type => " As ".toList ++ type
  | none => []

/-- The text begins with the word `Of`, and something follows the blank after it. -/
def IsGenericList (s : Text) : Prop :=
  ∃ word list, s = word ++ ' ' :: list ∧ eqAscii word "Of".toList ∧ list ≠ []

namespace Written

variable (w : Written)

def beforeName : Text := w.indent ++ (spaced w.modifiers ++ (w.keyword ++ [' ']))

def beforeParams : Text := w.beforeName ++ (w.name ++ group w.typeParams)

/-- The line of the header. -/
def line : Text := w.beforeParams ++ (group w.params ++ returnClause w.returnType)

/-- The header that is meant. Parameters begin after their parenthesis. -/
def header : Header where
  block := w.block
  modifiers := w.modifiers
  name := w.name
  nameOffset := byteSize w.beforeName
  typeParams := w.typeParams
  params := w.params
  paramsOffset :=
    if w.params.isSome then byteSize (w.beforeParams ++ ['(']) else byteSize (w.beforeName ++ w.name)
  returnType := w.returnType
  continued := false

/-- The parts of a header are of the right form. -/
structure Proper : Prop where
  indent : ∀ c ∈ w.indent, isSpace c
  modifiers : ∀ m ∈ w.modifiers, isOneOf modifierWords m
  declaring : w.block.symbolKind?.isSome ∧ w.block ≠ .region
  keyword : eqAscii w.keyword w.block.keyword.toList
  name : IsPath w.name
  lone : w.name = ['_'] → w.typeParams.isSome ∨ w.params.isSome ∨ w.returnType.isSome
  typeParams : ∀ list ∈ w.typeParams,
    trim list = list ∧ IsGenericList list ∧ Nested roundBrackets [] list
  params : ∀ list ∈ w.params, trim list = list ∧ Nested roundBrackets [] list
  plain : w.typeParams = none → ∀ list ∈ w.params, ¬ IsGenericList list
  returnType : ∀ type ∈ w.returnType, trim type = type ∧ type ≠ [] ∧ type.getLast? ≠ some '_' ∧
    ClauseFree ["implements", "handles"] type

end Written

theorem dottedTail_append {word : Text} (hword : ∀ c ∈ word, isWordChar c) (rest : Text) :
    dottedTail (word ++ rest) = word ++ dottedTail rest := by
  induction word with
  | nil => rfl
  | cons c word ih =>
    obtain ⟨hc, hword⟩ := List.forall_mem_cons.1 hword
    rw [List.cons_append, dottedTail, if_pos (by simp [hc]), ih hword, List.cons_append]

theorem dottedTail_path {name : Text} (hname : IsPath name) (rest : Text) :
    dottedTail (name ++ rest) = name ++ dottedTail rest := by
  induction hname with
  | name h => exact dottedTail_append h.isWordChar rest
  | @dotted first more hfirst hmore ih =>
    have hpoint : (isWordChar '.' || ('.' == '.' && (more ++ rest).head?.any isNameStart)) = true := by
      rw [hmore.any_head? rest]
      decide
    rw [List.append_assoc, List.cons_append, dottedTail_append hfirst.isWordChar, dottedTail,
      if_pos hpoint, ih, List.append_assoc, List.cons_append]

/-- A dotted name is read up to what cannot belong to it. -/
theorem dottedName?_append {name rest : Text} (hname : IsPath name)
    (hrest : ∀ c ∈ rest.head?, isWordChar c = false ∧ c ≠ '.') :
    dottedName? (name ++ rest) = some name := by
  have hstop : dottedTail rest = [] := by
    cases rest with
    | nil => rfl
    | cons c rest =>
      obtain ⟨hc, hpoint⟩ := hrest c rfl
      rw [dottedTail, if_neg (by simp [hc, hpoint])]
  have hwhole := dottedTail_path hname rest
  have hstart := hname.any_head? rest
  cases hs : name ++ rest with
  | nil =>
    rw [hs] at hstart
    cases hstart
  | cons c more =>
    rw [hs] at hwhole hstart
    have hc : isNameStart c := hstart
    rw [dottedTail, if_pos (by simp [isWordChar_of_isNameStart hc]), hstop, List.append_nil] at hwhole
    rw [dottedName?, if_pos hc, hwhole]

theorem isOneOf_congr {word word' : Text} (h : eqAscii word word') (words : List String) :
    isOneOf words word = isOneOf words word' := by
  rw [eqAscii_eq, beq_iff_eq] at h
  rw [← isOneOf_asciiLower, h, isOneOf_asciiLower]

/-- The keyword of a declaring block names it and is no modifier. -/
theorem keyword_spec {block : Block} (hdeclaring : block.symbolKind?.isSome ∧ block ≠ .region)
    {keyword : Text} (h : eqAscii keyword block.keyword.toList) :
    isOneOf blockWords keyword ∧ isOneOf modifierWords keyword = false ∧
      Block.ofWord? keyword = some block := by
  have hword : Block.ofWord? keyword = Block.ofWord? block.keyword.toList := by
    rw [eqAscii_eq, beq_iff_eq] at h
    rw [← Block.ofWord?_asciiLower, h, Block.ofWord?_asciiLower]
  rw [isOneOf_congr h, isOneOf_congr h, hword]
  revert hdeclaring
  cases block <;> decide

theorem isGenericGroup_iff {s : Text} (h : trimStart s = s) : isGenericGroup s ↔ IsGenericList s := by
  rw [isGenericGroup, h, stripKeyword?, show "of ".length = 3 from rfl]
  simp only [Option.isSome_ite, Bool.and_eq_true, Bool.not_eq_true', List.isEmpty_eq_false_iff]
  constructor
  · rintro ⟨hword, hne⟩
    rw [eqAscii_eq, beq_iff_eq] at hword
    obtain ⟨a, b, c, list, rfl⟩ : ∃ a b c list, s = a :: b :: c :: list := by
      obtain _ | ⟨a, _ | ⟨b, _ | ⟨c, list⟩⟩⟩ := s
      · cases hne rfl
      · cases hne rfl
      · cases hne rfl
      · exact ⟨a, b, c, list, rfl⟩
    obtain ⟨ha, hb, hc⟩ : a.toLower = 'o' ∧ b.toLower = 'f' ∧ c.toLower = ' ' := by
      simpa [asciiLower] using hword
    have hblank : c = ' ' := by
      have hsame := toLower_beq (show ' '.isAlpha = false by decide) c
      rwa [hc, beq_self_eq_true, eq_comm, beq_iff_eq] at hsame
    refine ⟨[a, b], list, by rw [hblank]; rfl, ?_, hne⟩
    simp [eqAscii, ha, hb]
  · rintro ⟨word, list, rfl, hword, hne⟩
    obtain ⟨a, b, rfl⟩ : ∃ a b, word = [a, b] := by
      obtain _ | ⟨a, _ | ⟨b, _ | ⟨c, word⟩⟩⟩ := word
      · cases hword
      · simp [eqAscii] at hword
      · exact ⟨a, b, rfl⟩
      · simp [eqAscii] at hword
    refine ⟨?_, hne⟩
    rw [eqAscii_eq, beq_iff_eq] at hword ⊢
    simpa [asciiLower] using hword

theorem readGroups_stop (n : Nat) {g : Groups} (h : ∀ c ∈ (trimStart g.rest).head?, c ≠ '(') :
    readGroups n g = g := by
  cases n with
  | zero => rfl
  | succ n =>
    rw [readGroups]
    split
    · next inside hinside =>
      rw [hinside] at h
      exact absurd rfl (h '(' rfl)
    · rfl

theorem readGroups_group (n : Nat) {g : Groups} {inner after : Text}
    (hrest : g.rest = '(' :: (inner ++ ')' :: after)) (hnested : Nested roundBrackets [] inner) :
    readGroups (n + 1) g =
      if g.typeParams.isNone && g.params.isNone && isGenericGroup inner then
        readGroups n { g with typeParams := some (trim inner), rest := after }
      else
        readGroups n { g with
          params := some (trim inner), paramsTail := inner ++ ')' :: after, rest := after } := by
  have hstart : trimStart g.rest = '(' :: (inner ++ ')' :: after) := by
    rw [hrest]
    exact trimStart_eq_self (by
      rintro _ ⟨⟩
      decide)
  rw [readGroups]
  simp only [hstart, takeGroup?_eq_some_of_nested hnested]

/-! ## What follows a name -/

section

variable {rest : Text} {returnType : Option Text}

theorem trimStart_returnClause_some (type : Text) :
    trimStart (returnClause (some type)) = 'A' :: 's' :: ' ' :: type :=
  trimStart_blank (by
    rintro _ ⟨⟩
    decide)

theorem head?_returnClause : ∀ c ∈ (returnClause returnType).head?, c = ' ' := by
  cases returnType with
  | none => simp [returnClause]
  | some type =>
    rintro _ ⟨⟩
    rfl

theorem not_group_returnClause : ∀ c ∈ (trimStart (returnClause returnType)).head?, c ≠ '(' := by
  cases returnType with
  | none => simp [returnClause, trimStart]
  | some type =>
    rw [trimStart_returnClause_some]
    rintro _ ⟨⟩
    decide

theorem returnType?_returnClause (h : ∀ type ∈ returnType, trim type = type ∧ type ≠ [] ∧
    type.getLast? ≠ some '_' ∧ ClauseFree ["implements", "handles"] type) :
    returnType? (returnClause returnType) = returnType := by
  cases returnType with
  | none => rfl
  | some type =>
    obtain ⟨htrim, hne, hlast, hclause⟩ := h type rfl
    obtain ⟨hstart, hend⟩ := not_isSpace_of_trim_eq_self htrim
    have hwritten : trim (returnClause (some type)) = 'A' :: 's' :: ' ' :: type := by
      rw [trim, trimStart_returnClause_some]
      apply trimEnd_eq_self
      change ∀ c ∈ (['A', 's', ' '] ++ type).getLast?, isSpace c = false
      rwa [List.getLast?_append_of_ne_nil _ hne]
    have hafter : stripKeyword? "as " ('A' :: 's' :: ' ' :: type) = some type := by
      rw [stripKeyword?, show "as ".length = 3 from rfl, if_pos]
      · rfl
      · simp [hne, eqAscii]
    have hunderscore : dropUnderscores type = type := dropUnderscores_eq_self hlast
    rw [returnType?, hwritten, hafter]
    simp only [trimStart_eq_self hstart, cutBefore_eq_self hclause, trimEnd_eq_self hend, hunderscore,
      htrim, List.isEmpty_eq_false_iff.2 hne, Bool.false_eq_true, if_false]

theorem skipLibraryClauses_eq_self
    (h : isOneOf ["lib", "alias"] (leadingChunk (trimStart rest)) = false) :
    skipLibraryClauses rest = rest := by
  have hclause : afterLibraryClause? (trimStart rest) = none := by
    rw [afterLibraryClause?, h, if_neg Bool.false_ne_true]
  rw [skipLibraryClauses]
  split
  · next hsome => cases hclause.symm.trans hsome
  · rfl

theorem not_isOneOf_leadingChunk_of_head {words : List String} (hwords : Lettered words) {c : Char}
    (hspace : isSpace c = false) (hc : (foldChar c).isAlpha = false) (s : Text) :
    isOneOf words (leadingChunk (c :: s)) = false := by
  rw [Bool.eq_false_iff]
  intro h
  have hmem : c ∈ leadingChunk (c :: s) := by
    rw [leadingChunk, List.takeWhile_cons_of_pos (by simp [hspace])]
    exact List.mem_cons_self
  cases ((isAlpha_of_isOneOf hwords h).2 c hmem).symm.trans hc

/-- No library clause follows a name in the usual form. -/
theorem not_library_tail (typeParams params returnType : Option Text) :
    isOneOf ["lib", "alias"]
      (leadingChunk (trimStart (group typeParams ++ (group params ++ returnClause returnType)))) =
        false := by
  have hgroup (inner : Text) (after : Text) :
      isOneOf ["lib", "alias"] (leadingChunk (trimStart (group (some inner) ++ after))) = false := by
    rw [trimStart_eq_self]
    · exact not_isOneOf_leadingChunk_of_head (by decide) (by decide) (by decide) _
    · rintro _ ⟨⟩
      decide
  cases typeParams with
  | some list => exact hgroup list _
  | none =>
    cases params with
    | some list => exact hgroup list _
    | none =>
      cases returnType with
      | none => decide
      | some type =>
        change isOneOf _ (leadingChunk (trimStart (returnClause (some type)))) = false
        rw [trimStart_returnClause_some]
        have hchunk : leadingChunk (['A', 's'] ++ ' ' :: type) = ['A', 's'] :=
          leadingChunk_append (by decide) (isSpace_head?_blank type)
        rw [show leadingChunk ('A' :: 's' :: ' ' :: type) = ['A', 's'] from hchunk]
        decide

theorem group_append (inner rest : Text) :
    group (some inner) ++ rest = '(' :: (inner ++ ')' :: rest) := by
  simp [group]

/-- A list of parameters in parentheses, if there is one, is read up to what follows it, unless it
takes the place of type parameters. -/
theorem readGroups_params (n : Nat) {g : Groups} {params : Option Text}
    (hrest : g.rest = group params ++ returnClause returnType) (hnone : g.params = none)
    (hparams : ∀ list ∈ params, trim list = list ∧ Nested roundBrackets [] list)
    (hplain : g.typeParams = none → ∀ list ∈ params, ¬ IsGenericList list) :
    readGroups (n + 1) g =
      ⟨g.typeParams, params,
        params.elim g.paramsTail fun list ↦ list ++ ')' :: returnClause returnType,
        returnClause returnType⟩ := by
  cases params with
  | none =>
    have hclause : g.rest = returnClause returnType := hrest
    rw [readGroups_stop]
    · obtain ⟨_, read, _, _⟩ := g
      obtain rfl : read = none := hnone
      rw [← hclause]
      rfl
    · rw [hclause]
      exact not_group_returnClause
  | some list =>
    obtain ⟨htrim, hnested⟩ := hparams list rfl
    have hgeneric : (g.typeParams.isNone && g.params.isNone && isGenericGroup list) = false := by
      rw [Bool.eq_false_iff]
      intro h
      rw [Bool.and_eq_true, Bool.and_eq_true, Option.isNone_iff_eq_none] at h
      have hstart := trimStart_eq_self (not_isSpace_of_trim_eq_self htrim).1
      exact hplain h.1.1 list rfl ((isGenericGroup_iff hstart).1 h.2)
    rw [group_append] at hrest
    rw [readGroups_group n hrest hnested, hgeneric, if_neg Bool.false_ne_true, readGroups_stop, htrim]
    · rfl
    · exact not_group_returnClause

/-- The groups after a name are read as they are written. -/
theorem readGroups_written {w : Written} (h : w.Proper) :
    let clause := returnClause w.returnType
    let tail := group w.typeParams ++ (group w.params ++ clause)
    readGroups 2 ⟨none, none, tail, tail⟩ =
      ⟨w.typeParams, w.params, w.params.elim tail fun list ↦ list ++ ')' :: clause, clause⟩ := by
  intro clause tail
  cases htypes : w.typeParams with
  | none =>
    have htail : tail = group w.params ++ clause := by simp [tail, htypes, group]
    exact readGroups_params 1 (g := ⟨none, none, tail, tail⟩) htail rfl h.params
      fun _ ↦ h.plain htypes
  | some list =>
    obtain ⟨htrim, hgeneric, hnested⟩ := h.typeParams list htypes
    have htail : tail = '(' :: (list ++ ')' :: (group w.params ++ clause)) := by
      simp [tail, htypes, group]
    have hstart := trimStart_eq_self (not_isSpace_of_trim_eq_self htrim).1
    rw [readGroups_group 1 (g := ⟨none, none, tail, tail⟩) htail hnested, htrim,
      if_pos (by simp [(isGenericGroup_iff hstart).2 hgeneric])]
    exact readGroups_params 0 rfl rfl h.params (by simp)

/-! ## The line -/

/-- An underscore that belongs to the last word of a line does not stand alone. -/
theorem not_endsWith_underscore {front word : Text} (hne : word ≠ [])
    (hword : ∀ c ∈ word, isSpace c = false) (hlone : word ≠ ['_']) {blank : Char}
    (hblank : isSpace blank) : endsWith (front ++ word) [blank, '_'] = false := by
  rw [Bool.eq_false_iff]
  intro h
  have hsuffix : [blank, '_'] <:+ front ++ word := List.isSuffixOf_iff_suffix.1 h
  have hwhole : word <:+ front ++ word := List.suffix_append front word
  by_cases hlength : word.length ≤ 1
  · have hshort : word <:+ ['_'] :=
      List.suffix_of_suffix_length_le hwhole ((List.suffix_cons blank ['_']).trans hsuffix) hlength
    exact hlone (hshort.eq_of_length_le (List.length_pos_of_ne_nil hne))
  · have hlong : [blank, '_'] <:+ word :=
      List.suffix_of_suffix_length_le hsuffix hwhole (Nat.not_le.1 hlength)
    cases hblank.symm.trans (hword blank (hlong.subset List.mem_cons_self))

/-- A line goes on only if it ends with an underscore that stands alone. -/
theorem isContinued_append {front word : Text} (hfront : front ≠ []) (hne : word ≠ [])
    (hword : ∀ c ∈ word, isSpace c = false) (hlone : word ≠ ['_']) :
    isContinued (front ++ word) = false := by
  have hshown : trimEnd (front ++ word) = front ++ word := by
    apply trimEnd_eq_self
    rw [List.getLast?_append_of_ne_nil _ hne]
    exact fun c hc ↦ hword c (List.mem_of_getLast? hc)
  have hmore : front ++ word ≠ ['_'] := by
    intro heq
    have hlength := congrArg List.length heq
    have hfront := List.length_pos_of_ne_nil hfront
    have hword := List.length_pos_of_ne_nil hne
    rw [List.length_append, List.length_singleton] at hlength
    omega
  rw [isContinued, hshown, not_endsWith_underscore hne hword hlone (by decide),
    not_endsWith_underscore hne hword hlone (by decide), beq_eq_false_iff_ne.2 hmore]
  rfl

end

namespace Written

variable {w : Written}

/-- What follows the name. -/
def tail (w : Written) : Text :=
  group w.typeParams ++ (group w.params ++ returnClause w.returnType)

/-- The line from its keyword on. -/
def declared (w : Written) : Text := w.keyword ++ ' ' :: (w.name ++ w.tail)

theorem line_eq (w : Written) : w.line = w.indent ++ (spaced w.modifiers ++ w.declared) := by
  simp [line, beforeParams, beforeName, declared, tail]

theorem offset_name (w : Written) :
    byteSize w.indent + offsetOf (spaced w.modifiers ++ w.declared) (w.name ++ w.tail) =
      byteSize w.beforeName := by
  have hsplit : spaced w.modifiers ++ w.declared =
      (spaced w.modifiers ++ (w.keyword ++ [' '])) ++ (w.name ++ w.tail) := by simp [declared]
  rw [hsplit, offsetOf_append, ← byteSize_append]
  rfl

/-- The parameters begin after their parenthesis; without any, the end of the name stands for them. -/
theorem offset_params (w : Written) :
    byteSize w.indent + offsetOf (spaced w.modifiers ++ w.declared)
        (w.params.elim w.tail fun list ↦ list ++ ')' :: returnClause w.returnType) =
      if w.params.isSome then byteSize (w.beforeParams ++ ['('])
      else byteSize (w.beforeName ++ w.name) := by
  cases hparams : w.params with
  | none =>
    have hsplit : spaced w.modifiers ++ w.declared =
        (spaced w.modifiers ++ (w.keyword ++ ' ' :: w.name)) ++ w.tail := by simp [declared]
    rw [Option.elim_none, hsplit, offsetOf_append, ← byteSize_append]
    simp [beforeName]
  | some list =>
    have hsplit : spaced w.modifiers ++ w.declared =
        (spaced w.modifiers ++ (w.keyword ++ ' ' :: (w.name ++ (group w.typeParams ++ ['('])))) ++
          (list ++ ')' :: returnClause w.returnType) := by simp [declared, tail, hparams, group]
    rw [Option.elim_some, hsplit, offsetOf_append, ← byteSize_append]
    simp [beforeParams, beforeName]

theorem head?_tail (w : Written) : ∀ c ∈ w.tail.head?, c = '(' ∨ c = ' ' := by
  rw [tail]
  cases w.typeParams with
  | some list =>
    rintro _ ⟨⟩
    exact .inl rfl
  | none =>
    cases w.params with
    | some list =>
      rintro _ ⟨⟩
      exact .inl rfl
    | none => exact fun c hc ↦ .inr (head?_returnClause c hc)

/-- What follows a name does not end with an underscore. -/
theorem Proper.tail_cases (h : w.Proper) :
    (w.tail = [] ∧ w.typeParams = none ∧ w.params = none ∧ w.returnType = none) ∨
      ∃ front last, w.tail = front ++ [last] ∧ isSpace last = false ∧ last ≠ '_' := by
  have hparenthesis (front inner : Text) : ∃ before last,
      front ++ group (some inner) = before ++ [last] ∧ isSpace last = false ∧ last ≠ '_' :=
    ⟨front ++ '(' :: inner, ')', by simp [group], by decide, by decide⟩
  rw [tail]
  cases hreturn : w.returnType with
  | some type =>
    obtain ⟨htrim, hne, hunderscore, -⟩ := h.returnType type hreturn
    have hlast := (not_isSpace_of_trim_eq_self htrim).2
    obtain rfl | ⟨front, last, rfl⟩ := List.eq_nil_or_concat' type
    · exact absurd rfl hne
    · rw [List.getLast?_concat] at hunderscore hlast
      refine .inr ⟨group w.typeParams ++ (group w.params ++ returnClause (some front)), last, ?_,
        hlast last rfl, fun heq ↦ hunderscore (congrArg some heq)⟩
      simp [returnClause]
  | none =>
    cases hparams : w.params with
    | some list =>
      right
      simpa [returnClause] using hparenthesis (group w.typeParams) list
    | none =>
      cases htypes : w.typeParams with
      | some list =>
        right
        simpa [returnClause, group] using hparenthesis [] list
      | none => exact .inl ⟨rfl, rfl, rfl, rfl⟩

/-- The line ends with a word that is no continuation marker. -/
theorem Proper.exists_last (h : w.Proper) : ∃ front word, spaced w.modifiers ++ w.declared =
    front ++ word ∧ front ≠ [] ∧ word ≠ [] ∧ word ≠ ['_'] ∧ ∀ c ∈ word, isSpace c = false := by
  obtain ⟨htail, htypes, hparams, hreturn⟩ | ⟨front, last, htail, hspace, hunderscore⟩ := h.tail_cases
  · refine ⟨spaced w.modifiers ++ (w.keyword ++ [' ']), w.name, ?_, by simp, h.name.ne_nil, ?_, ?_⟩
    · simp [declared, htail]
    · intro hlone
      simpa [htypes, hparams, hreturn] using h.lone hlone
    · exact h.name.not_isSpace
  · refine ⟨spaced w.modifiers ++ (w.keyword ++ ' ' :: (w.name ++ front)), [last], ?_, by simp,
      List.cons_ne_nil _ _, ?_, ?_⟩
    · simp [declared, htail]
    · simpa using hunderscore
    · simpa using hspace

end Written

/-- A header that is written in the usual form is read as it is meant. -/
theorem parse?_written {w : Written} (h : w.Proper) : parse? w.line = some w.header := by
  obtain ⟨hblock, hmodifier, hword⟩ := keyword_spec h.declaring h.keyword
  have hkeyword := not_isSpace_of_isOneOf (by decide) hblock
  have hne := (isAlpha_of_isOneOf (by decide) hblock).1
  have hname : ∀ c ∈ (w.name ++ w.tail).head?, isSpace c = false := h.name.head?_append w.tail
  have hblank := isSpace_head?_blank (w.name ++ w.tail)
  have hchunk : leadingChunk w.declared = w.keyword := leadingChunk_append hkeyword hblank
  have hnamed : trimStart (afterChunk w.declared) = w.name ++ w.tail := by
    rw [Written.declared, afterChunk_append hkeyword hblank]
    exact trimStart_blank hname
  have hdeclared : ∀ c ∈ w.declared.head?, isSpace c = false := by
    obtain ⟨c, more, hcons⟩ := List.exists_cons_of_ne_nil hne
    rw [Written.declared, hcons]
    rintro _ ⟨⟩
    exact hkeyword c (by simp [hcons])
  have hmodifiers : takeModifiers modifierWords (spaced w.modifiers ++ w.declared) =
      (w.modifiers, w.declared) := by
    apply takeModifiers_spaced (by decide) h.modifiers hdeclared
    apply takeModifiers_eq_nil
    simp [hchunk, hmodifier]
  -- the line without its indentation, and how it ends
  obtain ⟨front, word, htext, hfront, hword_ne, hlone, hseen⟩ := h.exists_last
  have hhead := head?_spaced_append (by decide) h.modifiers hdeclared
  have htrim : trim w.line = spaced w.modifiers ++ w.declared := by
    rw [w.line_eq]
    apply trim_append h.indent hhead
    rw [htext, List.getLast?_append_of_ne_nil _ hword_ne]
    exact fun c hc ↦ hseen c (List.mem_of_getLast? hc)
  have hindent : indentOf w.line = byteSize w.indent := by
    rw [w.line_eq]
    exact indentOf_append h.indent hhead
  have hcontinued : isContinued (spaced w.modifiers ++ w.declared) = false := by
    rw [htext]
    exact isContinued_append hfront hword_ne hseen hlone
  -- the name and what follows it
  have hdotted : dottedName? (w.name ++ w.tail) = some w.name := by
    apply dottedName?_append h.name
    intro c hc
    obtain rfl | rfl := w.head?_tail c hc
    · decide
    · decide
  have hgroups := readGroups_written h
  dsimp only at hgroups
  rw [← Written.tail] at hgroups
  have hlibrary : skipLibraryClauses w.tail = w.tail :=
    skipLibraryClauses_eq_self (not_library_tail _ _ _)
  have hreturn := returnType?_returnClause h.returnType
  rw [parse?]
  simp only [htrim, hindent, hmodifiers, hchunk, hblock, hnamed, hword, hdotted, List.drop_left,
    hlibrary, hgroups, hcontinued, hreturn, if_true, w.offset_name, w.offset_params]
  rfl

/-- A method with a dotted name, letters beyond ASCII, and parentheses within its groups and in a
literal. -/
def nestedGroups : Written where
  indent := "\t ".toList
  modifiers := ["public".toList, "SHARED".toList]
  block := .function
  keyword := "function".toList
  name := "Größe.pick".toList
  typeParams := some "Of T".toList
  params := some "f(), s As String = \")\"".toList
  returnType := some "List(Of T)".toList

theorem proper_nestedGroups : nestedGroups.Proper where
  indent := by decide
  modifiers := by decide
  declaring := by decide
  keyword := by decide
  name := .dotted (s := "Größe".toList) (t := "pick".toList)
    ⟨'G', "röße".toList, rfl, by decide, by decide +kernel⟩
    (.name ⟨'p', "ick".toList, rfl, by decide, by decide⟩)
  lone := by decide
  typeParams := by
    rintro _ ⟨⟩
    exact ⟨by decide, ⟨"Of".toList, "T".toList, rfl, by decide, by decide⟩, .of_plain (by decide)⟩
  params := by
    rintro _ ⟨⟩
    refine ⟨by decide, ?_⟩
    have hgroup : Nested roundBrackets [] "()".toList := .group (by decide) .nil .nil
    have hliteral : Nested roundBrackets [] "\")\"".toList :=
      @Nested.literal _ _ [')'] _ (by decide) .nil
    exact (Nested.of_plain (s := ['f']) (by decide)).append
      (hgroup.append ((Nested.of_plain (s := ", s As String = ".toList) (by decide)).append hliteral))
  plain := by
    rintro ⟨⟩
  returnType := by
    rintro _ ⟨⟩
    exact ⟨by decide, by decide, by decide, by decide⟩

theorem parse?_written_nestedGroups :
    let line := "\t public SHARED function Größe.pick(Of T)(f(), s As String = \")\") As List(Of T)"
    nestedGroups.Proper ∧
    parse? line.toList = some
      { block := .function
        modifiers := ["public".toList, "SHARED".toList]
        name := "Größe.pick".toList
        nameOffset := 25
        typeParams := some "Of T".toList
        params := some "f(), s As String = \")\"".toList
        paramsOffset := 44
        returnType := some "List(Of T)".toList
        continued := false } := by
  intro line
  have hline : nestedGroups.line = line.toList := by decide +kernel
  refine ⟨proper_nestedGroups, ?_⟩
  rw [← hline, parse?_written proper_nestedGroups, Option.some.injEq]
  decide +kernel

end Header

end VbOutline
