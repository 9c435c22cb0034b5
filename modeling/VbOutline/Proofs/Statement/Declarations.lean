import VbOutline.Proofs.Line.Nesting
import VbOutline.Proofs.Line.Words
import VbOutline.Proofs.Statement.Names

/-!
# Declarations as they are written

A declaration that is written in the usual form, a list of names with a type or an initial value or
both, is read back as it was meant. Types and values may hold anything whose brackets are closed, so
also commas and equals signs within them. The modifiers of the declaration are read up to case
folding, so a first name that folds to one of them, with a long s in it, is taken for a modifier when
a type or a value follows it.
-/

namespace VbOutline

open Text Line

namespace Line

/-- The characters that have a meaning in a list of declarators. -/
def signs : List Char := [',', '=', '"', '(', ')', '\x7b', '\x7d', '<', '>']

theorem not_mem_signs_of_isSpace {c : Char} (h : isSpace c) : c ∉ signs := by
  simpa using of_isSpace (p := fun c ↦ !signs.contains c) (by decide) h

theorem not_mem_signs_of_isWordChar {c : Char} (h : isWordChar c) : c ∉ signs := by
  intro hc
  have hall : ∀ d ∈ signs, isWordChar d = false := by decide
  cases h.symm.trans (hall c hc)

theorem Nested.of_not_mem_signs {brackets : Brackets} {barred : List Char} {s : Text}
    (hsigns : ∀ c ∈ barred ++ '"' :: brackets.opening ++ brackets.closing, c ∈ signs)
    (h : ∀ c ∈ s, c ∉ signs) : Nested brackets barred s := by
  apply Nested.of_plain
  intro c hc
  simp only [List.mem_append, List.mem_cons] at hsigns
  have hplain := h c hc
  refine ⟨?_, ?_, ?_, ?_⟩ <;> (intro hsign; exact hplain (hsigns c (by simp [hsign])))

end Line

namespace Declarator

/-- A declarator with its parts as they are written, after white space. -/
structure Written where
  gap : Text
  name : Text
  type : Option Text
  value : Option Text

/-- A type as it is written without the word `New`. Its brackets are closed, and outside of them there
is no comma; an equals sign is told from an assignment by round and curly brackets only. -/
structure IsType (type : Text) : Prop where
  ne_nil : type ≠ []
  trim : Text.trim type = type
  plain : ∀ word c rest, type = word ++ c :: rest → isSpace c → isKeyword "new" word = false
  clauseFree : ClauseFree ["with", "from"] type
  nested : Nested listBrackets [','] type
  unassigned : Nested valueBrackets ['='] type

def typeClause : Option Text → Text
  | some type => ' ' :: 'A' :: 's' :: ' ' :: type
  | none => []

def valueClause : Option Text → Text
  | some value => ' ' :: '=' :: ' ' :: value
  | none => []

namespace Written

variable (d : Written)

/-- The name and its type. -/
def head : Text := d.name ++ typeClause d.type

def text : Text := d.gap ++ (d.head ++ valueClause d.value)

/-- The parts of a declarator are of the right form. -/
structure Proper : Prop where
  gap : ∀ c ∈ d.gap, isSpace c
  name : IsName d.name
  free : isReserved d.name = false
  type : ∀ type ∈ d.type, IsType type
  value : ∀ value ∈ d.value, Nested listBrackets [','] value

/-- What is read at the declarator alone, where its piece begins at `offset`. -/
def own (offset : Nat) : Declarator where
  name := d.name
  offset := offset + byteSize d.gap
  ownType := d.type
  effectiveType := none
  hasInitializer := d.value.isSome

end Written

/-- The declarators that are meant, each with the nearest type to its right unless it has a type or a
value of its own. -/
def readings (offset : Nat) : List Written → List Declarator
  | [] => []
  | d :: ds =>
    { d.own offset with
      effectiveType := d.type.or (if d.value.isSome then none else ds.findSome? (·.type)) } ::
        readings (offset + byteSize d.text + 1) ds

/-- It is enough to look at the first word of a type. -/
theorem not_isKeyword_of_leadingChunk {type : Text}
    (h : isKeyword "new" (leadingChunk type) = false) :
    ∀ word c rest, type = word ++ c :: rest → isSpace c → isKeyword "new" word = false := by
  rintro word c rest rfl hc
  rw [Bool.eq_false_iff]
  intro hnew
  have hone : isOneOf ["new"] word :=
    List.contains_iff_mem.2 (List.mem_singleton.2 (beq_iff_eq.1 hnew))
  have hblank : ∀ d ∈ (c :: rest).head?, isSpace d := by
    rintro _ ⟨⟩
    exact hc
  rw [leadingChunk_append (not_isSpace_of_isOneOf (by decide) hone) hblank] at h
  cases hnew.symm.trans h

theorem ofText_isType {type : Text} (h : IsType type) : TypeClause.ofText type = ⟨false, type⟩ := by
  rw [TypeClause.ofText, if_neg]
  rw [Bool.and_eq_true, Bool.not_eq_true', List.isEmpty_eq_false_iff]
  rintro ⟨hnew, hne⟩
  obtain ⟨c, rest, hafter⟩ := List.exists_cons_of_ne_nil hne
  have hspace : isSpace c := by
    have hhead := List.head?_dropWhile_not (fun c ↦ !isSpace c) type
    rw [show type.dropWhile (fun c ↦ !isSpace c) = c :: rest from hafter] at hhead
    simpa using hhead
  have hsplit : type = leadingChunk type ++ c :: rest := by
    rw [← hafter]
    exact List.takeWhile_append_dropWhile.symm
  cases (h.plain _ c rest hsplit hspace).symm.trans hnew

theorem typeName_isType {type : Text} (h : IsType type) :
    TypeClause.typeName ⟨false, type⟩ = type := by
  rw [TypeClause.typeName]
  simp only [Bool.false_eq_true, if_false]
  rw [cutBefore_eq_self h.clauseFree, h.trim]

/-- What follows the word `As` is read as a type clause. -/
theorem parse?_typeClause {type : Text} (hhead : ∀ c ∈ type.head?, isSpace c = false) :
    TypeClause.parse? (typeClause (some type)) = some (some (TypeClause.ofText type)) := by
  have hclause : trimStart (typeClause (some type)) = ['A', 's'] ++ ' ' :: type :=
    trimStart_blank (by
      rintro _ ⟨⟩
      decide)
  have hblank := isSpace_head?_blank type
  have hseen : trimStart (['A', 's'] ++ ' ' :: type) = ['A', 's'] ++ ' ' :: type :=
    trimStart_eq_self (by
      rintro _ ⟨⟩
      decide)
  have hafter : trimStart (' ' :: type) = type := trimStart_blank hhead
  have hchunk : leadingChunk (['A', 's'] ++ ' ' :: type) = ['A', 's'] :=
    leadingChunk_append (by decide) hblank
  have hrest : afterChunk (['A', 's'] ++ ' ' :: type) = ' ' :: type :=
    afterChunk_append (by decide) hblank
  have hbounds : TypeClause.afterBounds? (['A', 's'] ++ ' ' :: type) =
      some (['A', 's'] ++ ' ' :: type) := rfl
  have hnullable : TypeClause.afterNullable (['A', 's'] ++ ' ' :: type) =
      ['A', 's'] ++ ' ' :: type := rfl
  have has : isKeyword "as" ['A', 's'] := by decide
  rw [TypeClause.parse?, hclause, hbounds]
  simp only [hnullable, hseen, hchunk, hrest, hafter, has]
  simp

/-- A name with a type clause or nothing after it. -/
theorem nameAndType?_append {name : Text} (hname : IsName name) {clause : Text}
    (hclause : ∀ c ∈ clause.head?, isWordChar c = false) {read : Option TypeClause}
    (hread : TypeClause.parse? clause = some read) :
    nameAndType? (name ++ clause) = some (name, read) := by
  have hword : leadingWord (name ++ clause) = name := leadingWord_append hname.isWordChar hclause
  rw [nameAndType?, if_pos (hname.any_head? clause)]
  simp only [hword, List.drop_left, hread]

namespace Written

variable {d : Written}

theorem Proper.nameAndType? (h : d.Proper) :
    Declarator.nameAndType? d.head = some (d.name, d.type.map fun type ↦ ⟨false, type⟩) := by
  rw [head]
  cases htype : d.type with
  | none => exact nameAndType?_append h.name (by simp [typeClause]) rfl
  | some type =>
    have hproper := h.type type htype
    apply nameAndType?_append h.name
    · rintro _ ⟨⟩
      decide
    · rw [parse?_typeClause (not_isSpace_of_trim_eq_self hproper.trim).1,
        ofText_isType hproper]
      rfl

/-- The name and its type begin and end with something that can be seen. -/
theorem Proper.head_seen (h : d.Proper) (rest : Text) :
    (∀ c ∈ (d.head ++ rest).head?, isSpace c = false) ∧ ∀ c ∈ d.head.getLast?, isSpace c = false := by
  have hname : ∀ c ∈ d.name, isSpace c = false := by
    intro c hc
    exact not_isSpace_of_isWordChar (h.name.isWordChar c hc)
  refine ⟨?_, ?_⟩
  · rw [head, List.append_assoc]
    exact (IsPath.name h.name).head?_append _
  · rw [head]
    cases htype : d.type with
    | none => simpa [typeClause] using fun c hc ↦ hname c (List.mem_of_getLast? hc)
    | some type =>
      have hproper := h.type type htype
      change ∀ c ∈ (d.name ++ ([' ', 'A', 's', ' '] ++ type)).getLast?, isSpace c = false
      rw [← List.append_assoc, List.getLast?_append_of_ne_nil _ hproper.ne_nil]
      exact (not_isSpace_of_trim_eq_self hproper.trim).2

theorem Proper.trim_head (h : d.Proper) {before after : Text} (hbefore : ∀ c ∈ before, isSpace c)
    (hafter : ∀ c ∈ after, isSpace c) : trim (before ++ (d.head ++ after)) = d.head := by
  rw [trim, trimStart_append hbefore (h.head_seen after).1, trimEnd_append_of_all hafter,
    trimEnd_eq_self (h.head_seen []).2]

/-- The name and its type hold no assignment. -/
theorem Proper.nested_head (h : d.Proper) : Nested valueBrackets ['='] (d.gap ++ d.head) := by
  have hgap : Nested valueBrackets ['='] d.gap :=
    .of_not_mem_signs (by decide) fun c hc ↦ not_mem_signs_of_isSpace (h.gap c hc)
  have hname : Nested valueBrackets ['='] d.name :=
    .of_not_mem_signs (by decide) fun c hc ↦ not_mem_signs_of_isWordChar (h.name.isWordChar c hc)
  refine hgap.append (hname.append ?_)
  cases htype : d.type with
  | none => exact .nil
  | some type =>
    exact (Nested.of_not_mem_signs (s := [' ', 'A', 's', ' ']) (by decide) (by decide)).append
      (h.type type htype).unassigned

/-- A declarator is one item of a list. -/
theorem Proper.isItem (h : d.Proper) : IsItem d.text := by
  have hgap : Nested listBrackets [','] d.gap :=
    .of_not_mem_signs (by decide) fun c hc ↦ not_mem_signs_of_isSpace (h.gap c hc)
  have hname : Nested listBrackets [','] d.name :=
    .of_not_mem_signs (by decide) fun c hc ↦ not_mem_signs_of_isWordChar (h.name.isWordChar c hc)
  have htype : Nested listBrackets [','] (typeClause d.type) := by
    cases htype : d.type with
    | none => exact .nil
    | some type =>
      exact (Nested.of_not_mem_signs (s := [' ', 'A', 's', ' ']) (by decide) (by decide)).append
        (h.type type htype).nested
  have hvalue : Nested listBrackets [','] (valueClause d.value) := by
    cases hvalue : d.value with
    | none => exact .nil
    | some value =>
      exact (Nested.of_plain (s := [' ', '=', ' ']) (by decide)).append (h.value value hvalue)
  exact (hgap.append ((hname.append htype).append hvalue)).isItem

/-- A piece is read as the declarator that is written in it, whatever its value is. -/
theorem Proper.ofPiece?_eq (h : d.Proper) (offset : Nat) {rest : Text}
    (hrest : if d.value.isSome then ∃ value, rest = ' ' :: '=' :: value else rest = []) :
    ofPiece? offset (d.gap ++ (d.head ++ rest)) = some (d.own offset) := by
  have hindent : indentOf (d.gap ++ (d.head ++ rest)) = byteSize d.gap :=
    indentOf_append h.gap (h.head_seen rest).1
  have hassigned : (beforeAssignment? (d.gap ++ (d.head ++ rest))).isSome = d.value.isSome ∧
      trim ((beforeAssignment? (d.gap ++ (d.head ++ rest))).getD (d.gap ++ (d.head ++ rest))) =
        d.head := by
    cases hvalue : d.value with
    | none =>
      obtain rfl : rest = [] := by simpa [hvalue] using hrest
      rw [List.append_nil, beforeAssignment?_eq_none_iff.2
        (h.nested_head.not_standsOutside distinct_valueBrackets (by decide) List.mem_cons_self)]
      exact ⟨rfl, by simpa using h.trim_head h.gap (List.forall_mem_nil _)⟩
    | some _ =>
      obtain ⟨value, rfl⟩ : ∃ value, rest = ' ' :: '=' :: value := by simpa [hvalue] using hrest
      have hblank : Nested valueBrackets ['='] [' '] := .of_plain (by decide)
      have hhead := h.nested_head.append hblank
      have hsplit : d.gap ++ (d.head ++ ' ' :: '=' :: value) =
          (d.gap ++ d.head ++ [' ']) ++ '=' :: value := by simp
      rw [hsplit, beforeAssignment?_append (hhead.scan_eq distinct_valueBrackets 0)
        (hhead.not_standsOutside distinct_valueBrackets (by decide) List.mem_cons_self)]
      refine ⟨rfl, ?_⟩
      rw [Option.getD_some, List.append_assoc]
      exact h.trim_head h.gap (by decide)
  have htype : (d.type.map fun type ↦ (⟨false, type⟩ : TypeClause)).map TypeClause.typeName =
      d.type := by
    cases htype : d.type with
    | none => rfl
    | some type => simp [typeName_isType (h.type type htype)]
  rw [ofPiece?]
  simp only [hassigned.2, h.nameAndType?, h.free, Bool.false_eq_true, if_false, htype, hindent,
    hassigned.1]
  rfl

end Written

/-! ## Lists of declarators -/

namespace Written

variable {d : Written}

/-- At the end of a line the white space after a declarator is lost. -/
theorem Proper.ofPiece?_trimEnd (h : d.Proper) (offset : Nat) :
    ofPiece? offset (trimEnd d.text) = some (d.own offset) := by
  cases hvalue : d.value with
  | none =>
    have htext : trimEnd d.text = d.gap ++ (d.head ++ []) := by
      rw [text, hvalue, valueClause, List.append_nil]
      apply trimEnd_eq_self
      rw [List.getLast?_append_of_ne_nil _ (by simp [head, h.name.ne_nil])]
      exact (h.head_seen []).2
    rw [htext]
    exact h.ofPiece?_eq offset (by simp [hvalue])
  | some value =>
    have htext : d.text = (d.gap ++ d.head ++ [' ']) ++ '=' :: (' ' :: value) := by
      simp [text, hvalue, valueClause]
    have htrim : trimEnd d.text = d.gap ++ (d.head ++ ' ' :: '=' :: trimEnd (' ' :: value)) := by
      rw [htext, trimEnd_append_cons _ (by decide)]
      simp
    rw [htrim]
    exact h.ofPiece?_eq offset (by simp [hvalue])

theorem Proper.ofPiece?_text (h : d.Proper) (offset : Nat) :
    ofPiece? offset d.text = some (d.own offset) := by
  apply h.ofPiece?_eq
  cases d.value <;> simp [valueClause]

end Written

/-- Declarators with commas between them. -/
def listed (ds : List Written) : Text := [','].intercalate (ds.map Written.text)

theorem listed_cons_cons (d e : Written) (ds : List Written) :
    listed (d :: e :: ds) = d.text ++ ',' :: listed (e :: ds) := by
  rw [listed, listed, List.map_cons, List.intercalate_cons_of_ne_nil (by simp), List.append_assoc,
    List.singleton_append]

/-- What is read at each declarator alone. -/
def owns (offset : Nat) : List Written → List Declarator
  | [] => []
  | d :: ds => d.own offset :: owns (offset + byteSize d.text + 1) ds

/-- The declarators of a list are read one by one. -/
theorem mapM_ofPiece?_listed {ds : List Written} (hne : ds ≠ []) (h : ∀ d ∈ ds, d.Proper)
    (base start : Nat) :
    (withOffsets start (pieces (trimEnd (listed ds)))).mapM
        (fun (offset, piece) ↦ ofPiece? (base + offset) piece) =
      some (owns (base + start) ds) := by
  induction ds generalizing start with
  | nil => exact absurd rfl hne
  | cons d ds ih =>
    obtain ⟨hd, hds⟩ := List.forall_mem_cons.1 h
    cases ds with
    | nil =>
      have hlisted : listed [d] = d.text := List.intercalate_singleton
      have hcomma : ¬ StandsOutside listBrackets ',' (trimEnd d.text) :=
        fun hcomma ↦ hd.isItem.comma (hcomma.of_isPrefix (trimEnd_isPrefix d.text))
      rw [hlisted, pieces_eq_singleton hcomma, withOffsets, withOffsets]
      simp [hd.ofPiece?_trimEnd, owns]
    | cons e ds =>
      rw [listed_cons_cons, trimEnd_append_cons _ (by decide), pieces_append_comma hd.isItem,
        withOffsets, List.mapM_cons]
      simp only [hd.ofPiece?_text, ih (List.cons_ne_nil e ds) hds]
      have hoffset : base + (start + byteSize d.text + 1) = base + start + byteSize d.text + 1 := by
        omega
      rw [hoffset]
      rfl

/-- From right to left the nearest type is held beside the names. -/
theorem fst_foldr_share (ds : List Declarator) :
    (ds.foldr (fun d (next, done) ↦
      let shared := if d.hasInitializer then none else next
      (d.ownType.or next, { d with effectiveType := d.ownType.or shared } :: done)) (none, [])).1 =
        ds.findSome? (·.ownType) := by
  induction ds with
  | nil => rfl
  | cons d ds ih =>
    rw [List.foldr_cons, List.findSome?_cons]
    dsimp only
    rw [ih]
    cases d.ownType <;> rfl

/-- A declarator without a type of its own and without a value takes the nearest type to its right. -/
theorem shareTypes_cons (x : Declarator) (xs : List Declarator) :
    shareTypes (x :: xs) =
      { x with
        effectiveType :=
          x.ownType.or (if x.hasInitializer then none else xs.findSome? (·.ownType)) } ::
        shareTypes xs := by
  rw [shareTypes, List.foldr_cons]
  dsimp only
  rw [fst_foldr_share]
  rfl

theorem exists_of_shareTypes_eq_singleton {ds : List Declarator} {x : Declarator}
    (h : shareTypes ds = [x]) : ∃ y, ds = [y] ∧ y.ownType = x.ownType := by
  have hlength : (shareTypes ds).length = ds.length := by
    simpa using congrArg List.length (map_shareTypes ds)
  rw [h] at hlength
  obtain ⟨y, rfl⟩ := List.length_eq_one_iff.1 hlength.symm
  rw [shareTypes_cons] at h
  obtain ⟨rfl, -⟩ := List.cons.inj h
  exact ⟨y, rfl, rfl⟩

theorem findSome?_owns (offset : Nat) (ds : List Written) :
    (owns offset ds).findSome? (·.ownType) = ds.findSome? (·.type) := by
  induction ds generalizing offset with
  | nil => rfl
  | cons d ds ih =>
    rw [owns, List.findSome?_cons, List.findSome?_cons, ih]
    rfl

theorem shareTypes_owns (offset : Nat) (ds : List Written) :
    shareTypes (owns offset ds) = readings offset ds := by
  induction ds generalizing offset with
  | nil => rfl
  | cons d ds ih =>
    rw [owns, shareTypes_cons, readings, ih, findSome?_owns]
    rfl

end Declarator

/-! ## The line -/

namespace Declaration

/-- A declaration with its parts as they are written. -/
structure Written where
  indent : Text
  modifiers : List Text
  declarators : List Declarator.Written

namespace Written

variable (w : Written)

/-- The line of the declaration. -/
def line : Text := w.indent ++ (spaced w.modifiers ++ Declarator.listed w.declarators)

/-- The declaration that is meant. -/
def declaration : Declaration :=
  ⟨w.modifiers, Declarator.readings (byteSize (w.indent ++ spaced w.modifiers)) w.declarators⟩

/-- The parts of a declaration are of the right form, and they are written on one line. -/
structure Proper : Prop where
  indent : ∀ c ∈ w.indent, isSpace c
  modifiers : ∀ m ∈ w.modifiers, isOneOf modifierWords m
  declares : ∃ m ∈ w.modifiers,
    eqAscii m "Dim".toList ∨ eqAscii m "Const".toList ∨ eqAscii m "Static".toList
  ne_nil : w.declarators ≠ []
  declarators : ∀ d ∈ w.declarators, d.Proper
  oneLine : '\n' ∉ Declarator.listed w.declarators
  first_gap : ∀ d ∈ w.declarators.head?, d.gap = []

/-- The first name is not taken for a modifier: it does not fold to one, or it has neither a type nor a
value. -/
def FirstIsName : Prop :=
  ∀ d ∈ w.declarators.head?, isOneOf modifierWords d.name → d.type = none ∧ d.value = none

end Written

/-- After the first name comes nothing, a comma, or a blank and a type or a value. -/
theorem listed_cases (d : Declarator.Written) (ds : List Declarator.Written) (hgap : d.gap = []) :
    Declarator.listed (d :: ds) = d.name ∨
      (∃ rest, Declarator.listed (d :: ds) = d.name ++ ',' :: rest) ∨
      ∃ c rest, isSpace c = false ∧ Declarator.listed (d :: ds) = d.name ++ ' ' :: c :: rest ∧
        ¬ (d.type = none ∧ d.value = none) := by
  obtain ⟨tail, htail, hlisted⟩ : ∃ tail, (tail = [] ∨ ∃ rest, tail = ',' :: rest) ∧
      Declarator.listed (d :: ds) = d.text ++ tail := by
    cases ds with
    | nil => exact ⟨[], .inl rfl, by rw [List.append_nil]; exact List.intercalate_singleton⟩
    | cons e ds => exact ⟨_, .inr ⟨_, rfl⟩, Declarator.listed_cons_cons d e ds⟩
  have htext : d.text ++ tail =
      d.name ++ (Declarator.typeClause d.type ++ (Declarator.valueClause d.value ++ tail)) := by
    simp [Declarator.Written.text, Declarator.Written.head, hgap]
  rw [hlisted, htext]
  cases htype : d.type with
  | some type =>
    refine .inr (.inr ⟨'A', 's' :: ' ' :: type ++ (Declarator.valueClause d.value ++ tail), ?_⟩)
    exact ⟨by decide, rfl, by simp⟩
  | none =>
    cases hvalue : d.value with
    | some value => exact .inr (.inr ⟨'=', ' ' :: value ++ tail, by decide, rfl, by simp⟩)
    | none =>
      obtain rfl | ⟨rest, rfl⟩ := htail
      · exact .inl (List.append_nil d.name)
      · exact .inr (.inl ⟨rest, rfl⟩)

/-- The first name of a declaration ends its modifiers. -/
theorem Written.Proper.takeModifiers_listed {w : Written} (h : w.Proper) (hname : w.FirstIsName) :
    (∃ c rest, Declarator.listed w.declarators = c :: rest ∧ isSpace c = false) ∧
      takeModifiers modifierWords (trimEnd (Declarator.listed w.declarators)) =
        ([], trimEnd (Declarator.listed w.declarators)) := by
  obtain ⟨d, ds, hds⟩ := List.exists_cons_of_ne_nil h.ne_nil
  have hd : d.Proper := h.declarators d (by simp [hds])
  have hgap : d.gap = [] := h.first_gap d (by simp [hds])
  have hfirst := hname d (by simp [hds])
  have hname : ∀ c ∈ d.name, isSpace c = false := by
    intro c hc
    exact not_isSpace_of_isWordChar (hd.name.isWordChar c hc)
  have hstart (rest : Text) : ∃ c more, d.name ++ rest = c :: more ∧ isSpace c = false := by
    obtain ⟨c, more, hcons⟩ := List.exists_cons_of_ne_nil hd.name.ne_nil
    exact ⟨c, more ++ rest, by rw [hcons, List.cons_append], hname c (by simp [hcons])⟩
  rw [hds]
  obtain hlisted | ⟨rest, hlisted⟩ | ⟨c, rest, hc, hlisted, hmore⟩ := listed_cases d ds hgap
  · have htrim : trimEnd d.name = d.name :=
      trimEnd_eq_self fun c hc ↦ hname c (List.mem_of_getLast? hc)
    rw [hlisted, htrim]
    refine ⟨by simpa using hstart [], takeModifiers_eq_nil fun _ ↦ ?_⟩
    simpa using afterChunk_append hname (show ∀ c ∈ ([] : Text).head?, isSpace c by simp)
  · rw [hlisted, trimEnd_append_cons _ (by decide)]
    refine ⟨hstart _, takeModifiers_eq_nil fun hmodifier ↦ ?_⟩
    have hcomma : ',' ∈ leadingChunk (d.name ++ ',' :: trimEnd rest) := by
      rw [leadingChunk, List.takeWhile_append_of_pos (by simpa using hname),
        List.takeWhile_cons_of_pos (by decide)]
      simp
    cases (isAlpha_of_isOneOf (by decide) hmodifier).2 ',' hcomma
  · have htrim : trimEnd (d.name ++ ' ' :: c :: rest) = d.name ++ ' ' :: c :: trimEnd rest := by
      simpa using trimEnd_append_cons (d.name ++ [' ']) hc rest
    have hblank := isSpace_head?_blank (c :: trimEnd rest)
    rw [hlisted, htrim]
    refine ⟨hstart _, takeModifiers_eq_nil fun hmodifier ↦ ?_⟩
    rw [leadingChunk_append hname hblank] at hmodifier
    exact absurd (hfirst hmodifier) hmore

/-- A declaration that is written in the usual form is read as it is meant, and each of its names
stands at its offset. -/
theorem parse?_listed {w : Written} (h : w.Proper) (hname : w.FirstIsName) :
    parse? w.line = some w.declaration ∧
      ∀ x ∈ w.declaration.declarators, StandsAt w.line x.offset x.name := by
  obtain ⟨⟨c, rest, hlisted, hc⟩, hfirst⟩ := h.takeModifiers_listed hname
  have hread := Declarator.mapM_ofPiece?_listed h.ne_nil h.declarators
    (byteSize (w.indent ++ spaced w.modifiers)) 0
  have hseen : ∀ d ∈ (Declarator.listed w.declarators).head?, isSpace d = false := by
    rw [hlisted]
    rintro _ ⟨⟩
    exact hc
  have hspaced := head?_spaced_append (by decide) h.modifiers hseen
  -- white space is lost on both sides of the line
  have hend : trimEnd (Declarator.listed w.declarators) = c :: trimEnd rest := by
    rw [hlisted]
    exact trimEnd_append_cons [] hc rest
  have htrim : trim w.line = spaced w.modifiers ++ trimEnd (Declarator.listed w.declarators) := by
    rw [Written.line, trim, trimStart_append h.indent hspaced, hend, hlisted,
      trimEnd_append_cons _ hc]
  have hindent : indentOf w.line = byteSize w.indent := indentOf_append h.indent hspaced
  have hmodifiers : takeModifiers modifierWords
      (spaced w.modifiers ++ trimEnd (Declarator.listed w.declarators)) =
        (w.modifiers, trimEnd (Declarator.listed w.declarators)) := by
    apply takeModifiers_spaced (by decide) h.modifiers _ hfirst
    rw [hend]
    rintro _ ⟨⟩
    exact hc
  have hfeed : '\n' ∉ trimEnd (Declarator.listed w.declarators) :=
    fun hfeed ↦ h.oneLine ((trimEnd_isPrefix _).subset hfeed)
  have hoffset : indentOf w.line +
      offsetOf (trim w.line) (trimEnd (Declarator.listed w.declarators)) =
        byteSize (w.indent ++ spaced w.modifiers) := by
    rw [hindent, htrim, offsetOf_append, byteSize_append]
  have hexplicit (ds : List Declarator) : isExplicit ⟨w.modifiers, ds⟩ := by
    obtain ⟨m, hm, hdeclares⟩ := h.declares
    simp only [isExplicit, isDim, isConst, hasModifier, Bool.or_eq_true, List.any_eq_true]
    obtain hdim | hconst | hstatic := hdeclares
    · exact .inl (.inl ⟨m, hm, hdim⟩)
    · exact .inl (.inr ⟨m, hm, hconst⟩)
    · exact .inr ⟨m, hm, hstatic⟩
  have hne : w.modifiers ≠ [] := by
    obtain ⟨m, hm, -⟩ := h.declares
    exact List.ne_nil_of_mem hm
  have hparse : parse? w.line = some w.declaration := by
    rw [htrim] at hoffset
    rw [parse?]
    simp only [htrim, hmodifiers, hoffset, splitTopLevel, hread, hexplicit, Bool.true_or, if_true,
      Declarator.shareTypes_owns]
    rw [if_neg (by simp [hne, hfeed])]
    rfl
  exact ⟨hparse, fun x hx ↦ standsAt_declarator hparse hx⟩

/-- Commas, an equals sign and a parenthesis inside brackets and literals. -/
def closedSigns : Written where
  indent := "  ".toList
  modifiers := ["public".toList, "DIM".toList]
  declarators :=
    [⟨[], "a".toList, none, none⟩,
      ⟨" ".toList, "größe".toList, some "Dictionary(Of K, V)".toList, none⟩,
      ⟨[], "c".toList, none, some "f(1, \")\")".toList⟩]

theorem proper_closedSigns : closedSigns.Proper where
  indent := by decide
  modifiers := by decide
  declares := ⟨"DIM".toList, by decide, by decide⟩
  ne_nil := by decide
  declarators := by
    have hvalue : Nested listBrackets [','] "f(1, \")\")".toList := by
      have hinside : Nested listBrackets [] "1, \")\"".toList :=
        (Nested.of_plain (s := "1, ".toList) (by decide)).append
          (@Nested.literal _ _ [')'] _ (by decide) .nil)
      exact (Nested.of_plain (s := ['f']) (by decide)).append
        (@Nested.group _ _ '(' ')' _ _ (by decide) hinside .nil)
    have htype : Declarator.IsType "Dictionary(Of K, V)".toList := by
      have hinside (brackets : Brackets)
          (h : ∀ c ∈ "Of K, V".toList, c ∉ brackets.opening ∧ c ∉ brackets.closing) :
          Nested brackets [] "Of K, V".toList := by
        apply Nested.of_plain
        intro c hc
        refine ⟨by simp, ?_, h c hc⟩
        rintro rfl
        revert hc
        decide
      refine ⟨by decide, by decide, Declarator.not_isKeyword_of_leadingChunk (by decide), by decide,
        ?_, ?_⟩
      · exact (Nested.of_plain (s := "Dictionary".toList) (by decide)).append
          (@Nested.group _ _ '(' ')' _ _ (by decide) (hinside _ (by decide)) .nil)
      · exact (Nested.of_plain (s := "Dictionary".toList) (by decide)).append
          (@Nested.group _ _ '(' ')' _ _ (by decide) (hinside _ (by decide)) .nil)
    simp only [closedSigns, List.forall_mem_cons, List.not_mem_nil, false_implies, implies_true,
      and_true]
    refine ⟨⟨by decide, ⟨'a', [], rfl, by decide, by simp⟩, by decide, by simp, by simp⟩, ?_, ?_⟩
    · exact ⟨by decide, ⟨'g', "röße".toList, rfl, by decide, by decide +kernel⟩, by decide +kernel,
        by rintro _ ⟨⟩; exact htype, by simp⟩
    · exact ⟨by decide, ⟨'c', [], rfl, by decide, by simp⟩, by decide, by simp,
        by rintro _ ⟨⟩; exact hvalue⟩
  oneLine := by decide
  first_gap := by decide

theorem parse?_listed_closedSigns :
    let type := "Dictionary(Of K, V)".toList
    closedSigns.Proper ∧ closedSigns.FirstIsName ∧
    parse? "  public DIM a, größe As Dictionary(Of K, V),c = f(1, \")\")".toList =
      some ⟨["public".toList, "DIM".toList],
        [⟨"a".toList, 13, none, some type, false⟩, ⟨"größe".toList, 16, some type, some type, false⟩,
          ⟨"c".toList, 47, none, none, true⟩]⟩ := by
  intro type
  have hname : closedSigns.FirstIsName := by
    rintro _ ⟨⟩
    decide
  have hline : closedSigns.line =
      "  public DIM a, größe As Dictionary(Of K, V),c = f(1, \")\")".toList := by decide +kernel
  refine ⟨proper_closedSigns, hname, ?_⟩
  rw [← hline, (parse?_listed proper_closedSigns hname).1, Option.some.injEq]
  decide +kernel

/-- A declaration of a name that is written like a modifier, with a long s. -/
def longShared : Written where
  indent := []
  modifiers := ["Dim".toList]
  declarators := [⟨[], "ſhared".toList, some "Integer".toList, none⟩]

/-- The name is taken for a modifier, so there is nothing left that could be declared. -/
theorem parse?_longShared :
    longShared.Proper ∧ longShared.line = "Dim ſhared As Integer".toList ∧
      parse? longShared.line = none := by
  refine ⟨⟨by decide, by decide, ⟨"Dim".toList, by decide, by decide⟩, by decide, ?_, by decide,
    by decide⟩, by decide +kernel, by decide +kernel⟩
  simp only [longShared, List.forall_mem_singleton]
  refine ⟨by decide, ⟨'ſ', "hared".toList, rfl, by decide +kernel, by decide⟩, by decide +kernel, ?_,
    by simp⟩
  rintro _ ⟨⟩
  exact ⟨by decide, by decide, Declarator.not_isKeyword_of_leadingChunk (by decide), by decide,
    .of_plain (by decide), .of_plain (by decide)⟩

end Declaration

end VbOutline
