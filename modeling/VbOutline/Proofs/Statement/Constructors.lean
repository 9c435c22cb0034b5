import VbOutline.Proofs.Statement.Declarations
import VbOutline.Proofs.Statement.Headers

/-!
# Declarations with a constructor

A name that is declared with a new object has the type that is constructed. The arguments of the
constructor are cut off at the last opening parenthesis of the declaration, which is their own one
only if there is none among them. So the type is read as it is written for a flat list of arguments,
and with a call inside the list it ends in the middle of the arguments.
-/

namespace VbOutline

open Text Line

/-- A name that is declared with a new object, with its parts as they are written. -/
structure Construction where
  name : Text
  path : Text
  typeParams : Option Text
  arguments : Text

namespace Construction

variable (c : Construction)

/-- The words that begin an initializer clause. -/
def clauseWords : List String := ["with", "from"]

def type : Text := c.path ++ Header.group c.typeParams

/-- The type with the arguments of its constructor. -/
def call : Text := c.type ++ Header.group (some c.arguments)

def body : Text := c.name ++ Declarator.typeClause (some ("New ".toList ++ c.call))

/-- The line of the declaration. -/
def line : Text := spaced ["Dim".toList] ++ c.body

/-- The parts of the declaration are of the right form. -/
structure Proper : Prop where
  name : IsName c.name
  free : isReserved c.name = false ∧ isOneOf Declaration.modifierWords c.name = false
  path : IsPath c.path
  typeParams : ∀ list ∈ c.typeParams, Header.IsGenericList list ∧ Balanced list
  arguments : Balanced c.arguments
  unquoted : '"' ∉ c.arguments ∧ '<' ∉ c.arguments ∧ '>' ∉ c.arguments
  clauseFree : ClauseFree clauseWords c.arguments

/-- Nothing in the declaration misleads its reading: the arguments are flat and no type arguments
themselves, there is no clause in the type arguments, and the declaration is one piece of a list
without an initial value. -/
structure Plain : Prop where
  flat : '(' ∉ c.arguments
  no_types : ¬ Header.IsGenericList (trimStart (c.arguments ++ [')']))
  clauseFree : ∀ list ∈ c.typeParams, ClauseFree clauseWords list
  comma : ¬ StandsOutside listBrackets ',' c.body
  assignment : ¬ StandsOutside valueBrackets '=' c.body
  oneLine : '\n' ∉ c.body

variable {c : Construction} {s : Text}

theorem call_eq : c.call = c.type ++ '(' :: (c.arguments ++ [')']) := rfl

theorem not_isGenericList_iff :
    ¬ Header.IsGenericList (trimStart s) ↔ isGenericGroup s = false := by
  rw [← Header.isGenericGroup_iff (trimStart_trimStart s), isGenericGroup, isGenericGroup,
    trimStart_trimStart, Bool.not_eq_true]

theorem clauseFree_group (words : List String) (s list : Text) :
    ClauseFree words (s ++ Header.group (some list)) ↔
      ClauseFree words s ∧ ClauseFree words list := by
  have hend : ClauseFree words [] := .of_seen (by simp)
  rw [Header.group, clauseFree_append_cons (by decide) (by decide),
    clauseFree_append_cons (s := list) (by decide) (by decide)]
  exact and_congr_right fun _ ↦ and_iff_left hend

theorem Proper.clauseFree_call_iff (h : c.Proper) :
    ClauseFree clauseWords c.call ↔ ∀ list ∈ c.typeParams, ClauseFree clauseWords list := by
  have hpath : ClauseFree clauseWords c.path := .of_seen h.path.not_isSpace
  rw [call, clauseFree_group, and_iff_left h.clauseFree, type]
  cases htypes : c.typeParams with
  | none => simpa [Header.group] using hpath
  | some list => simpa [clauseFree_group] using fun _ ↦ hpath

theorem Proper.seen_of_isPrefix (h : c.Proper) (hs : s <+: c.call) :
    ∀ d ∈ s.head?, isSpace d = false := by
  obtain ⟨more, hmore⟩ := hs
  cases s with
  | nil => simp
  | cons d s =>
    rintro _ ⟨⟩
    apply h.path.head?_append (Header.group c.typeParams ++ Header.group (some c.arguments))
    rw [← List.append_assoc, show c.path ++ Header.group c.typeParams ++ _ = c.call from rfl, ← hmore]
    rfl

theorem Proper.trim_of_isPrefix (h : c.Proper) (hs : s <+: c.call) : trim s = trimEnd s := by
  rw [trim, trimStart_eq_self (h.seen_of_isPrefix hs)]

theorem type_isPrefix : c.type <+: c.call := List.prefix_append c.type _

theorem Proper.trim_type (h : c.Proper) : trim c.type = c.type := by
  apply trim_eq_self (h.seen_of_isPrefix type_isPrefix)
  rw [type]
  cases c.typeParams with
  | none => simpa [Header.group] using fun d hd ↦ h.path.not_isSpace d (List.mem_of_getLast? hd)
  | some list =>
    simp only [Header.group, ← List.cons_append, ← List.append_assoc, List.getLast?_concat]
    rintro _ ⟨⟩
    decide

theorem Proper.trim_call (h : c.Proper) : trim c.call = c.call := by
  apply trim_eq_self (h.seen_of_isPrefix List.prefix_rfl)
  simp only [call_eq, ← List.cons_append, ← List.append_assoc, List.getLast?_concat]
  rintro _ ⟨⟩
  decide

/-- The type is not followed by white space, so of the beginnings of the call only the type itself is
the type when it is trimmed. -/
theorem Proper.eq_type_of_trim (h : c.Proper) (hs : s <+: c.call) (htrim : trim s = c.type) :
    s = c.type := by
  obtain ⟨spaces, hsplit, hspaces⟩ := exists_eq_trimEnd_append s
  rw [← h.trim_of_isPrefix hs, htrim] at hsplit
  rw [hsplit, call_eq, List.prefix_append_right_inj] at hs
  cases spaces with
  | nil => rw [hsplit, List.append_nil]
  | cons d spaces =>
    obtain ⟨rfl, -⟩ := List.cons_prefix_cons.1 hs
    cases hspaces '(' List.mem_cons_self

/-! ## Cutting the arguments off -/

/-- A beginning of the arguments in which nothing is opened does not close anything. -/
theorem Proper.not_close (h : c.Proper) (hs : s <+: c.arguments) (hflat : '(' ∉ s) : ')' ∉ s := by
  have hclose := h.arguments.2 s ((List.mem_inits _ _).2 hs)
  rwa [List.count_eq_zero.2 hflat, Nat.le_zero, List.count_eq_zero] at hclose

/-- What is opened last before the end of the arguments is closed there, not within them. -/
theorem Proper.eq_arguments_of_closed (h : c.Proper) (hs : s <+: c.arguments ++ [')'])
    (hflat : '(' ∉ s) (hlast : s.getLast? = some ')') : s = c.arguments ++ [')'] := by
  obtain hwhole | hinside := List.prefix_concat_iff.1 hs
  · exact hwhole
  · exact absurd (List.mem_of_getLast? hlast) (h.not_close hinside hflat)

/-- Where the type is found by cutting, it is cut off the whole call, and the arguments are flat. -/
theorem Proper.of_withoutArguments (h : c.Proper) (hs : s <+: c.call) (hne : s ≠ c.type)
    (hread : trim (TypeClause.withoutArguments s) = c.type) :
    s = c.call ∧ '(' ∉ c.arguments ∧ isGenericGroup (c.arguments ++ [')']) = false := by
  have hshown : trim (trim s) ≠ c.type := by
    rw [h.trim_of_isPrefix hs, trim_trimEnd]
    exact fun htype ↦ hne (h.eq_type_of_trim hs htype)
  have htrimmed : trim s <+: s := by
    rw [h.trim_of_isPrefix hs]
    exact trimEnd_isPrefix s
  rw [TypeClause.withoutArguments] at hread
  split at hread
  · next before inner hsplit =>
    split at hread
    · next hcut =>
      obtain ⟨hlast, hgeneric⟩ := Bool.and_eq_true_iff.1 hcut
      obtain ⟨heq, hflat⟩ := splitLast?_eq_some_iff.1 hsplit
      have hbegins : before ++ '(' :: inner <+: c.call := by
        rw [← heq]
        exact htrimmed.trans hs
      obtain rfl : before = c.type := by
        rw [trim_trimEnd] at hread
        exact h.eq_type_of_trim ((List.prefix_append before _).trans hbegins) hread
      rw [call_eq, List.prefix_append_right_inj, List.cons_prefix_cons] at hbegins
      have hclosed : inner.getLast? = some ')' := by
        rw [heq] at hlast
        cases inner with
        | nil => simp at hlast
        | cons d inner => simpa using hlast
      obtain rfl := h.eq_arguments_of_closed hbegins.2 hflat hclosed
      have hcall : s = c.call := by
        apply hs.eq_of_length_le
        calc
          c.call.length = (trim s).length := by rw [heq, call_eq]
          _ ≤ s.length := htrimmed.length_le
      exact ⟨hcall, fun hopen ↦ hflat (List.mem_append_left _ hopen), by simpa using hgeneric⟩
    · exact absurd hread hshown
  · exact absurd hread hshown

theorem Proper.of_typeName (h : c.Proper) (hs : s <+: c.call) (hne : s ≠ c.type)
    (hread : TypeClause.typeName ⟨true, s⟩ = c.type) :
    s = c.call ∧ ClauseFree clauseWords c.call ∧ '(' ∉ c.arguments ∧
      isGenericGroup (c.arguments ++ [')']) = false := by
  rw [TypeClause.typeName, if_pos rfl] at hread
  have hcut := cutFrom_cases clauseWords false s
  change cutBefore clauseWords s = s ∨
    ∃ d rest, s = cutBefore clauseWords s ++ d :: rest ∧ isSpace d at hcut
  have hbegins : cutBefore clauseWords s <+: s := by
    obtain hkept | ⟨d, rest, hsplit, -⟩ := hcut
    · rw [hkept]
    · exact ⟨d :: rest, hsplit.symm⟩
  have hbefore : cutBefore clauseWords s ≠ c.type := by
    obtain hkept | ⟨d, rest, hsplit, hd⟩ := hcut
    · rwa [hkept]
    · intro htype
      rw [hsplit, htype, call_eq, List.prefix_append_right_inj, List.cons_prefix_cons] at hs
      obtain ⟨rfl, -⟩ := hs
      cases hd
  obtain ⟨hcall, hflat, hgeneric⟩ := h.of_withoutArguments (hbegins.trans hs) hbefore hread
  have hwhole : s = c.call := hs.eq_of_length_le (by rw [← hcall]; exact hbegins.length_le)
  refine ⟨hwhole, ?_, hflat, hgeneric⟩
  rw [clauseFree_iff_cutBefore (by decide), ← hwhole, hcall, hwhole]

theorem Proper.typeName_call (h : c.Proper) (hfree : ClauseFree clauseWords c.call)
    (hflat : '(' ∉ c.arguments) (hgeneric : isGenericGroup (c.arguments ++ [')']) = false) :
    TypeClause.typeName ⟨true, c.call⟩ = c.type := by
  have hsplit : splitLast? '(' c.call = some (c.type, c.arguments ++ [')']) :=
    splitLast?_eq_some_iff.2 ⟨call_eq, by simpa using hflat⟩
  have hlast : c.call.getLast? = some ')' := by
    rw [call_eq, ← List.cons_append, ← List.append_assoc, List.getLast?_concat]
  have hend : trimEnd c.type = c.type := by
    rw [← h.trim_of_isPrefix type_isPrefix, h.trim_type]
  rw [TypeClause.typeName, if_pos rfl, show cutBefore ["with", "from"] c.call = c.call from
    cutBefore_eq_self hfree, TypeClause.withoutArguments, h.trim_call]
  simp only [hsplit, hlast, hgeneric, hend]
  simp [h.trim_type]

/-! ## Reading the declaration -/

/-- After the word `New` stands the type that is constructed. -/
theorem ofText_new (hs : ∀ d ∈ s.head?, isSpace d = false) :
    TypeClause.ofText ("New ".toList ++ s) = ⟨true, s⟩ := by
  have hblank := isSpace_head?_blank s
  have hchunk : leadingChunk ("New".toList ++ ' ' :: s) = "New".toList :=
    leadingChunk_append (by decide) hblank
  have hafter : afterChunk ("New".toList ++ ' ' :: s) = ' ' :: s :=
    afterChunk_append (by decide) hblank
  have htype : trimStart (' ' :: s) = s := trimStart_blank hs
  change TypeClause.ofText ("New".toList ++ ' ' :: s) = _
  have hnew : isKeyword "new" "New".toList := by decide
  rw [TypeClause.ofText, hchunk, hafter, hnew, htype]
  rfl

/-- The declared name with a beginning of the call. -/
def head (c : Construction) (s : Text) : Text :=
  c.name ++ Declarator.typeClause (some ("New ".toList ++ s))

theorem Proper.nameAndType?_head (h : c.Proper) (hs : s <+: c.call) :
    Declarator.nameAndType? (c.head s) = some (c.name, some ⟨true, s⟩) := by
  apply Declarator.nameAndType?_append h.name
  · rintro _ ⟨⟩
    decide
  · rw [Declarator.parse?_typeClause, ofText_new (h.seen_of_isPrefix hs)]
    rintro _ ⟨⟩
    decide

theorem Proper.trim_head (h : c.Proper) (hs : s <+: c.call) (hne : s ≠ []) :
    trim (c.head s) = c.head (trimEnd s) := by
  obtain ⟨d, rest, rfl⟩ := List.exists_cons_of_ne_nil hne
  have hd : isSpace d = false := h.seen_of_isPrefix hs d rfl
  have hstart : trimStart (c.head (d :: rest)) = c.head (d :: rest) :=
    trimStart_eq_self ((IsPath.name h.name).head?_append _)
  have hend (rest : Text) :
      c.head (d :: rest) = (c.name ++ " As New ".toList) ++ d :: rest := by
    simp [head, Declarator.typeClause]
  rw [trim, hstart, hend, trimEnd_append_cons _ hd, ← hend]
  congr 1
  exact (trimEnd_append_cons [] hd rest).symm

/-- The equals sign of an initial value stands after the path. -/
theorem Proper.exists_of_assigned (h : c.Proper) {front value : Text}
    (hbody : c.body = front ++ '=' :: value) :
    ∃ more, front = c.head (c.path ++ more) ∧ c.call = c.path ++ more ++ '=' :: value := by
  have hplain : '=' ∉ c.head c.path := by
    have hname : '=' ∉ c.name := fun hsign ↦ by cases h.name.isWordChar '=' hsign
    have hpath : '=' ∉ c.path := by
      intro hsign
      obtain hword | hpoint := h.path.isWordChar '=' hsign
      · cases hword
      · cases hpoint
    simp [head, Declarator.typeClause, hname, hpath]
  have hhead (more : Text) : c.head c.path ++ more = c.head (c.path ++ more) := by
    simp [head, Declarator.typeClause]
  have hcall : c.call = c.path ++ (Header.group c.typeParams ++ Header.group (some c.arguments)) := by
    rw [call, type, List.append_assoc]
  rw [show c.body = c.head c.call from rfl, hcall, ← hhead] at hbody
  obtain ⟨more, hfront, hvalue⟩ | ⟨more, hpath, hvalue⟩ := List.append_eq_append_iff.1 hbody
  · exact ⟨more, by rw [hfront, hhead], by rw [hcall, hvalue, List.append_assoc]⟩
  · cases more with
    | nil =>
      refine ⟨[], by rw [← hhead, hpath, List.append_nil, List.append_nil], ?_⟩
      rw [hcall, List.append_nil, hvalue, List.nil_append]
    | cons d more =>
      obtain ⟨rfl, -⟩ := List.cons.inj hvalue
      exact absurd (by rw [hpath]; simp) hplain

/-- The type is read from a beginning of the call that is not the type itself. It is the whole call
unless the declaration seems to have an initial value. -/
theorem Proper.exists_head (h : c.Proper) :
    ∃ s, s <+: c.call ∧ s ≠ c.type ∧ (s = c.call ↔ ¬ StandsOutside valueBrackets '=' c.body) ∧
      trim ((beforeAssignment? c.body).getD c.body) = c.head s := by
  cases hassigned : beforeAssignment? c.body with
  | none =>
    refine ⟨c.call, List.prefix_rfl, ?_, ?_, ?_⟩
    · exact fun hsame ↦ by simpa [call_eq] using congrArg List.length hsame
    · exact iff_of_true rfl (beforeAssignment?_eq_none_iff.1 hassigned)
    · rw [Option.getD_none, show c.body = c.head c.call from rfl,
        h.trim_head List.prefix_rfl (by simp [call_eq]), ← h.trim_of_isPrefix List.prefix_rfl,
        h.trim_call]
  | some front =>
    obtain ⟨value, hvalue⟩ := beforeAssignment?_eq_some hassigned
    obtain ⟨more, rfl, hcall⟩ := h.exists_of_assigned hvalue
    have hbegins : c.path ++ more <+: c.call := ⟨'=' :: value, hcall.symm⟩
    refine ⟨trimEnd (c.path ++ more), (trimEnd_isPrefix _).trans hbegins, ?_, ?_, ?_⟩
    · rw [← h.trim_of_isPrefix hbegins]
      intro htype
      rw [h.eq_type_of_trim hbegins htype, call_eq, List.append_cancel_left_eq] at hcall
      cases hcall
    · refine iff_of_false (fun hwhole ↦ ?_) fun hnone ↦ ?_
      · have hlength := (trimEnd_isPrefix (c.path ++ more)).length_le
        rw [hwhole, hcall, List.length_append, List.length_cons] at hlength
        omega
      · cases hassigned.symm.trans (beforeAssignment?_eq_none_iff.2 hnone)
    · rw [Option.getD_some, h.trim_head hbegins (by simp [h.path.ne_nil])]

theorem Proper.ofPiece?_body (h : c.Proper) (offset : Nat) :
    ∃ s x, s <+: c.call ∧ s ≠ c.type ∧ (s = c.call ↔ ¬ StandsOutside valueBrackets '=' c.body) ∧
      Declarator.ofPiece? offset c.body = some x ∧
      x.ownType = some (TypeClause.typeName ⟨true, s⟩) := by
  obtain ⟨s, hs, hne, hwhole, hhead⟩ := h.exists_head
  refine ⟨s, ⟨c.name, offset + indentOf c.body, some (TypeClause.typeName ⟨true, s⟩), none,
    (beforeAssignment? c.body).isSome⟩, hs, hne, hwhole, ?_, rfl⟩
  rw [Declarator.ofPiece?]
  simp only [hhead, h.nameAndType?_head hs, h.free.1]
  rfl

theorem Proper.parse?_line (h : c.Proper) :
    Declaration.parse? c.line =
      if '\n' ∈ c.body then none
      else ((splitTopLevel c.body).mapM fun (start, piece) ↦ Declarator.ofPiece? (4 + start) piece).map
        fun ds ↦ ⟨["Dim".toList], Declarator.shareTypes ds⟩ := by
  have hseen : ∀ d ∈ c.body.head?, isSpace d = false := (IsPath.name h.name).head?_append _
  have hname : ∀ d ∈ c.name, isSpace d = false := (IsPath.name h.name).not_isSpace
  have hmodifiers : takeModifiers Declaration.modifierWords c.line = (["Dim".toList], c.body) := by
    apply takeModifiers_spaced (by decide) (by decide) hseen
    apply takeModifiers_eq_nil
    rw [body, leadingChunk_append hname]
    · intro hmodifier
      cases hmodifier.symm.trans h.free.2
    · rintro _ ⟨⟩
      decide
  have hstart : ∀ d ∈ c.line.head?, isSpace d = false := by
    rintro _ ⟨⟩
    decide
  have htrim : trim c.line = c.line := by
    apply trim_eq_self hstart
    have hlast : c.line = (spaced ["Dim".toList] ++ (c.name ++ (" As New ".toList ++
        (c.type ++ '(' :: c.arguments)))) ++ [')'] := by
      simp [line, body, call_eq, Declarator.typeClause]
    rw [hlast, List.getLast?_concat]
    rintro _ ⟨⟩
    decide
  have hoffset : indentOf c.line + offsetOf c.line c.body = 4 := by
    have hindent : indentOf c.line = 0 := indentOf_append (List.forall_mem_nil _) hstart
    rw [hindent, line, offsetOf_append]
    decide
  rw [Declaration.parse?]
  simp only [htrim, hmodifiers, hoffset, List.isEmpty_cons, Bool.false_or, List.contains_iff_mem]
  split
  · rfl
  · split
    · next read hread =>
      rw [hread]
      rfl
    · next hread =>
      rw [hread]
      rfl

theorem mapM_splitTopLevel_body (hcomma : ¬ StandsOutside listBrackets ',' c.body) :
    ((splitTopLevel c.body).mapM fun (start, piece) ↦ Declarator.ofPiece? (4 + start) piece) =
      (Declarator.ofPiece? 4 c.body).map fun x ↦ [x] := by
  rw [splitTopLevel, pieces_eq_singleton hcomma, withOffsets, withOffsets]
  cases hpiece : Declarator.ofPiece? 4 c.body <;> simp [hpiece]

theorem not_standsOutside_of_mapM {x : Declarator}
    (h : ((splitTopLevel c.body).mapM fun (start, piece) ↦ Declarator.ofPiece? (4 + start) piece) =
      some [x]) : ¬ StandsOutside listBrackets ',' c.body := by
  apply not_standsOutside_of_length_pieces
  have hlength := length_of_mapM_eq_some h
  rw [splitTopLevel, length_withOffsets] at hlength
  exact hlength.symm

/-- The type of a construction is read as it is written exactly if nothing misleads the reading. -/
theorem ownType_eq_type_iff (h : c.Proper) :
    (∃ d x, Declaration.parse? c.line = some d ∧ d.declarators = [x] ∧ x.ownType = some c.type) ↔
      c.Plain := by
  obtain ⟨s, y, hs, hne, hwhole, hpiece, hread⟩ := h.ofPiece?_body 4
  constructor
  · rintro ⟨d, x, hparse, hone, htype⟩
    rw [h.parse?_line, Option.ite_none_left_eq_some, Option.map_eq_some_iff] at hparse
    obtain ⟨hline, ds, hds, rfl⟩ := hparse
    obtain ⟨z, rfl, hown⟩ := Declarator.exists_of_shareTypes_eq_singleton hone
    have hcomma := not_standsOutside_of_mapM hds
    rw [mapM_splitTopLevel_body hcomma, hpiece] at hds
    obtain rfl : y = z := by simpa using hds
    rw [← hown, hread, Option.some.injEq] at htype
    obtain ⟨hcall, hfree, hflat, hgeneric⟩ := h.of_typeName hs hne htype
    exact ⟨hflat, not_isGenericList_iff.2 hgeneric, h.clauseFree_call_iff.1 hfree, hcomma,
      hwhole.1 hcall, hline⟩
  · intro hplain
    have htype : y.ownType = some c.type := by
      rw [hread, hwhole.2 hplain.assignment, h.typeName_call
        (h.clauseFree_call_iff.2 hplain.clauseFree) hplain.flat
        (not_isGenericList_iff.1 hplain.no_types)]
    refine ⟨⟨["Dim".toList], Declarator.shareTypes [y]⟩, _, ?_, Declarator.shareTypes_cons y [], htype⟩
    rw [h.parse?_line, if_neg hplain.oneLine, mapM_splitTopLevel_body hplain.comma, hpiece]
    rfl

theorem Proper.nested_body (h : c.Proper) {brackets : Brackets} {sign : Char}
    (hpair : ('(', ')') ∈ brackets.opening.zip brackets.closing)
    (hsigns : ∀ d ∈ [sign] ++ '"' :: brackets.opening ++ brackets.closing, d ∈ signs)
    (hround : ∀ list, list = c.arguments ∨ list ∈ c.typeParams → IsRound brackets list) :
    Nested brackets [sign] c.body := by
  have hgroup {list : Text} (hlist : Balanced list) (hmem : list = c.arguments ∨ list ∈ c.typeParams) :
      Nested brackets [sign] (Header.group (some list)) :=
    .group hpair (hlist.nested hpair (hround list hmem)) .nil
  have hname : Nested brackets [sign] c.name :=
    .of_not_mem_signs hsigns fun d hd ↦ not_mem_signs_of_isWordChar (h.name.isWordChar d hd)
  have hwords : Nested brackets [sign] " As New ".toList := .of_not_mem_signs hsigns (by decide)
  have hpath : Nested brackets [sign] c.path := by
    apply Nested.of_not_mem_signs hsigns
    intro d hd
    obtain hword | rfl := h.path.isWordChar d hd
    · exact not_mem_signs_of_isWordChar hword
    · decide
  have htypes : Nested brackets [sign] (Header.group c.typeParams) := by
    cases htypes : c.typeParams with
    | none => exact .nil
    | some list => exact hgroup (h.typeParams list htypes).2 (.inr htypes)
  exact hname.append (hwords.append ((hpath.append htypes).append (hgroup h.arguments (.inl rfl))))

/-- Without other brackets and without literals, what misleads the reading of a construction is a
call or a clause in it. -/
theorem Proper.plain_iff (h : c.Proper)
    (hround : ∀ list, list = c.arguments ∨ list ∈ c.typeParams → IsRound listBrackets list) :
    c.Plain ↔ '(' ∉ c.arguments ∧ ¬ Header.IsGenericList (trimStart (c.arguments ++ [')'])) ∧
      (∀ list ∈ c.typeParams, ClauseFree clauseWords list) ∧ '\n' ∉ c.body := by
  have hvalue (list : Text) (hlist : list = c.arguments ∨ list ∈ c.typeParams) :
      IsRound valueBrackets list := by
    intro d hd hsign
    apply hround list hlist d hd
    revert hsign
    simp +contextual [valueBrackets, listBrackets, or_imp]
  have hcomma : ¬ StandsOutside listBrackets ',' c.body :=
    (h.nested_body (by decide) (by decide) hround).not_standsOutside distinct_listBrackets (by decide)
      List.mem_cons_self
  have hassignment : ¬ StandsOutside valueBrackets '=' c.body :=
    (h.nested_body (by decide) (by decide) hvalue).not_standsOutside distinct_valueBrackets (by decide)
      List.mem_cons_self
  constructor
  · intro hplain
    exact ⟨hplain.flat, hplain.no_types, hplain.clauseFree, hplain.oneLine⟩
  · rintro ⟨hflat, hno_types, hfree, hline⟩
    exact ⟨hflat, hno_types, hfree, hcomma, hassignment, hline⟩

/-- A list of strings, with two arguments. -/
def strings : Construction :=
  ⟨"x".toList, "List".toList, some "Of String".toList, "1, 2".toList⟩

theorem proper_strings : strings.Proper where
  name := ⟨'x', [], rfl, by decide, by simp⟩
  free := by decide
  path := .name ⟨'L', "ist".toList, rfl, by decide, by decide⟩
  typeParams := by
    rintro _ ⟨⟩
    exact ⟨⟨"Of".toList, "String".toList, rfl, by decide, by decide⟩, by decide⟩
  arguments := by decide
  unquoted := by decide
  clauseFree := by decide

theorem plain_strings : strings.Plain := by
  have hround : ∀ list, list = strings.arguments ∨ list ∈ strings.typeParams →
      IsRound listBrackets list := by
    rintro list (rfl | htypes)
    · decide
    · obtain rfl : "Of String".toList = list := Option.some.inj htypes
      decide
  refine (proper_strings.plain_iff hround).2 ⟨by decide, not_isGenericList_iff.2 (by decide), ?_, by
    decide⟩
  rintro _ ⟨⟩
  decide

theorem ownType_eq_type_iff_strings :
    strings.Proper ∧ strings.Plain ∧
    ∃ d x, Declaration.parse? "Dim x As New List(Of String)(1, 2)".toList = some d ∧
      d.declarators = [x] ∧ x.ownType = some "List(Of String)".toList :=
  ⟨proper_strings, plain_strings, (ownType_eq_type_iff proper_strings).2 plain_strings⟩

/-- An object that is constructed from another one. -/
def nested : Construction := ⟨"x".toList, "Foo".toList, none, "Bar(1)".toList⟩

/-- The type that is read ends in the middle of the arguments. -/
theorem parse?_nested :
    nested.Proper ∧ nested.line = "Dim x As New Foo(Bar(1))".toList ∧ nested.type = "Foo".toList ∧
      Declaration.parse? nested.line =
        some ⟨["Dim".toList],
          [⟨"x".toList, 4, some "Foo(Bar".toList, some "Foo(Bar".toList, false⟩]⟩ := by
  refine ⟨⟨?_, by decide, ?_, by simp [nested], by decide, by decide, by decide⟩, by decide,
    by decide, by decide +kernel⟩
  · exact ⟨'x', [], rfl, by decide, by simp⟩
  · exact .name ⟨'F', "oo".toList, rfl, by decide, by decide⟩

end Construction

end VbOutline
