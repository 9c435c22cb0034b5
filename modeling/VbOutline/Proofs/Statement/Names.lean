import VbOutline.Proofs.Line.Scanning
import VbOutline.Statement.Argument
import VbOutline.Statement.Basic
import VbOutline.Symbol.Basic

/-!
# Where the names of a statement stand

Every name that is read from a line comes with a byte offset. For headers, imports, implemented
interfaces, declarators, members of enumerations and quoted names of regions the name stands at
that offset. A region without a quoted name has the name `Region`, which stands nowhere.

The offset of a parameter list is that of the text after its parenthesis, while the list itself is
trimmed. So the names of arguments stand further right than their offsets say, by the white space
that follows the parenthesis: the `padding` of the header.
-/

namespace VbOutline

open Text Line

namespace Argument

theorem skipAttributes_isSuffix {s rest : Text} (h : skipAttributes s = some rest) : rest <:+ s := by
  fun_induction skipAttributes s with
  | case1 s _ before tail hsplit ih =>
    calc
      rest <:+ trimStart tail := ih h
      _ <:+ tail := trimStart_isSuffix tail
      _ <:+ '>' :: tail := List.suffix_cons '>' tail
      _ <:+ s := splitFirst?_eq_some hsplit ▸ List.suffix_append before _
  | case2 => cases h
  | case3 s _ => rw [← Option.some.inj h]

theorem skipPassing_isSuffix (s : Text) : skipPassing s <:+ s := by
  fun_induction skipPassing s with
  | case1 s _ ih => exact ih.trans (trimStart_afterChunk_isSuffix s)
  | case2 s _ => exact List.suffix_rfl

/-- An argument stands in its piece, and its name is not empty and has identifier characters only. -/
theorem ofPiece?_spec {offset : Nat} {piece : Text} {a : Argument}
    (h : ofPiece? offset piece = some a) :
    ∃ k, a.offset = offset + k ∧ StandsAt piece k a.name ∧ a.name ≠ [] ∧
      ∀ c ∈ a.name, isIdentChar c := by
  unfold ofPiece? at h
  split at h
  · next declared hdeclared =>
    simp only [Option.ite_none_left_eq_some, Option.some.injEq] at h
    obtain ⟨hname, rfl⟩ := h
    have hrest : skipPassing declared <:+ piece :=
      calc
        skipPassing declared <:+ declared := skipPassing_isSuffix declared
        _ <:+ trimStart piece := skipAttributes_isSuffix hdeclared
        _ <:+ piece := trimStart_isSuffix piece
    refine ⟨_, rfl, (StandsAt.of_isSuffix hrest).left_part (List.takeWhile_prefix _), ?_, ?_⟩
    · intro hnil
      simp only [Bool.or_eq_true, not_or] at hname
      exact hname.1 (List.isEmpty_iff.2 hnil)
    · intro c hc
      exact List.mem_takeWhile_imp hc
  · cases h

theorem parse_spec {params : Text} {offset : Nat} {a : Argument} (h : a ∈ parse params offset) :
    ∃ k, a.offset = offset + k ∧ StandsAt params k a.name ∧ a.name ≠ [] ∧
      ∀ c ∈ a.name, isIdentChar c := by
  obtain ⟨⟨start, piece⟩, hpiece, ha⟩ := List.mem_filterMap.1 h
  obtain ⟨k, hk, hstands, hname⟩ := ofPiece?_spec ha
  have hlist := (standsAt_of_mem_splitTopLevel hpiece).trans hstands
  exact ⟨start + k, by omega, hlist, hname⟩

end Argument

namespace Header

/-- The white space between the parenthesis of a parameter list and the list. -/
def padding (h : Header) (code : Text) : Text :=
  (code.drop (columnOf code h.paramsOffset)).takeWhile isSpace

theorem dottedTail_isPrefix (s : Text) : dottedTail s <+: s := by
  fun_induction dottedTail s with
  | case1 => exact List.prefix_rfl
  | case2 c rest _ ih => exact List.cons_prefix_cons.2 ⟨rfl, ih⟩
  | case3 => exact List.nil_prefix

theorem dottedName?_isPrefix {s name : Text} (h : dottedName? s = some name) : name <+: s := by
  unfold dottedName? at h
  split at h
  · cases h
  · next c rest =>
    simp only [Option.ite_none_right_eq_some, Option.some.injEq] at h
    obtain ⟨_, rfl⟩ := h
    exact List.cons_prefix_cons.2 ⟨rfl, dottedTail_isPrefix rest⟩

theorem afterLibraryClause?_isSuffix {s rest : Text} (h : afterLibraryClause? s = some rest) :
    rest <:+ s := by
  unfold afterLibraryClause? at h
  split at h
  · split at h
    · next quoted hquoted =>
      obtain ⟨⟨before, tail⟩, hsplit, rfl⟩ := Option.map_eq_some_iff.1 h
      have hquote := splitFirst?_eq_some hsplit
      calc
        trimStart tail <:+ tail := trimStart_isSuffix tail
        _ <:+ '"' :: tail := List.suffix_cons '"' tail
        _ <:+ quoted := hquote ▸ List.suffix_append before _
        _ <:+ '"' :: quoted := List.suffix_cons '"' quoted
        _ <:+ s := hquoted ▸ trimStart_afterChunk_isSuffix s
    · cases h
  · cases h

theorem skipLibraryClauses_isSuffix (s : Text) : skipLibraryClauses s <:+ s := by
  fun_induction skipLibraryClauses s with
  | case1 s rest h ih =>
    calc
      skipLibraryClauses rest <:+ rest := ih
      _ <:+ trimStart s := afterLibraryClause?_isSuffix h
      _ <:+ s := trimStart_isSuffix s
  | case2 s _ => exact List.suffix_rfl

/-- A parameter list that stands in a text after white space only, and begins with none. -/
def Padded (tail list : Text) : Prop :=
  ∃ lead after, tail = lead ++ list ++ after ∧ (∀ c ∈ lead, isSpace c) ∧
    ∀ c ∈ list.head?, isSpace c = false

theorem padded_trim {tail part : Text} (h : part <+: tail) : Padded tail (trim part) := by
  obtain ⟨more, rfl⟩ := h
  obtain ⟨rest, hrest⟩ := trim_isPrefix_trimStart part
  refine ⟨part.takeWhile isSpace, rest ++ more, ?_, fun c hc ↦ List.mem_takeWhile_imp hc, ?_⟩
  · rw [List.append_assoc, ← List.append_assoc (trim part), hrest, ← List.append_assoc,
      takeWhile_append_trimStart]
  · intro c hc
    have hhead := List.head?_dropWhile_not isSpace part
    cases hlist : trim part with
    | nil => simp [hlist] at hc
    | cons d list =>
      rw [hlist, List.head?_cons, Option.mem_some_iff] at hc
      rw [show part.dropWhile isSpace = trim part ++ rest from hrest.symm, hlist] at hhead
      simpa [hc] using hhead

/-- What is known of the groups read so far in the text after a name. -/
structure Groups.Fits (g : Groups) (text : Text) : Prop where
  rest : g.rest <:+ text
  paramsTail : g.paramsTail <:+ text
  params : ∀ list, g.params = some list → Padded g.paramsTail list

theorem readGroups_fits {text : Text} (n : Nat) (g : Groups) (hg : g.Fits text) :
    (readGroups n g).Fits text := by
  induction n generalizing g with
  | zero => exact hg
  | succ n ih =>
    rw [readGroups]
    split
    · next inside hinside =>
      have hgroup : '(' :: inside <:+ text := by
        rw [← hinside]
        exact (trimStart_isSuffix g.rest).trans hg.rest
      have hinner : inside <:+ text := (List.suffix_cons '(' inside).trans hgroup
      split
      · next inner after htake =>
        obtain ⟨c, hc⟩ := takeGroup?_eq_some htake
        have hafter : after <:+ text :=
          calc
            after <:+ c :: after := List.suffix_cons c after
            _ <:+ inside := hc ▸ List.suffix_append inner _
            _ <:+ text := hinner
        split
        · exact ih _ ⟨hafter, hg.paramsTail, hg.params⟩
        · refine ih _ ⟨hafter, hinner, ?_⟩
          rintro list ⟨⟩
          exact padded_trim (hc ▸ List.prefix_append inner _)
      · refine ⟨List.nil_suffix, hinner, ?_⟩
        rintro list ⟨⟩
        exact padded_trim ((dropEndWhile_isPrefix _ _).trans (trimEnd_isPrefix inside))
    · exact hg

/-- The parts of a header: the text from its name on, and the groups after the name. -/
theorem parse?_parts {code : Text} {h : Header} (hparse : parse? code = some h) :
    ∃ (named : Text) (groups : Groups), named <:+ trim code ∧ h.name <+: named ∧
      groups.Fits (trim code) ∧ h.nameOffset = indentOf code + offsetOf (trim code) named ∧
      h.params = groups.params ∧
      h.paramsOffset = indentOf code + offsetOf (trim code) groups.paramsTail := by
  unfold parse? at hparse
  dsimp only at hparse
  split at hparse
  · split at hparse
    · next block name _ hname =>
      have hnamed : trimStart (afterChunk (takeModifiers modifierWords (trim code)).2) <:+
          trim code :=
        (trimStart_afterChunk_isSuffix _).trans (takeModifiers_isSuffix modifierWords (trim code))
      have hrest := (List.drop_suffix name.length _).trans hnamed
      have hgroups := readGroups_fits 2 ⟨none, none, _, skipLibraryClauses _⟩
        ⟨(skipLibraryClauses_isSuffix _).trans hrest, hrest, by simp⟩
      obtain rfl := Option.some.inj hparse
      exact ⟨_, _, hnamed, dottedName?_isPrefix hname, hgroups, rfl, rfl, rfl⟩
    · cases hparse
  · cases hparse

theorem standsAt_name {code : Text} {h : Header} (hparse : parse? code = some h) :
    StandsAt code h.nameOffset h.name := by
  obtain ⟨named, groups, hnamed, hname, _, hoffset, _⟩ := parse?_parts hparse
  rw [hoffset]
  exact (StandsAt.trim code).trans ((StandsAt.of_isSuffix hnamed).left_part hname)

/-- The parameter list of a header stands after the padding that follows its offset. -/
theorem standsAt_params {code list : Text} {h : Header} (hparse : parse? code = some h)
    (hlist : h.params = some list) (hne : list ≠ []) :
    StandsAt code h.paramsOffset (h.padding code ++ list) := by
  obtain ⟨_, groups, _, _, hgroups, _, hparams, hoffset⟩ := parse?_parts hparse
  obtain ⟨lead, after, htail, hlead, hhead⟩ := hgroups.params list (hparams ▸ hlist)
  obtain ⟨before, rest, hcode, hbefore⟩ :=
    (StandsAt.trim code).trans (StandsAt.of_isSuffix hgroups.paramsTail)
  rw [← hoffset] at hbefore
  rw [htail] at hcode
  have hpadding : h.padding code = lead := by
    obtain ⟨c, list, rfl⟩ := List.exists_cons_of_ne_nil hne
    have hc : isSpace c = false := hhead c (by simp)
    rw [padding, ← hbefore, hcode, List.append_assoc, columnOf_byteSize, List.drop_left,
      List.append_assoc, List.append_assoc, List.takeWhile_append_of_pos hlead, List.cons_append,
      List.takeWhile_cons_of_neg (by simp [hc]), List.append_nil]
  refine ⟨before, after ++ rest, ?_, hbefore⟩
  rw [hpadding, hcode]
  simp only [List.append_assoc]

/-- The name of an argument stands where its offset says, moved by the padding of the list. -/
theorem standsAt_argument {code list : Text} {h : Header} (hparse : parse? code = some h)
    (hlist : h.params = some list) {a : Argument} (ha : a ∈ Argument.parse list h.paramsOffset) :
    StandsAt code (a.offset + byteSize (h.padding code)) a.name := by
  obtain ⟨k, hk, hstands, hne, _⟩ := Argument.parse_spec ha
  have hlistNe : list ≠ [] := by
    rintro rfl
    obtain ⟨before, after, hnil, _⟩ := hstands
    simp_all
  have hpadded : StandsAt (h.padding code ++ list) (byteSize (h.padding code)) list :=
    ⟨h.padding code, [], by simp, rfl⟩
  have hall := (standsAt_params hparse hlist hlistNe).trans (hpadded.trans hstands)
  rwa [hk, Nat.add_assoc, Nat.add_comm k]

end Header

namespace Declarator

theorem nameAndType?_isPrefix {head name : Text} {clause : Option TypeClause}
    (h : nameAndType? head = some (name, clause)) : name <+: head := by
  have hword : leadingWord head <+: head := List.takeWhile_prefix _
  unfold nameAndType? at h
  dsimp only at h
  split at h
  · split at h
    · obtain ⟨rfl, _⟩ := Prod.mk.inj (Option.some.inj h)
      exact hword
    · rw [Option.ite_none_left_eq_some] at h
      obtain ⟨_, _, hpair⟩ := Option.map_eq_some_iff.1 h.2
      obtain ⟨rfl, _⟩ := Prod.mk.inj hpair
      exact (List.take_prefix _ _).trans hword
  · cases h

theorem ofPiece?_spec {offset : Nat} {piece : Text} {d : Declarator}
    (h : ofPiece? offset piece = some d) :
    d.offset = offset + indentOf piece ∧ StandsAt piece (indentOf piece) d.name := by
  unfold ofPiece? at h
  dsimp only at h
  split at h
  · next name clause hname =>
    rw [Option.ite_none_left_eq_some, Option.some.injEq] at h
    obtain ⟨_, rfl⟩ := h
    refine ⟨rfl, .of_isPrefix_trim ?_ (nameAndType?_isPrefix hname)⟩
    cases hassigned : beforeAssignment? piece with
    | none => exact List.prefix_rfl
    | some head => exact beforeAssignment?_isPrefix hassigned
  · cases h

/-- Sharing types changes neither the names nor their places. -/
theorem map_shareTypes (ds : List Declarator) :
    (shareTypes ds).map (fun d ↦ (d.name, d.offset)) = ds.map fun d ↦ (d.name, d.offset) := by
  unfold shareTypes
  induction ds with
  | nil => rfl
  | cons d ds ih => rw [List.foldr_cons, List.map_cons, List.map_cons, ih]

end Declarator

theorem Declaration.standsAt_declarator {code : Text} {d : Declaration} (h : parse? code = some d)
    {x : Declarator} (hx : x ∈ d.declarators) : StandsAt code x.offset x.name := by
  unfold parse? at h
  dsimp only at h
  split at h
  · cases h
  · split at h
    · next read hread =>
      rw [Option.ite_none_right_eq_some, Option.some.injEq] at h
      obtain ⟨_, rfl⟩ := h
      have hplaces := List.mem_map_of_mem (f := fun d : Declarator ↦ (d.name, d.offset)) hx
      rw [Declarator.map_shareTypes] at hplaces
      obtain ⟨y, hy, hxy⟩ := List.mem_map.1 hplaces
      obtain ⟨hname, hoffset⟩ := Prod.mk.inj hxy
      obtain ⟨⟨start, piece⟩, hpiece, hofPiece⟩ := mem_of_mapM_eq_some hread hy
      obtain ⟨hplace, hstands⟩ := Declarator.ofPiece?_spec hofPiece
      have hbody := (StandsAt.trim code).trans
        (StandsAt.of_isSuffix (takeModifiers_isSuffix modifierWords (trim code)))
      have hall := hbody.trans ((standsAt_of_mem_splitTopLevel hpiece).trans hstands)
      rw [← hname, ← hoffset, hplace, Nat.add_assoc]
      exact hall
    · cases h

theorem baseTypeName_isPrefix (name : Text) : baseTypeName name <+: trimStart name :=
  (trim_isPrefix_trimStart _).trans (trimStart_isPrefix_trimStart (List.takeWhile_prefix _))

theorem afterSpacedWord?_isSuffix {word : String} {s rest : Text}
    (h : afterSpacedWord? word s = some rest) : rest <:+ s := by
  rw [afterSpacedWord?, Option.ite_none_right_eq_some, Option.some.injEq] at h
  rw [← h.2]
  exact trimStart_afterChunk_isSuffix s

namespace Statement

theorem imports?_standsAt {text : Text} {p : PlacedName} {isAlias : Bool}
    (h : imports? text = some (p, isAlias)) : StandsAt text p.offset p.name := by
  unfold imports? at h
  split at h
  · next rest hrest =>
    have hstands := StandsAt.of_isSuffix (afterSpacedWord?_isSuffix hrest)
    split at h
    · next name hname =>
      obtain ⟨rfl, _⟩ := Prod.mk.inj (Option.some.inj h)
      refine hstands.left_part ?_
      unfold importAlias? at hname
      split at hname
      · split at hname
        · rw [Option.ite_none_right_eq_some, Option.some.injEq] at hname
          exact hname.2 ▸ List.takeWhile_prefix _
        · cases hname
      · cases hname
    · rw [Option.ite_none_right_eq_some, Option.some.injEq] at h
      obtain ⟨rfl, _⟩ := Prod.mk.inj h.2
      exact hstands.left_part (List.takeWhile_prefix _)
  · cases h

/-- The marks of implemented interfaces carry the names without type arguments. -/
theorem implements?_standsAt {text : Text} {names : List PlacedName}
    (h : implements? text = some names) {p : PlacedName} (hp : p ∈ names) :
    StandsAt text p.offset (baseTypeName p.name) := by
  unfold implements? at h
  split at h
  · next rest hrest =>
    dsimp only at h
    rw [Option.ite_none_left_eq_some, Option.some.injEq] at h
    obtain ⟨_, rfl⟩ := h
    obtain ⟨⟨start, piece⟩, hpiece, hname⟩ := List.mem_filterMap.1 hp
    dsimp only at hname
    rw [Option.ite_none_left_eq_some, Option.some.injEq] at hname
    obtain ⟨_, rfl⟩ := hname
    have hclause := (StandsAt.of_isSuffix (afterSpacedWord?_isSuffix hrest)).trans
      (standsAt_of_mem_splitTopLevel hpiece)
    have hshown : dropUnderscores (trim piece) <+: trimStart piece :=
      (dropEndWhile_isPrefix _ _).trans (trim_isPrefix_trimStart piece)
    have hname : trim (dropUnderscores (trim piece)) <+: trimStart piece :=
      calc
        _ <+: trimStart (dropUnderscores (trim piece)) := trim_isPrefix_trimStart _
        _ <+: trimStart (trimStart piece) := trimStart_isPrefix_trimStart hshown
        _ = trimStart piece := trimStart_trimStart piece
    have hbase : baseTypeName (trim (dropUnderscores (trim piece))) <+: trimStart piece :=
      calc
        _ <+: trimStart (trim (dropUnderscores (trim piece))) := baseTypeName_isPrefix _
        _ <+: trimStart (trimStart piece) := trimStart_isPrefix_trimStart hname
        _ = trimStart piece := trimStart_trimStart piece
    exact hclause.trans ((StandsAt.trimStart piece).left_part hbase)
  · cases h

theorem enumMember?_standsAt {code : Text} {p : PlacedName} (h : enumMember? code = some p) :
    StandsAt code p.offset p.name := by
  have hword : StandsAt code (indentOf code) (leadingWord (trim code)) :=
    (StandsAt.trim code).left_part (List.takeWhile_prefix _)
  unfold enumMember? at h
  dsimp only at h
  split at h
  · rw [Option.ite_none_left_eq_some] at h
    split at h
    · exact Option.some.inj h.2 ▸ hword
    · rw [Option.ite_none_left_eq_some] at h
      exact Option.some.inj h.2.2 ▸ hword
    · cases h.2
  · cases h

/-- A region marker, trimmed, after which no quoted name comes. -/
def MarksUnnamedRegion (text : Text) : Prop :=
  ∃ marker word rest, text = '#' :: marker ∧ keyword? ["region"] marker = some (word, rest) ∧
    ∀ name after, trimStart rest ≠ '"' :: name ++ '"' :: after

theorem region?_spec {text : Text} {p : PlacedName} (h : region? text = some p) :
    (StandsAt text p.offset p.name ∧ ¬ MarksUnnamedRegion text) ∨
      (p = ⟨"Region".toList, 0⟩ ∧ MarksUnnamedRegion text) := by
  unfold region? at h
  split at h
  · next marker =>
    obtain ⟨⟨word, rest⟩, hword, rfl⟩ := Option.map_eq_some_iff.1 h
    dsimp only
    have hunnamed (hnone : ∀ name after, trimStart rest ≠ '"' :: name ++ '"' :: after) :
        MarksUnnamedRegion ('#' :: marker) := ⟨marker, word, rest, rfl, hword, hnone⟩
    split
    · next quoted hquoted =>
      split
      · next name after hsplit =>
        have hname := splitFirst?_eq_some hsplit
        have hrest : rest <:+ marker := by
          rw [keyword?, Option.ite_none_right_eq_some, Option.some.injEq] at hword
          rw [← (Prod.mk.inj hword.2).2]
          exact List.dropWhile_suffix _
        have hsuffix : quoted <:+ '#' :: marker :=
          calc
            quoted <:+ '"' :: quoted := List.suffix_cons '"' quoted
            _ <:+ rest := hquoted ▸ trimStart_isSuffix rest
            _ <:+ marker := hrest
            _ <:+ '#' :: marker := List.suffix_cons '#' marker
        refine .inl ⟨(StandsAt.of_isSuffix hsuffix).left_part ?_, ?_⟩
        · rw [hname]
          exact List.prefix_append name _
        · rintro ⟨_, _, _, ⟨⟩, hother, hnone⟩
          rw [hword] at hother
          obtain ⟨⟩ := hother
          exact hnone name after (by rw [hquoted, hname]; rfl)
      · next hsplit =>
        refine .inr ⟨rfl, hunnamed ?_⟩
        intro name after heq
        rw [hquoted, List.cons_append, List.cons.injEq] at heq
        exact splitFirst?_eq_none hsplit (heq.2 ▸ by simp)
    · next hother =>
      refine .inr ⟨rfl, hunnamed ?_⟩
      intro name after heq
      exact hother _ heq
  · cases h

/-- A region marker has as many letters as the name that stands for a missing one. -/
theorem MarksUnnamedRegion.length {text : Text} (h : MarksUnnamedRegion text) :
    "Region".toList.length ≤ text.length ∧ text.head? = some '#' := by
  obtain ⟨marker, word, rest, rfl, hword, _⟩ := h
  rw [keyword?, Option.ite_none_right_eq_some] at hword
  have hfolded : folded (leadingWord marker) = "region" := by simpa [isOneOf] using hword.1
  have hlength : (leadingWord marker).length = 6 := by
    simpa [folded] using congrArg (fun s : String ↦ s.toList.length) hfolded
  refine ⟨?_, rfl⟩
  calc
    "Region".toList.length = (leadingWord marker).length := by simp [hlength]
    _ ≤ marker.length := (List.takeWhile_prefix _).length_le
    _ ≤ ('#' :: marker).length := Nat.le_succ _

/-- The reading of a line of code from which a statement comes. -/
def ReadFrom (code : Text) : Statement → Prop
  | .blank => trim code = []
  | .blockEnd e => BlockEnd.parse? (trim code) = some e
  | .header h => Header.parse? code = some h
  | .region p => ∃ q, region? (trim code) = some q ∧ p = shift (indentOf code) q
  | .imports p isAlias =>
    ∃ q, imports? (trim code) = some (q, isAlias) ∧ p = shift (indentOf code) q
  | .implements names =>
    ∃ found, implements? (trim code) = some found ∧ names = found.map (shift (indentOf code))
  | .control c => ControlStart.parse? (trim code) = some c
  | .branch b => Branch.parse? (trim code) = some b
  | .declaration d => Declaration.parse? code = some d
  | .plain => True

theorem readFrom_parse (code : Text) : ReadFrom code (parse code) := by
  unfold parse
  dsimp only
  split
  · next h => exact List.isEmpty_iff.1 h
  split
  · next h => exact h
  split
  · next h => exact h
  split
  · next p h => exact ⟨p, h, rfl⟩
  split
  · next p isAlias h => exact ⟨p, h, rfl⟩
  split
  · next names h => exact ⟨names, h, rfl⟩
  split
  · next h => exact h
  split
  · next h => exact h
  split
  · next h => exact h
  · trivial

end Statement

end VbOutline
