import VbOutline.Proofs.Line.Words
import VbOutline.Proofs.Outline.Origin
import VbOutline.Proofs.Text.Boundaries

/-!
# What the selection of a symbol covers

The selection of a symbol is meant to cover its name. It does so for every symbol that comes from a
name in the source, wherever that name stands in its line, with one exception: where white space
follows the parenthesis of a parameter list, the selections of its arguments lie that many bytes too
far left. So the selection of an argument begins where the argument does if and only if there is no
such white space. What is covered otherwise is the same text only if the name recurs there, as in a
list that names two arguments alike. For the argument with which the list begins it does not.
-/

namespace VbOutline

open Text Line

namespace Outline

open VbOutline.Symbol

/-- The characters that a range within one line covers. -/
def coveredText (rows : List Text) (r : Range) : Text :=
  ((rows[r.start.line]?).getD []).extract r.start.character r.stop.character

/-- What stands before a name begins with the name as well, at as many bytes before it as the
padding of the list has. If this place lies inside a character, the beginning of the line stands for
it. -/
def Recurs (raw padding before name : Text) : Prop :=
  (∃ front back, padding ++ before = front ++ back ∧ byteSize front = byteSize before ∧
    name <+: back ++ name) ∨
  (¬ IsBoundary (padding ++ before) (byteSize before) ∧ name <+: raw)

/-- The entry is one of an argument in a list with padding, and its name does not recur. -/
def Displaced (line : SourceLine) (e : Entry) : Prop :=
  ∃ h a list before, IsArgument line h a e ∧ h.params = some list ∧ before ++ a.name <+: list ∧
    a.offset = h.paramsOffset + byteSize before ∧ h.padding line.code ≠ [] ∧
    ¬ Recurs line.raw (h.padding line.code) before a.name

theorem recurs_nil (raw before name : Text) : Recurs raw [] before name :=
  .inl ⟨before, [], by simp, rfl, List.prefix_rfl⟩

theorem recurs_iff_of_split {raw padding before name front back : Text}
    (hsplit : padding ++ before = front ++ back) (hsize : byteSize front = byteSize before) :
    Recurs raw padding before name ↔ name <+: back ++ name := by
  have hfront : front <+: padding ++ before := ⟨back, hsplit.symm⟩
  constructor
  · rintro (⟨front', back', hsplit', hsize', hname⟩ | ⟨hinside, -⟩)
    · obtain rfl := eq_of_byteSize_eq hfront ⟨back', hsplit'.symm⟩ (hsize.trans hsize'.symm)
      rwa [List.append_cancel_left (hsplit.symm.trans hsplit')]
    · exact absurd ⟨front, hfront, hsize⟩ hinside
  · exact fun hname ↦ .inl ⟨front, back, hsplit, hsize, hname⟩

/-- Nothing recurs in white space. -/
theorem not_recurs_first {raw padding name : Text} (hspace : ∀ c ∈ padding, isSpace c)
    (hpadding : padding ≠ []) (hident : ∀ c ∈ name, isIdentChar c) (hname : name ≠ []) :
    ¬ Recurs raw padding [] name := by
  have hsplit : padding ++ [] = [] ++ padding := List.append_nil padding
  rw [recurs_iff_of_split hsplit rfl]
  intro hprefix
  obtain ⟨c, padding, rfl⟩ := List.exists_cons_of_ne_nil hpadding
  obtain ⟨d, name, rfl⟩ := List.exists_cons_of_ne_nil hname
  obtain rfl : d = c := (List.cons_prefix_cons.1 hprefix).1
  have hletter := hident d List.mem_cons_self
  rw [not_isIdentChar_of_isSpace (hspace d List.mem_cons_self)] at hletter
  cases hletter

/-- What is covered at the offset of a name that padding has moved. -/
theorem extract_eq_iff_recurs {raw lead padding before name after : Text}
    (hraw : raw = lead ++ (padding ++ before) ++ (name ++ after)) :
    raw.extract (columnOf raw (byteSize lead + byteSize before))
        (columnOf raw (byteSize lead + byteSize before) + name.length) = name ↔
      Recurs raw padding before name := by
  have hle : byteSize before ≤ byteSize (padding ++ before) := by
    rw [byteSize_append]
    omega
  rw [List.extract_eq_take_drop, Nat.add_sub_cancel_left]
  by_cases hboundary : IsBoundary (padding ++ before) (byteSize before)
  · obtain ⟨front, ⟨back, hsplit⟩, hsize⟩ := hboundary
    have hwhole : raw = (lead ++ front) ++ (back ++ name ++ after) := by
      rw [hraw, ← hsplit]
      simp only [List.append_assoc]
    rw [recurs_iff_of_split hsplit.symm hsize, ← hsize, ← byteSize_append, hwhole,
      columnOf_byteSize, List.drop_left, List.prefix_iff_eq_take, eq_comm,
      List.take_append_of_le_length (by simp)]
  · have hcolumn : columnOf raw (byteSize lead + byteSize before) = 0 := by
      apply columnFrom_of_not_isBoundary
      · rw [hraw, byteSize_append, byteSize_append]
        omega
      · rwa [hraw, isBoundary_append_iff hle]
    rw [hcolumn, List.drop_zero, eq_comm, ← List.prefix_iff_eq_take]
    constructor
    · exact fun hname ↦ .inr ⟨hboundary, hname⟩
    · rintro (⟨front, back, hsplit, hsize, -⟩ | ⟨-, hname⟩)
      · exact absurd ⟨front, ⟨back, hsplit.symm⟩, hsize⟩ hboundary
      · exact hname

section

variable {rows : List Text} {line : SourceLine}

theorem coveredText_nameRange (hline : line.ReadIn rows) (offset : Nat) (name : Text) :
    coveredText rows (nameRange line offset name) =
      line.raw.extract (columnOf line.raw offset) (columnOf line.raw offset + name.length) := by
  rw [coveredText, show (nameRange line offset name).start.line = line.index from rfl, hline.raw]
  rfl

/-- The text of the parameter list before the name of an argument. -/
theorem IsArgument.exists_before {h : Header} {a : Argument} {e : Entry}
    (hargument : IsArgument line h a e) :
    ∃ list before, h.params = some list ∧ before ++ a.name <+: list ∧
      a.offset = h.paramsOffset + byteSize before := by
  obtain ⟨-, ⟨list, hlist, ha⟩, -⟩ := hargument
  obtain ⟨_, hoffset, ⟨before, after, rfl, rfl⟩, -⟩ := Argument.parse_spec ha
  exact ⟨_, before, hlist, List.prefix_append _ after, hoffset⟩

theorem IsArgument.name_spec {h : Header} {a : Argument} {e : Entry}
    (hargument : IsArgument line h a e) : a.name ≠ [] ∧ ∀ c ∈ a.name, isIdentChar c := by
  obtain ⟨-, ⟨list, -, ha⟩, -⟩ := hargument
  obtain ⟨_, -, -, hname⟩ := Argument.parse_spec ha
  exact hname

/-- The selection of an argument covers the name if and only if the name recurs. -/
theorem IsArgument.covered_iff_recurs (hline : line.ReadIn rows) {h : Header} {a : Argument}
    {e : Entry} (hargument : IsArgument line h a e) {list before : Text}
    (hlist : h.params = some list) (hbefore : before ++ a.name <+: list)
    (hoffset : a.offset = h.paramsOffset + byteSize before) :
    coveredText rows e.selection = e.name ↔
      Recurs line.raw (h.padding line.code) before a.name := by
  have hne : list ≠ [] := by
    rintro rfl
    simp [hargument.name_spec.1] at hbefore
  obtain ⟨lead, rest, hraw, hlead⟩ :=
    (Header.standsAt_params (hline.readFrom hargument.1) hlist hne).extend hline.code_isPrefix
  obtain ⟨after, rfl⟩ := hbefore
  obtain ⟨-, -, rfl⟩ := hargument
  have hwhole : line.raw =
      lead ++ (h.padding line.code ++ before) ++ (a.name ++ (after ++ rest)) := by
    rw [hraw]
    simp only [List.append_assoc]
  rw [← extract_eq_iff_recurs hwhole, hlead, ← hoffset]
  exact Eq.congr_left (coveredText_nameRange hline a.offset a.name)

/-- A covered name is not displaced. -/
theorem not_displaced_of_covered (hline : line.ReadIn rows) {e : Entry}
    (h : coveredText rows e.selection = e.name) : ¬ Displaced line e := by
  rintro ⟨_, _, _, _, hargument, hlist, hbefore, hoffset, -, hother⟩
  exact hother ((hargument.covered_iff_recurs hline hlist hbefore hoffset).1 h)

theorem Origin.covered_iff (hline : line.ReadIn rows) {e : Entry} (horigin : Origin line e) :
    coveredText rows e.selection = e.name ↔ ¬ line.IsUnnamedRegion ∧ ¬ Displaced line e := by
  cases horigin with
  | written offset hregion hstands hselection =>
    have hcovered : coveredText rows e.selection = e.name := by
      rw [hselection, coveredText_nameRange hline]
      exact hstands.extract_eq
    exact ⟨fun h ↦ ⟨hregion, not_displaced_of_covered hline h⟩, fun _ ↦ hcovered⟩
  | unnamed hregion hname hselection =>
    refine ⟨fun hcovered ↦ ?_, fun h ↦ absurd hregion h.1⟩
    -- the covered text begins with the number sign of the marker
    obtain ⟨before, after, hraw, hbefore⟩ := (StandsAt.trim line.code).extend hline.code_isPrefix
    obtain ⟨rest, hrest⟩ : ∃ rest, trim line.code = '#' :: rest :=
      List.head?_eq_some_iff.1 hregion.2.length.2
    rw [hselection, coveredText_nameRange hline, hname, ← hbefore, hraw, hrest, List.append_assoc,
      columnOf_byteSize, List.extract_eq_take_drop, Nat.add_sub_cancel_left, List.drop_left] at hcovered
    have hhead := congrArg List.head? hcovered
    simp at hhead
  | argument h a hargument =>
    have hregion : ¬ line.IsUnnamedRegion := by
      rintro ⟨⟨p, hp⟩, _⟩
      exact nomatch hargument.1.symm.trans hp
    refine ⟨fun hcovered ↦ ⟨hregion, not_displaced_of_covered hline hcovered⟩, fun hnot ↦ ?_⟩
    obtain ⟨list, before, hlist, hbefore, hoffset⟩ := hargument.exists_before
    rw [hargument.covered_iff_recurs hline hlist hbefore hoffset]
    by_contra hother
    refine hnot.2 ⟨h, a, list, before, hargument, hlist, hbefore, hoffset, ?_, hother⟩
    intro hpadding
    exact hother (hpadding ▸ recurs_nil line.raw before a.name)

/-- The selection of an argument is where the argument stands if and only if its list has no
padding. -/
theorem selection_eq_iff (hline : line.ReadIn rows) {h : Header} {a : Argument} {e : Entry}
    (hargument : IsArgument line h a e) :
    e.selection = nameRange line (a.offset + byteSize (h.padding line.code)) e.name ↔
      h.padding line.code = [] := by
  have hstands := hargument.standsAt hline
  obtain ⟨_, _, rfl⟩ := hargument
  constructor
  · intro hselection
    by_contra hpadding
    have hsize : 0 < byteSize (h.padding line.code) := byteSize_pos hpadding
    have hcolumn : columnOf line.raw a.offset =
        columnOf line.raw (a.offset + byteSize (h.padding line.code)) :=
      congrArg (fun r ↦ r.start.character) hselection
    have hlt := hstands.columnOf_lt_columnOf (Nat.lt_add_of_pos_right hsize)
    omega
  · intro hpadding
    rw [hpadding, byteSize_nil, Nat.add_zero]
    rfl

/-- The argument with which a padded list begins is looked for in the padding. -/
theorem displaced_of_offset_eq {h : Header} {a : Argument} {e : Entry}
    (hargument : IsArgument line h a e) (hpadding : h.padding line.code ≠ [])
    (hfirst : a.offset = h.paramsOffset) : Displaced line e := by
  obtain ⟨list, before, hlist, hbefore, hoffset⟩ := hargument.exists_before
  obtain ⟨hname, hident⟩ := hargument.name_spec
  obtain rfl : before = [] := by
    by_contra hne
    have hsize := byteSize_pos hne
    omega
  exact ⟨h, a, list, [], hargument, hlist, hbefore, hoffset, hpadding,
    not_recurs_first (fun c ↦ List.mem_takeWhile_imp) hpadding hident hname⟩

end

/-- The selection of a symbol covers exactly its name, unless the symbol is a region without a quoted
name or an argument that white space at the beginning of its list has displaced. The name of an
argument stands further right by that white space, so its selection is in place if and only if there
is none, and the argument with which a padded list begins is always displaced. -/
theorem covered_eq_name_iff (text : Text) (s : Symbol) (hs : s ∈ flatten (ofText text)) :
    ∃ line ∈ SourceLine.readAll (lines text),
      s.selection.start.line = line.index ∧ s.selection.stop.line = line.index ∧
      (coveredText (lines text) s.selection = s.name ↔
        ¬ line.IsUnnamedRegion ∧ ¬ Displaced line s.sketch) ∧
      ∀ h a, IsArgument line h a s.sketch →
        StandsAt line.raw (a.offset + byteSize (h.padding line.code)) s.name ∧
        (s.selection = nameRange line (a.offset + byteSize (h.padding line.code)) s.name ↔
          h.padding line.code = []) ∧
        (h.padding line.code ≠ [] → a.offset = h.paramsOffset → Displaced line s.sketch) := by
  obtain ⟨line, hmem, horigin⟩ := exists_origin hs
  have hline := SourceLine.readIn_of_mem hmem
  obtain ⟨first, hselection, _⟩ := horigin.selection_fits hline
  have hselected : s.selection = .onLine line.index first (first + s.name.length) := hselection
  refine ⟨line, hmem, by rw [hselected]; rfl, by rw [hselected]; rfl, horigin.covered_iff hline, ?_⟩
  intro h a hargument
  have hplace := selection_eq_iff hline hargument
  refine ⟨?_, hplace, displaced_of_offset_eq hargument⟩
  have hname : s.name = a.name := congrArg Entry.name hargument.2.2
  rw [hname]
  exact hargument.standsAt hline

/-- A method with one blank after the parenthesis of its parameter list. -/
def paddedMethod : Text := "Sub S( x As Integer)\nEnd Sub".toList

theorem covered_eq_name_iff_paddedMethod :
    ∃ s ∈ flatten (ofText paddedMethod), s.name = ['x'] ∧
      ∃ line ∈ SourceLine.readAll (lines paddedMethod),
        s.selection.start.line = line.index ∧
        (coveredText (lines paddedMethod) s.selection = s.name ↔
          ¬ line.IsUnnamedRegion ∧ ¬ Displaced line s.sketch) := by
  have hsecond : (flatten (ofText paddedMethod))[1]?.map (·.name) = some ['x'] := by decide +kernel
  obtain ⟨s, hs, hname⟩ := Option.map_eq_some_iff.1 hsecond
  have hmem := List.mem_of_getElem? hs
  obtain ⟨line, hline, hstart, _, hcovered, _⟩ := covered_eq_name_iff paddedMethod s hmem
  exact ⟨s, hmem, hname, line, hline, hstart, hcovered⟩

/-- The blank is covered in place of the argument. -/
theorem covered_paddedMethod :
    ∃ s ∈ flatten (ofText paddedMethod), s.name = ['x'] ∧ s.kind = .variableKind ∧
      coveredText (lines paddedMethod) s.selection = [' '] := by
  have hsecond : (flatten (ofText paddedMethod))[1]?.map (fun s ↦
      (s.name, s.kind, coveredText (lines paddedMethod) s.selection)) =
        some (['x'], .variableKind, [' ']) := by decide +kernel
  obtain ⟨s, hs, hshown⟩ := Option.map_eq_some_iff.1 hsecond
  simp only [Prod.mk.injEq] at hshown
  exact ⟨s, List.mem_of_getElem? hs, hshown⟩

end Outline

end VbOutline
