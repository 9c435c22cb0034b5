import VbOutline.Proofs.Outline.Steps
import VbOutline.Proofs.Source.Lines
import VbOutline.Proofs.Statement.Names

/-!
# Where symbols come from

Every symbol of an outline comes from a line of the document. Its name stands in that line at the
offset from which its selection is computed, with two exceptions: a region without a quoted name has
a name that is not written, and the name of an argument stands further right if white space follows
the parenthesis of its list. In all three cases the selection stays within the line.
-/

namespace VbOutline

open Text Line

/-- The line holds a region marker without a quoted name. -/
def SourceLine.IsUnnamedRegion (line : SourceLine) : Prop :=
  (∃ p, line.statement = some (.region p)) ∧ Statement.MarksUnnamedRegion (trim line.code)

theorem SourceLine.ReadIn.readFrom {rows : List Text} {line : SourceLine} (h : line.ReadIn rows)
    {s : Statement} (hs : line.statement = some s) : Statement.ReadFrom line.code s := by
  rw [h.statement_eq hs]
  exact Statement.readFrom_parse line.code

namespace Outline

open VbOutline.Symbol

/-- The entry is the one of an argument of the header on the line. -/
def IsArgument (line : SourceLine) (h : Header) (a : Argument) (e : Entry) : Prop :=
  line.statement = some (.header h) ∧
    (∃ list, h.params = some list ∧ a ∈ Argument.parse list h.paramsOffset) ∧
    e = (leaf line a.name a.offset .variableKind (Entry.argumentMark ++ a.signature)).sketch

/-- The range of a name that is looked for at a byte offset of the line. -/
def nameRange (line : SourceLine) (offset : Nat) (name : Text) : Range :=
  .onLine line.index (columnOf line.raw offset) (columnOf line.raw offset + name.length)

inductive Origin (line : SourceLine) (e : Entry) : Prop where
  | written (offset : Nat) (hregion : ¬ line.IsUnnamedRegion)
      (hstands : StandsAt line.raw offset e.name)
      (hselection : e.selection = nameRange line offset e.name)
  | unnamed (hregion : line.IsUnnamedRegion) (hname : e.name = "Region".toList)
      (hselection : e.selection = nameRange line (indentOf line.code) e.name)
  | argument (h : Header) (a : Argument) (hargument : IsArgument line h a e)

section

variable {rows : List Text} {line : SourceLine}

theorem origin_of_standsAt (hline : line.ReadIn rows) (hregion : ¬ line.IsUnnamedRegion)
    {name : Text} {offset : Nat} (h : StandsAt line.code offset name) (kind : SymbolKind)
    (detail : Text) (children : List Symbol) :
    Origin line (sketch ⟨entry line name offset kind detail, children⟩) :=
  .written offset hregion (h.extend hline.code_isPrefix) rfl

@[simp]
theorem flatten_leaf_cons (line : SourceLine) (name : Text) (offset : Nat) (kind : SymbolKind)
    (detail : Text) (rest : List Symbol) :
    flatten (leaf line name offset kind detail :: rest) =
      leaf line name offset kind detail :: flatten rest := by
  simp [leaf]

theorem origin_arguments {h : Header} (hstatement : line.statement = some (.header h)) {s : Symbol}
    (hs : s ∈ arguments line h) : Origin line s.sketch := by
  unfold arguments at hs
  split at hs
  · next list hlist =>
    obtain ⟨a, ha, rfl⟩ := List.mem_map.1 hs
    exact .argument h a ⟨hstatement, ⟨list, hlist, ha⟩, rfl⟩
  · cases hs

theorem origin_enumMember (hline : line.ReadIn rows) (hregion : ¬ line.IsUnnamedRegion)
    {around : Option Block} {s : Symbol} (hs : s ∈ flatten (enumMember line around)) :
    Origin line s.sketch := by
  unfold enumMember at hs
  split at hs
  · split at hs
    · next p hp =>
      rw [flatten_leaf_cons, flatten_nil, List.mem_singleton] at hs
      subst hs
      exact origin_of_standsAt hline hregion (Statement.enumMember?_standsAt hp) _ _ _
    · simp at hs
  · simp at hs

/-- The symbols that a line brings, arguments included, come from it. -/
theorem origin_of_mem_created (hline : line.ReadIn rows) {o : Outline} {s : Symbol}
    (hs : s ∈ flatten (o.created line)) : Origin line s.sketch := by
  cases hstatement : line.statement with
  | none => simp [created, hstatement] at hs
  | some statement =>
    have hread := hline.readFrom hstatement
    have hregion (hother : ∀ p, statement ≠ .region p) : ¬ line.IsUnnamedRegion := by
      rintro ⟨⟨p, hp⟩, _⟩
      exact hother p (Option.some.inj (hstatement.symm.trans hp))
    cases statement with
    | blockEnd e => simp [created, hstatement] at hs
    | header h =>
      cases hkind : h.block.symbolKind? with
      | none => simp [created, hstatement, hkind] at hs
      | some kind =>
        simp only [created, hstatement, hkind, flatten_cons, flatten_nil, List.append_nil,
          List.mem_cons] at hs
        obtain rfl | hs := hs
        · exact origin_of_standsAt hline (hregion (by simp)) (Header.standsAt_name hread) _ _ _
        · rw [flatten_eq_self fun s hs ↦ (isLeafOn_arguments line h s hs).2] at hs
          exact origin_arguments hstatement hs
    | region p =>
      obtain ⟨q, hq, rfl⟩ := hread
      simp only [created, hstatement, flatten_leaf_cons, flatten_nil, List.mem_singleton] at hs
      subst hs
      obtain ⟨hstands, hnamed⟩ | ⟨rfl, hunnamed⟩ := Statement.region?_spec hq
      · exact origin_of_standsAt hline (fun h ↦ hnamed h.2)
          ((StandsAt.trim line.code).trans hstands) _ _ _
      · exact .unnamed ⟨⟨_, hstatement⟩, hunnamed⟩ rfl rfl
    | imports p isAlias =>
      obtain ⟨q, hq, rfl⟩ := hread
      simp only [created, hstatement, flatten_leaf_cons, flatten_nil, List.mem_singleton] at hs
      subst hs
      exact origin_of_standsAt hline (hregion (by simp))
        ((StandsAt.trim line.code).trans (Statement.imports?_standsAt hq)) _ _ _
    | implements names =>
      obtain ⟨found, hfound, rfl⟩ := hread
      rw [created, hstatement, flatten_eq_self (by simp [implemented, leaf])] at hs
      obtain ⟨p, hp, rfl⟩ := List.mem_map.1 hs
      obtain ⟨q, hq, rfl⟩ := List.mem_map.1 hp
      exact origin_of_standsAt hline (hregion (by simp))
        ((StandsAt.trim line.code).trans (Statement.implements?_standsAt hfound hq)) _ _ _
    | declaration d =>
      rw [created, hstatement, flatten_eq_self (by simp [declared, leaf])] at hs
      obtain ⟨x, hx, rfl⟩ := List.mem_map.1 hs
      exact origin_of_standsAt hline (hregion (by simp)) (Declaration.standsAt_declarator hread hx) _ _ _
    | blank | control | branch | plain =>
      rw [created, hstatement] at hs
      exact origin_enumMember hline (hregion (by simp)) hs

/-- The name of an argument stands in its line, moved by the padding of its list. -/
theorem IsArgument.standsAt (hline : line.ReadIn rows) {h : Header} {a : Argument} {e : Entry}
    (hargument : IsArgument line h a e) :
    StandsAt line.raw (a.offset + byteSize (h.padding line.code)) a.name := by
  obtain ⟨hstatement, ⟨list, hlist, ha⟩, _⟩ := hargument
  exact (Header.standsAt_argument (hline.readFrom hstatement) hlist ha).extend hline.code_isPrefix

/-- The selection of a symbol lies within the line from which the symbol comes. -/
theorem Origin.selection_fits (hline : line.ReadIn rows) {e : Entry} (horigin : Origin line e) :
    ∃ first, e.selection = .onLine line.index first (first + e.name.length) ∧
      first + e.name.length ≤ line.raw.length := by
  cases horigin with
  | written offset _ hstands hselection =>
    exact ⟨_, hselection, hstands.columnOf_add_length_le (Nat.le_refl offset)⟩
  | unnamed hregion hname hselection =>
    have htrim := ((StandsAt.trim line.code).extend hline.code_isPrefix).columnOf_add_length_le
      (Nat.le_refl _)
    have hlength := hregion.2.length.1
    refine ⟨_, hselection, ?_⟩
    rw [hname]
    omega
  | argument h a hargument =>
    have hstands := hargument.standsAt hline
    obtain ⟨_, _, rfl⟩ := hargument
    exact ⟨_, rfl, hstands.columnOf_add_length_le (Nat.le_add_right _ _)⟩

end

/-- Every symbol of an outline is one that a line brought to the outline of the lines before it, up to
the end of its range. -/
theorem exists_created_in_states {text : Text} {s : Symbol} (hs : s ∈ flatten (ofText text)) :
    ∃ o line t, (o, line) ∈ states step start (SourceLine.readAll (lines text)) ∧
      t ∈ flatten (o.created line) ∧ t.sketch = s.sketch := by
  have hsketch : s.sketch ∈ sketches (ofText text) := List.mem_map_of_mem hs
  rw [ofText, sketches_ofLines, List.mem_flatMap] at hsketch
  obtain ⟨⟨o, line⟩, hstate, hcreated⟩ := hsketch
  obtain ⟨t, ht, hst⟩ := List.mem_map.1 hcreated
  exact ⟨o, line, t, hstate, ht, hst⟩

theorem exists_created {text : Text} {s : Symbol} (hs : s ∈ flatten (ofText text)) :
    ∃ line ∈ SourceLine.readAll (lines text), ∃ (o : Outline) (t : Symbol),
      t ∈ flatten (o.created line) ∧ t.sketch = s.sketch := by
  obtain ⟨o, line, t, hstate, ht, hst⟩ := exists_created_in_states hs
  exact ⟨line, mem_of_mem_states hstate, o, t, ht, hst⟩

/-- Every symbol of an outline comes from a line of the document. -/
theorem exists_origin {text : Text} {s : Symbol} (hs : s ∈ flatten (ofText text)) :
    ∃ line ∈ SourceLine.readAll (lines text), Origin line s.sketch := by
  obtain ⟨line, hline, o, t, ht, hst⟩ := exists_created hs
  exact ⟨line, hline, hst ▸ origin_of_mem_created (SourceLine.readIn_of_mem hline) ht⟩

end Outline

end VbOutline
