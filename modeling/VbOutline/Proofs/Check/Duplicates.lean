import Mathlib.Data.List.Find
import Mathlib.Data.List.Nodup
import VbOutline.Proofs.Check.Completion
import VbOutline.Proofs.Outline.Nesting
import VbOutline.Proofs.Outline.Scopes
import VbOutline.Proofs.Symbol.Occurrences

/-!
# Definitions that several documents have

The documents of a workspace are checked one by one, each beside the outlines of the others. A
top-level definition is reported if another document has one of the same kind and name, and it is
reported once, however many documents have one. So the reports of all documents agree with each
other: if the report of one document names another document, then that document has a report of its
own about the same definition.

Each definition has a line of its own. The report therefore has one place for each definition, and
the order of these places is the order of the definitions.
-/

namespace VbOutline

open Text VbOutline.Symbol

/-- Whether the occurrence is a definition with nothing but containers around it. -/
def Occurrence.isTopLevel (x : Occurrence) : Bool :=
  x.node.symbol.isDefinition && x.around.all fun s ↦ s.kind.isContainer

theorem Entry.not_isDefinition_of_isContainer {e : Entry} (h : e.kind.isContainer) :
    e.isDefinition = false := by
  have hkind : e.kind = .container := by
    revert h
    cases e.kind <;> simp [SymbolKind.isContainer]
  rw [isDefinition, hkind]
  rfl

namespace Scope

theorem filter_isTopLevel (around : List Symbol) (place : Place) (i : Nat) (forest : List Symbol) :
    ((Occurrence.inForest around place i forest).filter Occurrence.isTopLevel).map (·.node.symbol) =
      if around.all (fun s ↦ s.kind.isContainer) then topLevelSymbols forest else [] := by
  induction forest using forest_induction generalizing around place i with
  | nil =>
    rw [Occurrence.inForest_nil, topLevelSymbols_nil, ite_self]
    rfl
  | cons s rest ihchildren ihrest =>
    rw [Occurrence.inForest_cons, List.filter_cons, List.filter_append, Occurrence.isTopLevel]
    cases haround : around.all fun s ↦ s.kind.isContainer with
    | false => simp [haround, ihchildren, ihrest]
    | true =>
      rw [topLevelSymbols_cons]
      by_cases hcontainer : s.kind.isContainer
      · have hdefinition : s.isDefinition = false := s.not_isDefinition_of_isContainer hcontainer
        simp [haround, ihchildren, ihrest, hcontainer, hdefinition]
      · by_cases hdefinition : s.isDefinition
        · simp [haround, ihchildren, ihrest, hcontainer, hdefinition]
        · simp [haround, ihchildren, ihrest, hcontainer, hdefinition]

theorem topLevelSymbols_sublist (forest : List Symbol) :
    (topLevelSymbols forest).Sublist (flatten forest) := by
  induction forest using forest_induction with
  | nil => rw [topLevelSymbols_nil, flatten_nil]
  | cons s rest ihchildren ihrest =>
    rw [topLevelSymbols_cons, flatten_cons]
    apply List.Sublist.append _ ihrest
    split
    · exact ihchildren.cons s
    · split
      · exact (List.nil_sublist _).cons_cons s
      · exact List.nil_sublist _

end Scope

theorem Entry.opensScope_of_isDefinition {e : Entry} (h : e.isDefinition) : e.opensScope := by
  rw [isDefinition, Bool.and_eq_true] at h
  rw [opensScope, h.2, Bool.true_and]
  have hkind := h.1
  revert hkind
  cases e.kind <;> decide

namespace Check

/-- The definitions of a document that other documents can refer to. Namespaces and regions around
them make no difference. -/
def definitions (d : Document) : List Symbol :=
  ((Occurrence.all (Outline.ofText d.text)).filter Occurrence.isTopLevel).map (·.node.symbol)

theorem definitions_eq (d : Document) :
    definitions d = Scope.topLevelSymbols (Outline.ofText d.text) := Scope.filter_isTopLevel [] [] 0 _

/-- The definitions of a document have their names on different lines. -/
theorem definitions_rise (d : Document) :
    (definitions d).Pairwise fun s t ↦ s.selection.start.line < t.selection.start.line := by
  obtain ⟨high, hlevel⟩ := Outline.exists_level_ofText d.text
  have hline {s : Symbol} (hs : s ∈ flatten (Outline.ofText d.text)) :
      s.selection.start.line = s.range.start.line := by
    obtain ⟨first, hselection, -⟩ := (allSound_reverse.1 hlevel.sound s hs).selection
    rw [hselection]
    rfl
  rw [definitions_eq]
  apply ((Outline.scopes_rise d.text).sublist (Scope.topLevelSymbols_sublist _)).imp_of_mem
  intro s t hs ht hrise
  obtain ⟨hs, hsdefinition⟩ := Scope.mem_topLevelSymbols hs
  obtain ⟨ht, htdefinition⟩ := Scope.mem_topLevelSymbols ht
  rw [hline hs, hline ht]
  exact hrise (Entry.opensScope_of_isDefinition hsdefinition)
    (Entry.opensScope_of_isDefinition htdefinition)

/-- Whether a document has a definition of the kind and the name of a symbol. -/
def declaresLike (s : Symbol) (d : Document) : Bool :=
  (definitions d).any fun t ↦ t.kind == s.kind && t.isNamed s.name

theorem declaresLike_iff {s : Symbol} {d : Document} :
    declaresLike s d ↔ ∃ t ∈ definitions d, t.kind = s.kind ∧ eqAscii t.name s.name := by
  simp [declaresLike, Entry.isNamed]

/-! ## The report of one document -/

/-- What a report says about duplicates of a definition. -/
def duplicatesOf (report : List Diagnostic) (s : Symbol) : List Diagnostic :=
  (withCodes ["duplicate-declaration"] report).filter fun x ↦ x.range == s.selection

/-- The duplicates are reported in the order of the definitions. -/
theorem sortByStart_duplicates (d : Document) (others : List DocumentOutline) :
    sortByStart (duplicates (Outline.ofText d.text) others) =
      duplicates (Outline.ofText d.text) others := by
  have hrise := definitions_rise d
  rw [definitions_eq] at hrise
  apply List.mergeSort_of_pairwise
  rw [duplicates, List.pairwise_filterMap]
  apply hrise.imp
  intro s t hlt x hx y hy
  obtain ⟨_, -, rfl⟩ := Option.map_eq_some_iff.1 hx
  obtain ⟨_, -, rfl⟩ := Option.map_eq_some_iff.1 hy
  exact Position.le_of_line_lt hlt

theorem withCodes_duplicates_validate {o : Options} (henabled : o.isEnabled "duplicate-declaration")
    (d : Document) (others : List DocumentOutline) :
    withCodes ["duplicate-declaration"] (validate o d.text others) =
      duplicates (Outline.ofText d.text) others := by
  have hfindings : withCodes ["duplicate-declaration"] (findings o.maxLineLength d.text others) =
      duplicates (Outline.ofText d.text) others := by
    rw [findings, withCodes_append, withCodes_append, withCodes_append,
      (codesIn_walk _ _).withCodes_eq_nil (by simp [lineCodes, blockCodes]),
      (codesIn_unusedVariables _ _).withCodes_eq_nil (by simp),
      (codesIn_missingMembers _ _).withCodes_eq_nil (by simp),
      (codesIn_duplicates _ _).withCodes_eq_self (List.Subset.refl _)]
    rfl
  rw [withCodes_validate_of_isEnabled henabled, hfindings, sortByStart_duplicates]

/-! ## The reports of all documents -/

section

variable {o : Options} {documents : List Document} {d : Document}

/-- A definition is compared with those of the first other document that declares it again. -/
theorem duplicateOf?_eq (hdistinct : (documents.map (·.uri)).Nodup) (hd : d ∈ documents)
    (s : Symbol) :
    duplicateOf? ((DocumentOutline.others (documents.map DocumentOutline.ofDocument) d.uri).map
        fun o ↦ (o.uri, Scope.topLevelSymbols o.symbols)) s =
      (documents.find? fun e ↦ e != d && declaresLike s e).map (·.uri) := by
  have hsame {e : Document} (he : e ∈ documents) : (e.uri != d.uri) = (e != d) := by
    rw [Bool.eq_iff_iff, bne_iff_ne, bne_iff_ne, not_iff_not]
    exact ⟨List.inj_on_of_nodup_map hdistinct he hd, congrArg _⟩
  rw [duplicateOf?, DocumentOutline.others, List.filter_map, List.map_map, List.find?_map,
    List.find?_filter, Option.map_map]
  apply congrArg (Option.map Document.uri)
  apply List.find?_congr
  intro e he
  rw [Bool.decide_and, Bool.decide_eq_true, Bool.decide_eq_true, ← hsame he, declaresLike,
    definitions_eq]
  rfl

/-- The diagnostic about a definition that is declared again in a document. -/
def duplicateIn (s : Symbol) (e : Document) : Diagnostic :=
  ⟨s.selection, .duplicateDeclaration s.kind s.name e.uri⟩

theorem withCodes_validateAmong (henabled : o.isEnabled "duplicate-declaration")
    (hdistinct : (documents.map (·.uri)).Nodup) (hd : d ∈ documents) :
    withCodes ["duplicate-declaration"]
        (validateAmong o (documents.map DocumentOutline.ofDocument) d) =
      (definitions d).flatMap fun s ↦
        ((documents.find? fun e ↦ e != d && declaresLike s e).map (duplicateIn s)).toList := by
  rw [validateAmong, withCodes_duplicates_validate henabled, duplicates,
    List.filterMap_eq_flatMap_toList, definitions_eq]
  simp only [duplicateOf?_eq hdistinct hd, Option.map_map]
  rfl

theorem duplicatesOf_validateAmong (henabled : o.isEnabled "duplicate-declaration")
    (hdistinct : (documents.map (·.uri)).Nodup) (hd : d ∈ documents) {s : Symbol}
    (hs : s ∈ definitions d) :
    duplicatesOf (validateAmong o (documents.map DocumentOutline.ofDocument) d) s =
      ((documents.find? fun e ↦ e != d && declaresLike s e).map (duplicateIn s)).toList := by
  have hselections : (definitions d).Pairwise fun s t ↦ s.selection ≠ t.selection := by
    apply (definitions_rise d).imp
    intro s t hlt heq
    exact hlt.ne (by rw [heq])
  rw [duplicatesOf, withCodes_validateAmong henabled hdistinct hd]
  apply filter_flatMap_of_mem _ hselections hs
  intro t x hx
  rw [Option.mem_toList, Option.map_eq_some_iff] at hx
  obtain ⟨e, -, rfl⟩ := hx
  rfl

/-- In a workspace whose documents have different URIs, a top-level definition gets one diagnostic
about duplicates if another document has a definition of the same kind and name, up to the case of
ASCII letters, and otherwise none; it names the first such document. There are no other diagnostics
about duplicates, and the document that is named has one itself, about a definition of that kind and
name. -/
theorem duplicates_reported (henabled : o.isEnabled "duplicate-declaration")
    (hdistinct : (documents.map (·.uri)).Nodup) (hd : d ∈ documents) :
    let report (e : Document) := validateAmong o (documents.map DocumentOutline.ofDocument) e
    withCodes ["duplicate-declaration"] (report d) =
      (definitions d).flatMap (duplicatesOf (report d)) ∧
    ∀ s ∈ definitions d,
      duplicatesOf (report d) s =
        ((documents.find? fun e ↦ e != d && declaresLike s e).map (duplicateIn s)).toList ∧
      ((∃ x, duplicatesOf (report d) s = [x]) ↔
        ∃ e ∈ documents, e ≠ d ∧ ∃ t ∈ definitions e, t.kind = s.kind ∧ eqAscii t.name s.name) ∧
      ∀ e, documents.find? (fun e ↦ e != d && declaresLike s e) = some e →
        (∀ x ∈ duplicatesOf (report d) s, x.finding.data? = some (.duplicateOf e.uri)) ∧
        ∃ t ∈ definitions e, t.kind = s.kind ∧ eqAscii t.name s.name ∧
          ∃ y, duplicatesOf (report e) t = [y] := by
  intro report
  have hreceived {e : Document} (he : e ∈ documents) {t : Symbol} (ht : t ∈ definitions e) :=
    duplicatesOf_validateAmong henabled hdistinct he ht
  have hone {e : Document} (he : e ∈ documents) {t : Symbol} (ht : t ∈ definitions e) :
      (∃ x, duplicatesOf (report e) t = [x]) ↔ ∃ f ∈ documents, f ≠ e ∧ declaresLike t f := by
    rw [hreceived he ht]
    calc
      _ ↔ (documents.find? fun f ↦ f != e && declaresLike t f).isSome := by
        cases documents.find? fun f ↦ f != e && declaresLike t f <;> simp
      _ ↔ ∃ f ∈ documents, f != e && declaresLike t f := List.find?_isSome
      _ ↔ _ := by simp only [Bool.and_eq_true, bne_iff_ne]
  refine ⟨?_, fun s hs ↦ ⟨hreceived hd hs, ?_, ?_⟩⟩
  · rw [withCodes_validateAmong henabled hdistinct hd]
    apply List.flatMap_congr
    intro s hs
    exact (hreceived hd hs).symm
  · rw [hone hd hs]
    simp only [declaresLike_iff]
  · intro e hfind
    have he := List.mem_of_find?_eq_some hfind
    have hfound := List.find?_some hfind
    rw [Bool.and_eq_true, bne_iff_ne] at hfound
    obtain ⟨t, ht, hkind, hname⟩ := declaresLike_iff.1 hfound.2
    refine ⟨?_, t, ht, hkind, hname, ?_⟩
    · intro x hx
      rw [hreceived hd hs, hfind] at hx
      rw [List.mem_singleton.1 hx]
      rfl
    · -- Seen from the other document, `s` itself is the definition that is declared again.
      have hback : eqAscii s.name t.name := by
        rw [eqAscii_eq, beq_iff_eq] at hname ⊢
        exact hname.symm
      apply (hone he ht).2
      exact ⟨d, hd, hfound.1.symm, declaresLike_iff.2 ⟨s, hs, hkind.symm, hback⟩⟩

end

/-- Two documents that declare the same class, one of them in a namespace and the other in a region,
and before them one with a module of that name. -/
def sharedClass : List Document :=
  [⟨"file:///a.vb", "Module Shape\nEnd Module".toList⟩,
    ⟨"file:///b.vb", "Namespace N\nClass Shape\nEnd Class\nEnd Namespace".toList⟩,
    ⟨"file:///c.vb", "#Region \"r\"\nClass SHAPE\nEnd Class\n#End Region".toList⟩]

theorem duplicates_reported_sharedClass :
    let d : Document := ⟨"file:///b.vb", "Namespace N\nClass Shape\nEnd Class\nEnd Namespace".toList⟩
    Options.standard.isEnabled "duplicate-declaration" ∧
    (sharedClass.map (·.uri)).Nodup ∧
    d ∈ sharedClass ∧
    withCodes ["duplicate-declaration"]
        (validateAmong .standard (sharedClass.map DocumentOutline.ofDocument) d) =
      [⟨.onLine 1 6 11, .duplicateDeclaration .classType "Shape".toList "file:///c.vb"⟩] := by
  intro d
  have henabled : Options.standard.isEnabled "duplicate-declaration" := by decide
  have hdistinct : (sharedClass.map (·.uri)).Nodup := by decide
  have hd : d ∈ sharedClass := by decide
  obtain ⟨hall, hreceived⟩ := duplicates_reported henabled hdistinct hd
  refine ⟨henabled, hdistinct, hd, ?_⟩
  rw [hall, List.flatMap_congr fun s hs ↦ (hreceived s hs).1]
  decide +kernel

end Check

end VbOutline
