import VbOutline.Proofs.Symbol.Regions

/-!
# What an identifier stands for

An identifier that is not itself declared where it stands is searched in the scopes around it from the
innermost one outwards, among the roots, among the top-level definitions of its document and among those
of the other documents. The marks of implemented interfaces are symbols with the names of the interfaces;
they are no declarations, so the first declaration in this order is what is looked for.

It is found unless a mark is in its way: in the scopes and among the roots only the first symbol of the
name is looked at, and if that is a mark the search goes on among the top-level definitions. A
declaration in a scope around the mark is then passed over.
-/

namespace VbOutline.Scope

open Text VbOutline.Symbol

/-- The nodes that are visible at a position: those inside each scope, the innermost scope first, and the
roots. -/
def visibleAt (forest : List Symbol) (p : Position) : List Node :=
  (chain forest p).flatMap Node.children ++ Node.roots forest

/-- The top-level definitions of a document and of the others, in the order of the documents. -/
def reachable (uri : String) (forest : List Symbol) (others : List DocumentOutline) : List Found :=
  (⟨uri, forest⟩ :: others).flatMap fun o ↦ (topLevel o.symbols).map (⟨o.uri, ·⟩)

/-- All that an identifier at a position can stand for, in the order of the search. -/
def searchOrder (uri : String) (forest : List Symbol) (others : List DocumentOutline) (p : Position) :
    List Found :=
  (visibleAt forest p).map (⟨uri, ·⟩) ++ reachable uri forest others

/-- Whether the node declares the name. A mark declares nothing. -/
def declares (name : Text) (n : Node) : Bool := !n.symbol.isImplements && named name n

/-- The first symbol of the name that is visible is a mark, one that is visible declares it, and this
one is not what the search among the top-level definitions comes to. -/
def Swallowed (uri : String) (forest : List Symbol) (others : List DocumentOutline) (p : Position)
    (name : Text) : Prop :=
  ∃ mark n, (visibleAt forest p).find? (named name) = some mark ∧ mark.symbol.isImplements ∧
    (visibleAt forest p).find? (declares name) = some n ∧
    (reachable uri forest others).find? (fun f ↦ declares name f.node) ≠ some ⟨uri, n⟩

theorem lookup?_eq_find? (forest : List Symbol) (name : Text) (p : Position) :
    lookup? forest name p = (visibleAt forest p).find? (named name) := by
  rw [visibleAt, List.find?_append, List.find?_flatMap]
  rfl

/-- No top-level definition is a mark. -/
theorem not_isImplements_of_mem_definitionsIn {place : Place} {i : Nat} {forest : List Symbol} {n : Node}
    (h : n ∈ definitionsIn place i forest) : n.symbol.isImplements = false := by
  induction forest using forest_induction generalizing place i with
  | nil =>
    rw [definitionsIn] at h
    exact absurd h List.not_mem_nil
  | cons s rest ihchildren ihrest =>
    obtain ⟨entry, children⟩ := s
    rw [definitionsIn, definitionsAt] at h
    obtain h | h := List.mem_append.1 h
    · split at h
      · exact ihchildren h
      · split at h
        · next hdefinition =>
          rw [Entry.isDefinition, Bool.and_eq_true, Bool.not_eq_true'] at hdefinition
          rw [List.mem_singleton.1 h]
          exact hdefinition.2
        · exact absurd h List.not_mem_nil
    · exact ihrest h

theorem lookupGlobal?_eq_find? (forest : List Symbol) (name : Text) :
    lookupGlobal? forest name = (topLevel forest).find? (declares name) := by
  have hself : (topLevel forest).filter (fun n ↦ !n.symbol.isImplements) = topLevel forest := by
    rw [List.filter_eq_self]
    intro n hn
    rw [not_isImplements_of_mem_definitionsIn hn]
    rfl
  rw [lookupGlobal?, ← hself, List.find?_filter, hself]
  congr 1
  funext n
  rw [declares, Bool.decide_and, Bool.decide_eq_true, Bool.decide_eq_true]

theorem find?_reachable (uri : String) (forest : List Symbol) (others : List DocumentOutline)
    (name : Text) :
    (reachable uri forest others).find? (fun f ↦ declares name f.node) =
      ((lookupGlobal? forest name).map (⟨uri, ·⟩)).or (lookupAcross? others name) := by
  have hdocument (o : DocumentOutline) :
      ((topLevel o.symbols).map (Found.mk o.uri)).find? (fun f ↦ declares name f.node) =
        (lookupGlobal? o.symbols name).map (⟨o.uri, ·⟩) := by
    rw [List.find?_map, lookupGlobal?_eq_find?]
    rfl
  rw [reachable, List.find?_flatMap]
  simp only [hdocument, List.findSome?_cons]
  cases (lookupGlobal? forest name).map (Found.mk uri) with
  | none => rw [Option.none_or, lookupAcross?]
  | some f => rw [Option.some_or]

/-- What is found for an identifier that is not declared where it stands. -/
theorem resolveAt?_eq_or {d : Document} {forest : List Symbol} {others : List DocumentOutline}
    {p : Position} {word : Text} {r : Range}
    (hmark : ∀ n, definitionAt? forest p = some n → n.symbol.isImplements)
    (hword : d.wordAt p = some (word, r)) :
    resolveAt? d forest others p =
      ((((visibleAt forest p).find? (named word)).filter fun n ↦ !n.symbol.isImplements).map
        (⟨d.uri, ·⟩)).or
      ((reachable d.uri forest others).find? fun f ↦ declares word f.node) := by
  have hnone : (definitionAt? forest p).filter (fun n ↦ !n.symbol.isImplements) = none := by
    rw [Option.filter_eq_none_iff]
    intro n hn
    rw [hmark n hn]
    exact Bool.false_ne_true
  simp only [resolveAt?, hnone, hword, find?_reachable, lookup?_eq_find?]
  cases ((visibleAt forest p).find? (named word)).filter (fun n ↦ !n.symbol.isImplements) with
  | some n => rfl
  | none => cases lookupGlobal? forest word <;> rfl

section

variable {nodes : List Node} {name : Text}

theorem find?_declares_of_none (h : nodes.find? (named name) = none) :
    nodes.find? (declares name) = none := by
  rw [List.find?_eq_none] at h ⊢
  intro n hn hdeclares
  rw [declares, Bool.and_eq_true] at hdeclares
  exact h n hn hdeclares.2

theorem find?_declares_of_some {n : Node} (h : nodes.find? (named name) = some n)
    (hmark : n.symbol.isImplements = false) : nodes.find? (declares name) = some n := by
  rw [List.find?_eq_some_iff_append] at h ⊢
  obtain ⟨hn, before, after, hsplit, hbefore⟩ := h
  refine ⟨by rw [declares, hn, hmark]; rfl, before, after, hsplit, fun m hm ↦ ?_⟩
  have hm := hbefore m hm
  rw [Bool.not_eq_true'] at hm ⊢
  rw [declares, hm, Bool.and_false]

end

/-- An identifier that is not declared where it stands is resolved to the first declaration of its name
in the order of the search if and only if no mark swallows it, and otherwise to the first one among the
top-level definitions. -/
theorem resolveAt?_eq_find?_iff {d : Document} {forest : List Symbol} {others : List DocumentOutline}
    {p : Position} {word : Text} {r : Range}
    (hmark : ∀ n, definitionAt? forest p = some n → n.symbol.isImplements)
    (hword : d.wordAt p = some (word, r)) :
    (resolveAt? d forest others p =
        (searchOrder d.uri forest others p).find? (fun f ↦ declares word f.node) ↔
      ¬ Swallowed d.uri forest others p word) ∧
    (Swallowed d.uri forest others p word →
      resolveAt? d forest others p =
        (reachable d.uri forest others).find? fun f ↦ declares word f.node) := by
  have horder : (searchOrder d.uri forest others p).find? (fun f ↦ declares word f.node) =
      (((visibleAt forest p).find? (declares word)).map (⟨d.uri, ·⟩)).or
        ((reachable d.uri forest others).find? fun f ↦ declares word f.node) := by
    rw [searchOrder, List.find?_append, List.find?_map]
    rfl
  rw [resolveAt?_eq_or hmark hword, horder]
  cases hfirst : (visibleAt forest p).find? (named word) with
  | none =>
    rw [find?_declares_of_none hfirst]
    simp [Swallowed, hfirst]
  | some n =>
    cases hn : n.symbol.isImplements with
    | false =>
      rw [find?_declares_of_some hfirst hn]
      simp [Swallowed, hfirst, hn]
    | true =>
      -- The mark is dropped, and of what is visible nothing else is looked at.
      have hdropped : (some n).filter (fun n ↦ !n.symbol.isImplements) = none := by simp [hn]
      rw [hdropped, Option.map_none, Option.none_or]
      refine ⟨?_, fun _ ↦ rfl⟩
      cases hsecond : (visibleAt forest p).find? (declares word) with
      | none => simp [Swallowed, hsecond]
      | some m => simp [Swallowed, hfirst, hn, hsecond]

/-- A class that implements an interface which stands beside it in another class. -/
def nestedInterface : Document :=
  ⟨"file:///ws/main.vb", ("Class Outer\nInterface IRun\nEnd Interface\n" ++
    "Class Inner\nImplements IRun\nEnd Class\nEnd Class").toList⟩

/-- The name in the mark of the implemented interface. -/
def atMark : Position := ⟨4, 12⟩

theorem isImplements_atMark (n : Node)
    (h : definitionAt? (Outline.ofText nestedInterface.text) atMark = some n) :
    n.symbol.isImplements := by
  have hall : (definitionAt? (Outline.ofText nestedInterface.text) atMark).all
      (·.symbol.isImplements) := by decide +kernel
  rwa [h] at hall

theorem wordAt_atMark :
    nestedInterface.wordAt atMark = some ("IRun".toList, .onLine 4 11 15) := by
  decide +kernel

theorem resolveAt?_eq_find?_iff_atMark :
    (∀ n, definitionAt? (Outline.ofText nestedInterface.text) atMark = some n →
      n.symbol.isImplements) ∧
    nestedInterface.wordAt atMark = some ("IRun".toList, .onLine 4 11 15) ∧
    (resolveAt? nestedInterface (Outline.ofText nestedInterface.text) [] atMark =
        (searchOrder nestedInterface.uri (Outline.ofText nestedInterface.text) [] atMark).find?
          (fun f ↦ declares "IRun".toList f.node) ↔
      ¬ Swallowed nestedInterface.uri (Outline.ofText nestedInterface.text) [] atMark "IRun".toList) :=
  ⟨isImplements_atMark, wordAt_atMark,
    (resolveAt?_eq_find?_iff isImplements_atMark wordAt_atMark).1⟩

/-- The interface is not found, although it is declared in a scope around the mark. -/
theorem resolveAt?_atMark :
    (∀ n, definitionAt? (Outline.ofText nestedInterface.text) atMark = some n →
      n.symbol.isImplements) ∧
    nestedInterface.wordAt atMark = some ("IRun".toList, .onLine 4 11 15) ∧
    resolveAt? nestedInterface (Outline.ofText nestedInterface.text) [] atMark = none ∧
    ∃ f, (searchOrder nestedInterface.uri (Outline.ofText nestedInterface.text) [] atMark).find?
        (fun f ↦ declares "IRun".toList f.node) = some f ∧
      f.node.place = [0, 0] ∧ f.node.symbol.kind = .interfaceType := by
  have hnone : (resolveAt? nestedInterface (Outline.ofText nestedInterface.text) [] atMark).isNone := by
    decide +kernel
  have hfound : ((searchOrder nestedInterface.uri (Outline.ofText nestedInterface.text) [] atMark).find?
      (fun f ↦ declares "IRun".toList f.node)).map (fun f ↦ (f.node.place, f.node.symbol.kind)) =
        some ([0, 0], .interfaceType) := by decide +kernel
  obtain ⟨f, hf, hshown⟩ := Option.map_eq_some_iff.1 hfound
  rw [Prod.mk.injEq] at hshown
  exact ⟨isImplements_atMark, wordAt_atMark, Option.isNone_iff_eq_none.1 hnone, f, hf, hshown⟩

end VbOutline.Scope
