import Mathlib.Data.List.Lattice
import VbOutline.Proofs.Symbol.Occurrences

/-!
# Symbols kept by their kinds

Filtering a forest by kinds drops symbols, and what is inside a dropped symbol moves up into its
place. The kept symbols come out in their order, and one of them is inside another exactly if it was
before. That is said of occurrences, which are told apart by their places, because equal symbols can
stand inside and beside each other.
-/

namespace VbOutline

namespace Occurrence

/-- The occurrence is inside the other one: its place goes on from the other's. -/
def IsInside (x outer : Occurrence) : Prop :=
  ∃ i path, x.node.place = outer.node.place ++ i :: path

/-- The occurrences of the symbols whose kind is among `kinds`, in pre-order. -/
def ofKinds (kinds : List SymbolKind) (forest : List Symbol) : List Occurrence :=
  (all forest).filter fun x ↦ kinds.contains x.node.symbol.kind

variable {around around' : List Symbol} {place place' : Place} {i : Nat} {x y : Occurrence}

theorem IsInside.length_lt (h : x.IsInside y) : y.node.place.length < x.node.place.length := by
  obtain ⟨j, path, hplace⟩ := h
  simp [hplace]

theorem IsInside.asymm (h : x.IsInside y) : ¬ y.IsInside x := fun hother ↦
  Nat.lt_asymm h.length_lt hother.length_lt

theorem not_isInside_self (x : Occurrence) : ¬ x.IsInside x := fun h ↦ h.asymm h

theorem inForest_append (around : List Symbol) (place : Place) (i : Nat) (left right : List Symbol) :
    inForest around place i (left ++ right) =
      inForest around place i left ++ inForest around place (i + left.length) right := by
  induction left generalizing i with
  | nil => rw [inForest_nil, List.nil_append, List.nil_append, List.length_nil, Nat.add_zero]
  | cons s left ih =>
    have hindex : i + 1 + left.length = i + (s :: left).length := by
      rw [List.length_cons]
      omega
    rw [List.cons_append, inForest_cons, inForest_cons, ih, hindex, List.cons_append,
      List.append_assoc]

theorem inForest_singleton (around : List Symbol) (place : Place) (i : Nat) (s : Symbol) :
    inForest around place i [s] =
      ⟨⟨place ++ [i], s⟩, around⟩ :: inForest (s :: around) (place ++ [i]) 0 s.children := by
  rw [inForest_cons, inForest_nil, List.append_nil]

theorem isInside_of_mem_children {s : Symbol}
    (hx : x ∈ inForest (s :: around) (place ++ [i]) 0 s.children) :
    x.IsInside ⟨⟨place ++ [i], s⟩, around⟩ := by
  obtain ⟨j, path, -, hplace⟩ := exists_place_of_mem hx
  exact ⟨j, path, hplace⟩

/-- What is below different roots is not inside each other. -/
theorem not_isInside_of_mem {left right : List Symbol} (hx : x ∈ inForest around place i left)
    (hy : y ∈ inForest around' place (i + left.length) right) : ¬ x.IsInside y ∧ ¬ y.IsInside x := by
  obtain ⟨j, path, ⟨-, hj⟩, hplace⟩ := exists_place_of_mem hx
  obtain ⟨k, path', ⟨hk, -⟩, hplace'⟩ := exists_place_of_mem hy
  constructor
  · rintro ⟨l, more, h⟩
    rw [hplace, hplace', List.append_assoc, List.append_cancel_left_eq, List.cons_append,
      List.cons.injEq] at h
    omega
  · rintro ⟨l, more, h⟩
    rw [hplace, hplace', List.append_assoc, List.append_cancel_left_eq, List.cons_append,
      List.cons.injEq] at h
    omega

/-! ## Lists of occurrences side by side -/

/-- Occurrences are inside each other on the left where they are on the right. -/
def Parallel (pairs : List (Occurrence × Occurrence)) : Prop :=
  ∀ p ∈ pairs, ∀ q ∈ pairs, p.1.IsInside q.1 ↔ p.2.IsInside q.2

theorem Parallel.cons {pairs : List (Occurrence × Occurrence)} (h : Parallel pairs)
    (hinside : ∀ p ∈ pairs, p.1.IsInside x ∧ p.2.IsInside y) : Parallel ((x, y) :: pairs) := by
  intro p hp q hq
  obtain rfl | hp := List.mem_cons.1 hp
  · obtain rfl | hq := List.mem_cons.1 hq
    · exact iff_of_false (not_isInside_self x) (not_isInside_self y)
    · obtain ⟨hleft, hright⟩ := hinside q hq
      exact iff_of_false hleft.asymm hright.asymm
  · obtain rfl | hq := List.mem_cons.1 hq
    · obtain ⟨hleft, hright⟩ := hinside p hp
      exact iff_of_true hleft hright
    · exact h p hp q hq

theorem Parallel.append {pairs more : List (Occurrence × Occurrence)} (h : Parallel pairs)
    (hmore : Parallel more) (hleft : ∀ p ∈ pairs, ∀ q ∈ more, ¬ p.1.IsInside q.1 ∧ ¬ q.1.IsInside p.1)
    (hright : ∀ p ∈ pairs, ∀ q ∈ more, ¬ p.2.IsInside q.2 ∧ ¬ q.2.IsInside p.2) :
    Parallel (pairs ++ more) := by
  intro p hp q hq
  obtain hp | hp := List.mem_append.1 hp
  · obtain hq | hq := List.mem_append.1 hq
    · exact h p hp q hq
    · exact iff_of_false (hleft p hp q hq).1 (hright p hp q hq).1
  · obtain hq | hq := List.mem_append.1 hq
    · exact iff_of_false (hleft q hq p hp).2 (hright q hq p hp).2
    · exact hmore p hp q hq

end Occurrence

namespace Symbol

open Occurrence

/-! ## The filtered forest -/

@[simp]
theorem filterKinds_nil (kinds : List SymbolKind) : filterKinds kinds [] = [] := by rw [filterKinds]

theorem filterKinds_cons (kinds : List SymbolKind) (s : Symbol) (rest : List Symbol) :
    filterKinds kinds (s :: rest) =
      (if kinds.contains s.kind then [{ s with children := filterKinds kinds s.children }]
        else filterKinds kinds s.children) ++ filterKinds kinds rest := by
  obtain ⟨entry, children⟩ := s
  rw [filterKinds, keepKinds]

theorem filterKinds_singleton (kinds : List SymbolKind) (s : Symbol) :
    filterKinds kinds [s] =
      if kinds.contains s.kind then [{ s with children := filterKinds kinds s.children }]
      else filterKinds kinds s.children := by
  rw [filterKinds_cons, filterKinds_nil, List.append_nil]

theorem filterKinds_append (kinds : List SymbolKind) (left right : List Symbol) :
    filterKinds kinds (left ++ right) = filterKinds kinds left ++ filterKinds kinds right := by
  induction left with
  | nil => rw [filterKinds_nil, List.nil_append, List.nil_append]
  | cons s left ih =>
    rw [List.cons_append, filterKinds_cons, filterKinds_cons, ih, List.append_assoc]

/-- The kept symbols come out in pre-order. -/
theorem map_entry_flatten_filterKinds (kinds : List SymbolKind) (forest : List Symbol) :
    (flatten (filterKinds kinds forest)).map (·.toEntry) =
      ((flatten forest).map (·.toEntry)).filter fun e ↦ kinds.contains e.kind := by
  induction forest using forest_induction with
  | nil => rw [filterKinds_nil, flatten_nil, List.map_nil, List.filter_nil]
  | cons s rest ihchildren ihrest =>
    rw [filterKinds_cons, flatten_append, flatten_cons, List.map_append, List.map_append,
      List.filter_append, ihrest, List.map_cons, List.filter_cons, ← ihchildren]
    congr 1
    split
    · rw [flatten_cons, flatten_nil, List.append_nil, List.map_cons]
    · rfl

/-- Filtering twice keeps the kinds that are wanted both times. -/
theorem filterKinds_filterKinds (kinds other : List SymbolKind) (forest : List Symbol) :
    filterKinds other (filterKinds kinds forest) = filterKinds (kinds ∩ other) forest := by
  induction forest using forest_induction with
  | nil => rw [filterKinds_nil, filterKinds_nil, filterKinds_nil]
  | cons s rest ihchildren ihrest =>
    have hboth : (kinds ∩ other).contains s.kind =
        (kinds.contains s.kind && other.contains s.kind) := by simp
    rw [filterKinds_cons, filterKinds_append, ihrest, filterKinds_cons (kinds ∩ other), hboth]
    congr 1
    cases kinds.contains s.kind with
    | false => rw [if_neg Bool.false_ne_true, Bool.false_and, if_neg Bool.false_ne_true, ihchildren]
    | true => rw [if_pos rfl, filterKinds_singleton, Bool.true_and, ihchildren]

/-- The occurrences of the kept symbols are, in their order, those of the filtered forest. -/
theorem map_entry_inForest_filterKinds (kinds : List SymbolKind)
    (forest around around' : List Symbol) (place place' : Place) (i i' : Nat) :
    ((inForest around place i forest).filter fun x ↦ kinds.contains x.node.symbol.kind).map
        (·.node.symbol.toEntry) =
      (inForest around' place' i' (filterKinds kinds forest)).map (·.node.symbol.toEntry) := by
  have hentries := map_entry_flatten_filterKinds kinds forest
  rw [← map_symbol_inForest around' place' i', ← map_symbol_inForest around place i, List.map_map,
    List.map_map, List.filter_map] at hentries
  exact hentries.symm

/-- The kept symbols are inside each other as before, wherever the forest and what is left of it
stand. -/
theorem parallel_filterKinds (kinds : List SymbolKind) (forest around around' : List Symbol)
    (place place' : Place) (i i' : Nat) :
    Parallel (((inForest around place i forest).filter fun x ↦ kinds.contains x.node.symbol.kind).zip
      (inForest around' place' i' (filterKinds kinds forest))) := by
  induction forest using forest_induction generalizing around around' place place' i i' with
  | nil =>
    rw [inForest_nil, List.filter_nil, List.zip_nil_left]
    intro p hp
    exact absurd hp List.not_mem_nil
  | cons s rest ihchildren ihrest =>
    -- the first symbol with what is inside it, alone
    have hfirst : Parallel
        (((inForest around place i [s]).filter fun x ↦ kinds.contains x.node.symbol.kind).zip
          (inForest around' place' i' (filterKinds kinds [s]))) := by
      rw [filterKinds_singleton, inForest_singleton, List.filter_cons]
      split
      · rw [inForest_singleton, List.zip_cons_cons]
        refine (ihchildren _ _ _ _ _ _).cons fun p hp ↦ ?_
        obtain ⟨hsource, hresult⟩ := List.of_mem_zip hp
        exact ⟨isInside_of_mem_children (List.mem_of_mem_filter hsource),
          isInside_of_mem_children hresult⟩
      · exact ihchildren _ _ _ _ _ _
    have hlength := congrArg List.length
      (map_entry_inForest_filterKinds kinds [s] around around' place place' i i')
    rw [List.length_map, List.length_map] at hlength
    rw [← List.singleton_append, inForest_append, List.filter_append, filterKinds_append,
      inForest_append, List.zip_append hlength]
    refine hfirst.append (ihrest _ _ _ _ _ _) (fun p hp q hq ↦ ?_) (fun p hp q hq ↦ ?_)
    · exact not_isInside_of_mem (List.mem_of_mem_filter (List.of_mem_zip hp).1)
        (List.mem_of_mem_filter (List.of_mem_zip hq).1)
    · exact not_isInside_of_mem (List.of_mem_zip hp).2 (List.of_mem_zip hq).2

/-- Filtering by kinds keeps exactly the symbols of these kinds, in pre-order. Their occurrences before
and after, side by side, are of the same symbols and are inside each other alike. Filtering once more
keeps the kinds that are wanted both times. -/
theorem filterKinds_keeps (kinds other : List SymbolKind) (forest : List Symbol) :
    (flatten (filterKinds kinds forest)).map (·.toEntry) =
        ((flatten forest).map (·.toEntry)).filter (fun e ↦ kinds.contains e.kind) ∧
      (let before := ofKinds kinds forest
        let after := all (filterKinds kinds forest)
        before.map (·.node.symbol.toEntry) = after.map (·.node.symbol.toEntry) ∧
          ∀ p ∈ before.zip after, ∀ q ∈ before.zip after, p.1.IsInside q.1 ↔ p.2.IsInside q.2) ∧
      filterKinds other (filterKinds kinds forest) = filterKinds (kinds ∩ other) forest :=
  ⟨map_entry_flatten_filterKinds kinds forest,
    ⟨map_entry_inForest_filterKinds kinds forest [] [] [] [] 0 0,
      parallel_filterKinds kinds forest [] [] [] [] 0 0⟩,
    filterKinds_filterKinds kinds other forest⟩

/-- A method in a region in a method is inside it as before, and its twin beside the region is not. -/
theorem filterKinds_keeps_twins :
    let symbol (kind : SymbolKind) (children : List Symbol) : Symbol :=
      ⟨⟨"m".toList, kind, [], .onLine 0 0 1, .onLine 0 0 1⟩, children⟩
    let forest := [symbol .classType [symbol .container [symbol .method
      [symbol .container [symbol .method []]]], symbol .method []]]
    let pairs := (ofKinds [.method] forest).zip (all (filterKinds [.method] forest))
    ∃ h : pairs.length = 3, pairs[1].2.IsInside pairs[0].2 ∧ ¬ pairs[2].2.IsInside pairs[0].2 := by
  intro symbol forest pairs
  have hlength : pairs.length = 3 := rfl
  have hpairs := (filterKinds_keeps [.method] [] forest).2.1.2
  have hinside : pairs[1].1.IsInside pairs[0].1 := ⟨0, [0], rfl⟩
  have hbeside : ¬ pairs[2].1.IsInside pairs[0].1 := fun h ↦ absurd h.length_lt (by decide)
  refine ⟨hlength, ?_, fun h ↦ hbeside ?_⟩
  · exact (hpairs _ (List.getElem_mem _) _ (List.getElem_mem _)).1 hinside
  · exact (hpairs _ (List.getElem_mem _) _ (List.getElem_mem _)).2 h

end Symbol

end VbOutline
