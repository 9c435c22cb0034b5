import VbOutline.Proofs.Outline.Steps
import VbOutline.Proofs.Symbol.Members
import VbOutline.Scope

/-!
# Forests without regions

A region is a container in the forest of symbols. Replacing each region by what is inside it gives
the forest without regions. The other symbols stay in their order, each with its own regions gone.
The members of a type and the top-level definitions are the same as before, because both are found by
looking through containers.
-/

namespace VbOutline

open Text

/-- Whether the entry is a region. -/
def Entry.isRegion (e : Entry) : Bool :=
  e.kind == .container && e.detail == Block.region.keyword.toList

theorem Entry.kind_of_isRegion (e : Entry) (h : e.isRegion) : e.kind = .container := by
  rw [isRegion, Bool.and_eq_true, beq_iff_eq] at h
  exact h.1

namespace Symbol

mutual

/-- The symbol without the regions inside it; of a region, what is inside it. -/
def dissolve : Symbol → List Symbol
  | ⟨entry, children⟩ =>
    if entry.isRegion then withoutRegions children else [⟨entry, withoutRegions children⟩]

/-- The forest with each region replaced by what is inside it. -/
def withoutRegions : List Symbol → List Symbol
  | [] => []
  | s :: rest => dissolve s ++ withoutRegions rest

end

/-- The symbol with the regions inside it replaced by what is inside them. -/
def cleared (s : Symbol) : Symbol := { s with children := withoutRegions s.children }

@[simp]
theorem toEntry_cleared (s : Symbol) : s.cleared.toEntry = s.toEntry := rfl

@[simp]
theorem withoutRegions_nil : withoutRegions [] = [] := by rw [withoutRegions]

theorem withoutRegions_cons (s : Symbol) (rest : List Symbol) :
    withoutRegions (s :: rest) =
      (if s.isRegion then withoutRegions s.children else [s.cleared]) ++ withoutRegions rest := by
  obtain ⟨entry, children⟩ := s
  rw [withoutRegions, dissolve]
  rfl

theorem withoutRegions_append (left right : List Symbol) :
    withoutRegions (left ++ right) = withoutRegions left ++ withoutRegions right := by
  induction left with
  | nil => rw [withoutRegions_nil, List.nil_append, List.nil_append]
  | cons s left ih =>
    rw [List.cons_append, withoutRegions_cons, withoutRegions_cons, ih, List.append_assoc]

theorem withoutRegions_singleton (s : Symbol) :
    withoutRegions [s] = if s.isRegion then withoutRegions s.children else [s.cleared] := by
  rw [withoutRegions_cons, withoutRegions_nil, List.append_nil]

/-- Induction over forests: over what is inside the first symbol, and over the others. -/
theorem forest_induction {motive : List Symbol → Prop} (nil : motive [])
    (cons : ∀ s rest, motive s.children → motive rest → motive (s :: rest)) :
    ∀ forest, motive forest
  | [] => nil
  | ⟨entry, children⟩ :: rest =>
    cons ⟨entry, children⟩ rest (forest_induction nil cons children) (forest_induction nil cons rest)

theorem mem_flatten_trans {s x : Symbol} {forest : List Symbol} (hs : s ∈ flatten forest)
    (hx : x ∈ flatten s.children) : x ∈ flatten forest := by
  induction forest using forest_induction with
  | nil => rw [flatten_nil] at hs; exact absurd hs List.not_mem_nil
  | cons t rest ihchildren ihrest =>
    rw [flatten_cons, List.mem_append, List.mem_cons] at hs ⊢
    obtain (rfl | hs) | hs := hs
    · exact .inl (.inr hx)
    · exact .inl (.inr (ihchildren hs))
    · exact .inr (ihrest hs)

theorem withoutRegions_eq_self {forest : List Symbol} (h : ∀ s ∈ flatten forest, s.isRegion = false) :
    withoutRegions forest = forest := by
  induction forest using forest_induction with
  | nil => exact withoutRegions_nil
  | cons s rest ihchildren ihrest =>
    rw [flatten_cons, List.forall_mem_append, List.forall_mem_cons] at h
    obtain ⟨⟨hs, hchildren⟩, hrest⟩ := h
    rw [withoutRegions_cons, hs, if_neg Bool.false_ne_true, ihrest hrest, cleared,
      ihchildren hchildren]
    obtain ⟨entry, children⟩ := s
    rfl

/-- The forest without regions holds the other symbols in their order. -/
theorem flatten_withoutRegions (forest : List Symbol) :
    flatten (withoutRegions forest) =
      ((flatten forest).filter fun s ↦ !s.isRegion).map cleared := by
  induction forest using forest_induction with
  | nil => rw [withoutRegions_nil, flatten_nil, List.filter_nil, List.map_nil]
  | cons s rest ihchildren ihrest =>
    rw [withoutRegions_cons, flatten_append, flatten_cons, List.filter_append, List.map_append, ihrest]
    congr 1
    cases hs : s.isRegion with
    | true => rw [if_pos rfl, ihchildren, List.filter_cons_of_neg (by simp [hs])]
    | false =>
      rw [if_neg Bool.false_ne_true, flatten_cons, flatten_nil, List.append_nil,
        List.filter_cons_of_pos (by simp [hs]), List.map_cons, ← ihchildren]
      rfl

/-- What is inside the regions among the given symbols, and inside regions there. -/
def inRegions (symbols : List Symbol) : List Symbol :=
  (symbols.filter fun s ↦ s.isRegion).flatMap fun s ↦ withoutRegions s.children

section

variable {p : Entry → Bool} (hregion : ∀ e : Entry, e.isRegion → p e = false)

include hregion

theorem filter_flatten_withoutRegions (forest : List Symbol) :
    (flatten (withoutRegions forest)).filter (fun s ↦ p s.toEntry) =
      ((flatten forest).filter fun s ↦ p s.toEntry).map cleared := by
  rw [flatten_withoutRegions, List.filter_map, List.filter_filter]
  congr 1
  apply List.filter_congr
  intro s _
  cases hs : s.isRegion with
  | true => simp [hregion s.toEntry hs]
  | false => simp

/-- A selection among the symbols that takes nothing from inside regions. -/
theorem filter_withoutRegions {symbols : List Symbol}
    (hinside : ∀ s ∈ inRegions symbols, p s.toEntry = false) :
    (withoutRegions symbols).filter (fun s ↦ p s.toEntry) =
      (symbols.filter fun s ↦ p s.toEntry).map cleared := by
  induction symbols with
  | nil => rw [withoutRegions_nil]; rfl
  | cons s symbols ih =>
    rw [withoutRegions_cons, List.filter_append]
    cases hs : s.isRegion with
    | true =>
      rw [inRegions, List.filter_cons_of_pos (by simp [hs]), List.flatMap_cons,
        List.forall_mem_append] at hinside
      have hnone : (withoutRegions s.children).filter (fun s ↦ p s.toEntry) = [] := by
        rw [List.filter_eq_nil_iff]
        intro c hc
        simp [hinside.1 c hc]
      rw [if_pos rfl, hnone, List.nil_append, ih hinside.2,
        List.filter_cons_of_neg (by simp [hregion s.toEntry hs])]
    | false =>
      rw [inRegions, List.filter_cons_of_neg (by simp [hs])] at hinside
      rw [if_neg Bool.false_ne_true, ih hinside]
      cases hp : p s.toEntry with
      | true => simp [hp]
      | false => simp [hp]

end

theorem isContainer_of_isRegion {e : Entry} (h : e.isRegion) : e.kind.isContainer := by
  rw [e.kind_of_isRegion h]
  rfl

theorem seenIn_withoutRegions (forest : List Symbol) :
    seenIn (withoutRegions forest) = (seenIn forest).map cleared := by
  induction forest using forest_induction with
  | nil => rw [withoutRegions_nil, seenIn_nil, List.map_nil]
  | cons s rest ihchildren ihrest =>
    rw [withoutRegions_cons, seenIn_append, seenIn_cons, List.map_append, ihrest]
    congr 1
    cases hs : s.isRegion with
    | true => rw [if_pos rfl, ihchildren, if_pos (isContainer_of_isRegion hs)]
    | false =>
      rw [if_neg Bool.false_ne_true, seenIn_cons, seenIn_nil, List.append_nil, toEntry_cleared]
      split
      · exact ihchildren
      · rfl

/-- The members of a type are found inside regions too. -/
theorem members_cleared (s : Symbol) : s.cleared.members = s.members.map cleared := by
  rw [members_eq_seenIn, members_eq_seenIn]
  exact seenIn_withoutRegions s.children

end Symbol

namespace Scope

open VbOutline.Symbol

/-- The definitions are the same at whatever places they stand. -/
theorem map_symbol_definitionsIn (place place' : Place) (i i' : Nat) (forest : List Symbol) :
    (definitionsIn place i forest).map (·.symbol) =
      (definitionsIn place' i' forest).map (·.symbol) := by
  induction forest using forest_induction generalizing place place' i i' with
  | nil => rw [definitionsIn, definitionsIn]
  | cons s rest ihchildren ihrest =>
    obtain ⟨entry, children⟩ := s
    rw [definitionsIn, definitionsIn, definitionsAt, definitionsAt, List.map_append, List.map_append,
      ihrest place place' (i + 1) (i' + 1)]
    congr 1
    split
    · exact ihchildren _ _ 0 0
    · split <;> rfl

@[simp]
theorem topLevelSymbols_nil : topLevelSymbols [] = [] := by
  rw [topLevelSymbols, topLevel, definitionsIn]
  rfl

theorem topLevelSymbols_cons (s : Symbol) (rest : List Symbol) :
    topLevelSymbols (s :: rest) =
      (if s.kind.isContainer then topLevelSymbols s.children
        else if s.isDefinition then [s] else []) ++ topLevelSymbols rest := by
  obtain ⟨entry, children⟩ := s
  rw [topLevelSymbols, topLevel, definitionsIn, definitionsAt, List.map_append,
    map_symbol_definitionsIn [] [] (0 + 1) 0]
  congr 1
  split
  · exact map_symbol_definitionsIn _ _ 0 0 children
  · split <;> rfl

/-- The top-level definitions of a forest are symbols of it. -/
theorem mem_topLevelSymbols {s : Symbol} {forest : List Symbol} (h : s ∈ topLevelSymbols forest) :
    s ∈ flatten forest ∧ s.isDefinition := by
  induction forest using forest_induction with
  | nil => rw [topLevelSymbols_nil] at h; exact absurd h List.not_mem_nil
  | cons t rest ihchildren ihrest =>
    rw [topLevelSymbols_cons, List.mem_append] at h
    rw [flatten_cons, List.mem_append, List.mem_cons]
    obtain h | h := h
    · split at h
      · obtain ⟨hs, hdefinition⟩ := ihchildren h
        exact ⟨.inl (.inr hs), hdefinition⟩
      · split at h
        · next hdefinition =>
          obtain rfl := List.mem_singleton.1 h
          exact ⟨.inl (.inl rfl), hdefinition⟩
        · cases h
    · obtain ⟨hs, hdefinition⟩ := ihrest h
      exact ⟨.inr hs, hdefinition⟩

theorem topLevelSymbols_append (left right : List Symbol) :
    topLevelSymbols (left ++ right) = topLevelSymbols left ++ topLevelSymbols right := by
  induction left with
  | nil => rw [topLevelSymbols_nil, List.nil_append, List.nil_append]
  | cons s left ih =>
    rw [List.cons_append, topLevelSymbols_cons, topLevelSymbols_cons, ih, List.append_assoc]

/-- Regions do not hide top-level definitions. -/
theorem topLevelSymbols_withoutRegions (forest : List Symbol) :
    topLevelSymbols (withoutRegions forest) = (topLevelSymbols forest).map cleared := by
  induction forest using forest_induction with
  | nil => rw [withoutRegions_nil, topLevelSymbols_nil, List.map_nil]
  | cons s rest ihchildren ihrest =>
    rw [withoutRegions_cons, topLevelSymbols_append, topLevelSymbols_cons, List.map_append, ihrest]
    congr 1
    cases hs : s.isRegion with
    | true => rw [if_pos rfl, ihchildren, if_pos (isContainer_of_isRegion hs)]
    | false =>
      rw [if_neg Bool.false_ne_true, topLevelSymbols_cons, topLevelSymbols_nil, List.append_nil,
        toEntry_cleared]
      split
      · exact ihchildren
      · split <;> rfl

end Scope

end VbOutline
