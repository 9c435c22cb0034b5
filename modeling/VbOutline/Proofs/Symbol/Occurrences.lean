import VbOutline.Proofs.Symbol.Regions

/-!
# Occurrences of symbols

An occurrence is a node of a forest together with the symbols around it. The occurrences of a forest
in pre-order have different places, even where their symbols are equal, and at each of these places the
forest has the symbol of the occurrence.

The owner of an occurrence is the innermost symbol around it that is no region: what is declared
inside a region belongs to what is around the region.
-/

namespace VbOutline

/-- A node and the symbols around it, the innermost one first. -/
structure Occurrence where
  node : Node
  around : List Symbol
  deriving Repr

namespace Occurrence

/-- The innermost symbol around that is no region. -/
def owner? (x : Occurrence) : Option Symbol := x.around.find? fun s ↦ !s.isRegion

mutual

/-- The occurrences of a symbol at `place` and of those inside it. -/
def inSymbol (around : List Symbol) (place : Place) : Symbol → List Occurrence
  | ⟨entry, children⟩ =>
    ⟨⟨place, ⟨entry, children⟩⟩, around⟩ :: inForest (⟨entry, children⟩ :: around) place 0 children

/-- The occurrences in the forest below `place`, the first symbol having index `i`. -/
def inForest (around : List Symbol) (place : Place) (i : Nat) : List Symbol → List Occurrence
  | [] => []
  | s :: rest => inSymbol around (place ++ [i]) s ++ inForest around place (i + 1) rest

end

/-- The occurrences of a forest in pre-order. -/
def all (forest : List Symbol) : List Occurrence := inForest [] [] 0 forest

@[simp]
theorem inForest_nil (around : List Symbol) (place : Place) (i : Nat) :
    inForest around place i [] = [] := by
  rw [inForest]

theorem inForest_cons (around : List Symbol) (place : Place) (i : Nat) (s : Symbol)
    (rest : List Symbol) :
    inForest around place i (s :: rest) =
      ⟨⟨place ++ [i], s⟩, around⟩ ::
        (inForest (s :: around) (place ++ [i]) 0 s.children ++ inForest around place (i + 1) rest) := by
  obtain ⟨entry, children⟩ := s
  rw [inForest, inSymbol, List.cons_append]

theorem mem_inForest_cons {around : List Symbol} {place : Place} {i : Nat} {s : Symbol}
    {rest : List Symbol} {x : Occurrence} :
    x ∈ inForest around place i (s :: rest) ↔
      x = ⟨⟨place ++ [i], s⟩, around⟩ ∨ x ∈ inForest (s :: around) (place ++ [i]) 0 s.children ∨
        x ∈ inForest around place (i + 1) rest := by
  rw [inForest_cons, List.mem_cons, List.mem_append]

/-- The occurrences are those of all symbols in pre-order. -/
theorem map_symbol_inForest (around : List Symbol) (place : Place) (i : Nat) (forest : List Symbol) :
    (inForest around place i forest).map (·.node.symbol) = Symbol.flatten forest := by
  induction forest using Symbol.forest_induction generalizing around place i with
  | nil => rw [inForest_nil, Symbol.flatten_nil, List.map_nil]
  | cons s rest ihchildren ihrest =>
    rw [inForest_cons, List.map_cons, List.map_append, ihchildren, ihrest, Symbol.flatten_cons,
      List.cons_append]

/-- The occurrences in the forest below a place have places that go on from it with the index of one
of the forest's symbols. -/
theorem exists_place_of_mem {around : List Symbol} {place : Place} {i : Nat} {forest : List Symbol}
    {x : Occurrence} (h : x ∈ inForest around place i forest) :
    ∃ j path, (i ≤ j ∧ j < i + forest.length) ∧ x.node.place = place ++ j :: path := by
  induction forest using Symbol.forest_induction generalizing around place i with
  | nil => rw [inForest_nil] at h; exact absurd h List.not_mem_nil
  | cons s rest ihchildren ihrest =>
    rw [List.length_cons]
    obtain rfl | h | h := mem_inForest_cons.1 h
    · exact ⟨i, [], by omega, rfl⟩
    · obtain ⟨j, path, -, hplace⟩ := ihchildren h
      exact ⟨i, j :: path, by omega, by rw [hplace, List.append_assoc]; rfl⟩
    · obtain ⟨j, path, hj, hplace⟩ := ihrest h
      exact ⟨j, path, by omega, hplace⟩

/-- No two occurrences have the same place. -/
theorem nodup_place (around : List Symbol) (place : Place) (i : Nat) (forest : List Symbol) :
    ((inForest around place i forest).map (·.node.place)).Nodup := by
  induction forest using Symbol.forest_induction generalizing around place i with
  | nil => rw [inForest_nil]; exact List.nodup_nil
  | cons s rest ihchildren ihrest =>
    rw [inForest_cons, List.map_cons, List.map_append, List.nodup_cons, List.nodup_append]
    refine ⟨?_, ihchildren _ _ _, ihrest _ _ _, ?_⟩
    · intro hmem
      obtain hmem | hmem := List.mem_append.1 hmem
      · obtain ⟨x, hx, hplace⟩ := List.mem_map.1 hmem
        obtain ⟨j, path, -, hx⟩ := exists_place_of_mem hx
        simp [hx] at hplace
      · obtain ⟨x, hx, hplace⟩ := List.mem_map.1 hmem
        obtain ⟨j, path, hj, hx⟩ := exists_place_of_mem hx
        rw [hx, List.append_cancel_left_eq, List.cons.injEq] at hplace
        omega
    · intro a ha b hb heq
      obtain ⟨x, hx, rfl⟩ := List.mem_map.1 ha
      obtain ⟨y, hy, rfl⟩ := List.mem_map.1 hb
      obtain ⟨j, path, -, hx⟩ := exists_place_of_mem hx
      obtain ⟨k, path', hk, hy⟩ := exists_place_of_mem hy
      rw [hx, hy, List.append_assoc, List.append_cancel_left_eq, List.singleton_append,
        List.cons.injEq] at heq
      omega

end Occurrence

namespace Node

open Occurrence

variable {around : List Symbol} {place : Place} {i : Nat} {forest : List Symbol}

theorem find?_cons_succ (s : Symbol) (rest : List Symbol) (k : Nat) (path : Place) :
    find? (s :: rest) ((k + 1) :: path) = find? rest (k :: path) := by
  cases path <;> rfl

theorem exists_find?_of_mem {x : Occurrence} (h : x ∈ inForest around place i forest) :
    ∃ k path, x.node.place = place ++ (i + k) :: path ∧
      find? forest (k :: path) = some x.node.symbol := by
  induction forest using Symbol.forest_induction generalizing around place i with
  | nil => rw [inForest_nil] at h; exact absurd h List.not_mem_nil
  | cons s rest ihchildren ihrest =>
    obtain rfl | h | h := mem_inForest_cons.1 h
    · exact ⟨0, [], rfl, rfl⟩
    · obtain ⟨k, path, hplace, hfind⟩ := ihchildren h
      refine ⟨0, k :: path, ?_, hfind⟩
      rw [hplace, List.append_assoc, Nat.zero_add, Nat.add_zero, List.singleton_append]
    · obtain ⟨k, path, hplace, hfind⟩ := ihrest h
      refine ⟨k + 1, path, ?_, (find?_cons_succ s rest k path).trans hfind⟩
      rw [hplace, Nat.add_right_comm, Nat.add_assoc]

theorem exists_mem_of_find? (around : List Symbol) (place : Place) (i : Nat) {k : Nat} {path : Place}
    {s : Symbol} (h : find? forest (k :: path) = some s) :
    ∃ x ∈ inForest around place i forest, x.node = ⟨place ++ (i + k) :: path, s⟩ := by
  induction forest using Symbol.forest_induction generalizing around place i k path with
  | nil => cases path <;> cases h
  | cons t rest ihchildren ihrest =>
    cases k with
    | zero =>
      cases path with
      | nil =>
        obtain rfl : t = s := Option.some.inj h
        exact ⟨⟨⟨place ++ [i], t⟩, around⟩, mem_inForest_cons.2 (.inl rfl), rfl⟩
      | cons j path =>
        obtain ⟨x, hx, hnode⟩ := ihchildren (t :: around) (place ++ [i]) 0 h
        refine ⟨x, mem_inForest_cons.2 (.inr (.inl hx)), ?_⟩
        rw [hnode, List.append_assoc, Nat.zero_add, List.singleton_append, Nat.add_zero]
    | succ k =>
      rw [find?_cons_succ] at h
      obtain ⟨x, hx, hnode⟩ := ihrest around place (i + 1) h
      refine ⟨x, mem_inForest_cons.2 (.inr (.inr hx)), ?_⟩
      rw [hnode, Nat.add_right_comm, Nat.add_assoc]

/-- The symbols at the places of a forest are those of its occurrences. -/
theorem find?_eq_some_iff {s : Symbol} :
    find? forest place = some s ↔ ∃ x ∈ Occurrence.all forest, x.node = ⟨place, s⟩ := by
  constructor
  · intro h
    cases place with
    | nil => cases h
    | cons k path =>
      obtain ⟨x, hx, hnode⟩ := exists_mem_of_find? [] [] 0 h
      exact ⟨x, hx, by rw [hnode, Nat.zero_add, List.nil_append]⟩
  · rintro ⟨x, hx, hnode⟩
    obtain ⟨k, path, hplace, hfind⟩ := exists_find?_of_mem hx
    rw [hnode, List.nil_append, Nat.zero_add] at hplace
    rw [show place = k :: path from hplace, hfind, hnode]

end Node

end VbOutline
