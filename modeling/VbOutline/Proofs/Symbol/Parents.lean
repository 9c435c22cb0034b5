import VbOutline.Proofs.Symbol.Occurrences

/-!
# Parents by identity

The parent of a target is the node that has the target itself among its children. A symbol that is
only equal to the target does not count, be it another node or one that is kept elsewhere. What tells
symbols apart is the address at which each of them is kept, and the search for a place is the search
for the address of the node there: it comes to the node around the place and to no other.
-/

namespace VbOutline.Node

open Occurrence

/-! ## The search -/

mutual

/-- The node at `place` or below it that has a target among its children, found depth first. -/
def holderAt (isTarget : Place → Bool) (place : Place) : Symbol → Option Node
  | ⟨entry, inner⟩ =>
    if (level place inner).any fun child ↦ isTarget child.place then some ⟨place, ⟨entry, inner⟩⟩
    else holderIn isTarget place 0 inner

def holderIn (isTarget : Place → Bool) (place : Place) (i : Nat) : List Symbol → Option Node
  | [] => none
  | s :: rest => (holderAt isTarget (place ++ [i]) s).or (holderIn isTarget place (i + 1) rest)

end

variable {isTarget : Place → Bool} {around : List Symbol} {place : Place} {i : Nat}
  {forest : List Symbol}

theorem holderIn_cons (isTarget : Place → Bool) (place : Place) (i : Nat) (s : Symbol)
    (rest : List Symbol) :
    holderIn isTarget place i (s :: rest) =
      (if (level (place ++ [i]) s.children).any fun child ↦ isTarget child.place then
          some ⟨place ++ [i], s⟩
        else holderIn isTarget (place ++ [i]) 0 s.children).or
        (holderIn isTarget place (i + 1) rest) := by
  obtain ⟨entry, children⟩ := s
  rw [holderIn, holderAt]

/-- The parent of a place is the symbol of the node that has the place among its children. -/
theorem parentIn_eq_holderIn (target place : Place) (i : Nat) (forest : List Symbol) :
    parentIn target place i forest =
      (holderIn (· == target) place i forest).map (·.symbol) := by
  induction forest using Symbol.forest_induction generalizing place i with
  | nil => rw [parentIn, holderIn, Option.map_none]
  | cons s rest ihchildren ihrest =>
    obtain ⟨entry, children⟩ := s
    rw [parentIn, parentAt, holderIn_cons, ihchildren, ihrest, Option.map_or]
    congr 1
    split <;> rfl

theorem mem_levelFrom {symbols : List Symbol} {n : Node} (h : n ∈ levelFrom place i symbols) :
    ∃ j, i ≤ j ∧ n.place = place ++ [j] := by
  induction symbols generalizing i with
  | nil => exact absurd h List.not_mem_nil
  | cons s rest ih =>
    obtain rfl | h := List.mem_cons.1 h
    · exact ⟨i, Nat.le_refl i, rfl⟩
    · obtain ⟨j, hj, hplace⟩ := ih h
      exact ⟨j, Nat.le_of_succ_le hj, hplace⟩

theorem exists_mem_of_mem_levelFrom {n : Node} (h : n ∈ levelFrom place i forest) :
    ∃ x ∈ inForest around place i forest, x.node = n := by
  induction forest generalizing i with
  | nil => exact absurd h List.not_mem_nil
  | cons s rest ih =>
    obtain rfl | h := List.mem_cons.1 h
    · exact ⟨⟨⟨place ++ [i], s⟩, around⟩, mem_inForest_cons.2 (.inl rfl), rfl⟩
    · obtain ⟨x, hx, hnode⟩ := ih h
      exact ⟨x, mem_inForest_cons.2 (.inr (.inr hx)), hnode⟩

theorem any_level_eq_false (isTarget : Place → Bool) (symbols : List Symbol)
    (h : ∀ k, isTarget (place ++ [k]) = false) :
    (level place symbols).any (fun child ↦ isTarget child.place) = false := by
  rw [List.any_eq_false]
  intro child hchild
  obtain ⟨k, -, hplace⟩ := mem_levelFrom hchild
  rw [hplace, h k]
  exact Bool.false_ne_true

/-- Only targets that are at least two steps below `place` are held in the forest below it. -/
theorem holderIn_eq_none (h : ∀ j k path, i ≤ j → isTarget (place ++ j :: k :: path) = false) :
    holderIn isTarget place i forest = none := by
  induction forest using Symbol.forest_induction generalizing place i with
  | nil => rw [holderIn]
  | cons s rest ihchildren ihrest =>
    have hbelow (k : Nat) (path : Place) : isTarget (place ++ [i] ++ k :: path) = false := by
      rw [List.append_assoc, List.singleton_append]
      exact h i k path (Nat.le_refl i)
    have hlevel := any_level_eq_false isTarget s.children fun k ↦ hbelow k []
    have hchildren : holderIn isTarget (place ++ [i]) 0 s.children = none :=
      ihchildren fun j k path _ ↦ hbelow j (k :: path)
    rw [holderIn_cons, hlevel, if_neg Bool.false_ne_true, hchildren, Option.none_or]
    exact ihrest fun j k path hj ↦ h j k path (Nat.le_of_succ_le hj)

/-- What is not below the first symbol is held among the others. -/
theorem holderIn_cons_of_eq_false (s : Symbol) (rest : List Symbol)
    (h : ∀ path, isTarget (place ++ i :: path) = false) :
    holderIn isTarget place i (s :: rest) = holderIn isTarget place (i + 1) rest := by
  have hbelow (path : Place) : isTarget (place ++ [i] ++ path) = false := by
    rw [List.append_assoc, List.singleton_append]
    exact h path
  have hlevel := any_level_eq_false isTarget s.children fun k ↦ hbelow [k]
  have hchildren : holderIn isTarget (place ++ [i]) 0 s.children = none :=
    holderIn_eq_none fun j k path _ ↦ hbelow (j :: k :: path)
  rw [holderIn_cons, hlevel, if_neg Bool.false_ne_true, hchildren, Option.none_or]

/-- Searches agree if they look for the same nodes of the forest. -/
theorem holderIn_congr {isOther : Place → Bool} (around : List Symbol)
    (h : ∀ x ∈ inForest around place i forest, isTarget x.node.place = isOther x.node.place) :
    holderIn isTarget place i forest = holderIn isOther place i forest := by
  induction forest using Symbol.forest_induction generalizing around place i with
  | nil => rw [holderIn, holderIn]
  | cons s rest ihchildren ihrest =>
    have hchildren : ∀ x ∈ inForest (s :: around) (place ++ [i]) 0 s.children,
        isTarget x.node.place = isOther x.node.place :=
      fun x hx ↦ h x (mem_inForest_cons.2 (.inr (.inl hx)))
    have hlevel : (level (place ++ [i]) s.children).any (fun child ↦ isTarget child.place) =
        (level (place ++ [i]) s.children).any fun child ↦ isOther child.place := by
      rw [Bool.eq_iff_iff, List.any_eq_true, List.any_eq_true]
      refine exists_congr fun child ↦ and_congr_right fun hchild ↦ ?_
      obtain ⟨x, hx, rfl⟩ := exists_mem_of_mem_levelFrom hchild
      rw [hchildren x hx]
    rw [holderIn_cons, holderIn_cons, hlevel, ihchildren (s :: around) hchildren,
      ihrest around fun x hx ↦ h x (mem_inForest_cons.2 (.inr (.inr hx)))]

/-- What is found is a node of the forest. -/
theorem exists_mem_of_holderIn (around : List Symbol) {n : Node}
    (h : holderIn isTarget place i forest = some n) :
    ∃ x ∈ inForest around place i forest, x.node = n := by
  induction forest using Symbol.forest_induction generalizing around place i with
  | nil => rw [holderIn] at h; cases h
  | cons s rest ihchildren ihrest =>
    rw [holderIn_cons, Option.or_eq_some_iff] at h
    obtain h | ⟨-, h⟩ := h
    · split at h
      · obtain rfl := Option.some.inj h
        exact ⟨⟨⟨place ++ [i], s⟩, around⟩, mem_inForest_cons.2 (.inl rfl), rfl⟩
      · obtain ⟨x, hx, hnode⟩ := ihchildren (s :: around) h
        exact ⟨x, mem_inForest_cons.2 (.inr (.inl hx)), hnode⟩
    · obtain ⟨x, hx, hnode⟩ := ihrest around h
      exact ⟨x, mem_inForest_cons.2 (.inr (.inr hx)), hnode⟩

/-- The places one step below `place` are held by nothing in the forest below it, and the others by the
innermost symbol around them. -/
theorem holderIn_of_mem {x : Occurrence} (h : x ∈ inForest around place i forest) :
    (x.node ∈ levelFrom place i forest ∧ x.around = around ∧
        holderIn (· == x.node.place) place i forest = none) ∨
      place.length + 1 < x.node.place.length ∧ ∃ s outer, x.around = s :: outer ∧
        holderIn (· == x.node.place) place i forest = some ⟨x.node.place.dropLast, s⟩ := by
  induction forest using Symbol.forest_induction generalizing around place i with
  | nil => rw [inForest_nil] at h; exact absurd h List.not_mem_nil
  | cons s rest ihchildren ihrest =>
    obtain rfl | h | h := mem_inForest_cons.1 h
    · refine .inl ⟨List.mem_cons_self, rfl, holderIn_eq_none fun j k path _ ↦ ?_⟩
      simp
    · right
      rw [holderIn_cons]
      obtain ⟨hlevel, haround, -⟩ | ⟨hlength, t, outer, haround, hparent⟩ := ihchildren h
      · have hany : (level (place ++ [i]) s.children).any
            (fun child ↦ child.place == x.node.place) = true :=
          List.any_eq_true.2 ⟨x.node, hlevel, beq_self_eq_true _⟩
        obtain ⟨j, -, hplace⟩ := mem_levelFrom hlevel
        rw [hany, if_pos rfl, Option.some_or]
        exact ⟨by simp [hplace], s, around, haround, by rw [hplace, List.dropLast_concat]⟩
      · -- further below, the symbol is not the parent, although it is around the occurrence
        have hbelow (k : Nat) : (place ++ [i] ++ [k] == x.node.place) = false := by
          rw [beq_eq_false_iff_ne]
          intro heq
          simp [← heq] at hlength
        have hany : (level (place ++ [i]) s.children).any
            (fun child ↦ child.place == x.node.place) = false :=
          any_level_eq_false (· == x.node.place) s.children hbelow
        rw [hany, if_neg Bool.false_ne_true, hparent, Option.some_or]
        rw [List.length_append, List.length_singleton] at hlength
        exact ⟨Nat.lt_of_succ_lt hlength, t, outer, haround, rfl⟩
    · obtain ⟨j, path, hj, hplace⟩ := exists_place_of_mem h
      rw [holderIn_cons_of_eq_false]
      · obtain ⟨hlevel, haround, hparent⟩ | hdeep := ihrest h
        · exact .inl ⟨List.mem_cons_of_mem _ hlevel, haround, hparent⟩
        · exact .inr hdeep
      · intro path'
        rw [beq_eq_false_iff_ne, hplace, Ne, List.append_cancel_left_eq, List.cons.injEq]
        omega

/-- The parent of a place is the innermost symbol around it. -/
theorem parentOf?_of_mem {x : Occurrence} (h : x ∈ Occurrence.all forest) :
    parentOf? forest (some x.node.place) = x.around.head? := by
  rw [parentOf?, Option.bind_some, parentIn_eq_holderIn]
  obtain ⟨-, haround, hholder⟩ | ⟨-, s, outer, haround, hholder⟩ := holderIn_of_mem h
  · rw [hholder, haround, List.head?_nil, Option.map_none]
  · rw [hholder, haround, List.head?_cons, Option.map_some]

/-! ## Addresses -/

/-- Where the nodes of a forest are kept, no two of them at one address. Equal symbols that are no nodes
of the forest are kept at other addresses. -/
structure Storage (α : Type) (forest : List Symbol) where
  address : Place → α
  address_inj : ∀ {place other : Place}, (find? forest place).isSome → (find? forest other).isSome →
    address place = address other → place = other

namespace Storage

variable {α : Type} [DecidableEq α] (m : Storage α forest) {target : α} {s : Symbol}

/-- The node that has the symbol at an address among its children. -/
def holder? (target : α) : Option Node :=
  holderIn (fun place ↦ decide (m.address place = target)) [] 0 forest

/-- The place of the node at an address. -/
def placeOf? (target : α) : Option Place :=
  ((Occurrence.all forest).map (·.node.place)).find? fun place ↦
    decide (m.address place = target)

theorem isSome_find? {x : Occurrence} (h : x ∈ Occurrence.all forest) :
    (find? forest x.node.place).isSome := by
  rw [find?_eq_some_iff.2 ⟨x, h, rfl⟩, Option.isSome_some]

theorem placeOf?_address (h : find? forest place = some s) :
    m.placeOf? (m.address place) = some place := by
  obtain ⟨x, hx, hnode⟩ := find?_eq_some_iff.1 h
  obtain rfl : x.node.place = place := congrArg Node.place hnode
  cases hfound : m.placeOf? (m.address x.node.place) with
  | none =>
    have hother := List.find?_eq_none.1 hfound _ (List.mem_map_of_mem hx)
    exact absurd (decide_eq_true rfl) hother
  | some other =>
    rw [placeOf?] at hfound
    obtain ⟨y, hy, rfl⟩ := List.mem_map.1 (List.mem_of_find?_eq_some hfound)
    have haddress := List.find?_some hfound
    rw [decide_eq_true_iff] at haddress
    rw [m.address_inj (isSome_find? hy) (isSome_find? hx) haddress]

/-- To look for the address of a node is to look for its place. -/
theorem holder?_address (h : find? forest place = some s) :
    m.holder? (m.address place) = holderIn (· == place) [] 0 forest := by
  refine holderIn_congr [] fun x hx ↦ ?_
  rw [Bool.eq_iff_iff, decide_eq_true_iff, beq_iff_eq]
  constructor
  · exact m.address_inj (isSome_find? hx) (by rw [h, Option.isSome_some])
  · rintro rfl
    rfl

theorem placeOf?_eq_none (h : ∀ place s, find? forest place = some s → m.address place ≠ target) :
    m.placeOf? target = none := by
  rw [placeOf?, List.find?_eq_none]
  intro place hplace haddress
  obtain ⟨x, hx, rfl⟩ := List.mem_map.1 hplace
  exact h _ _ (find?_eq_some_iff.2 ⟨x, hx, rfl⟩) (of_decide_eq_true haddress)

theorem holder?_eq_none (h : ∀ place s, find? forest place = some s → m.address place ≠ target) :
    m.holder? target = none := by
  have hnone : m.holder? target = holderIn (fun _ ↦ false) [] 0 forest :=
    holderIn_congr [] fun x hx ↦
      decide_eq_false (h _ _ (find?_eq_some_iff.2 ⟨x, hx, rfl⟩))
  rw [hnone, holderIn_eq_none fun _ _ _ _ ↦ rfl]

theorem holder?_cases (h : find? forest place = some s) :
    (place.length < 2 ∧ m.holder? (m.address place) = none) ∨
      2 ≤ place.length ∧ ∃ parent, find? forest place.dropLast = some parent ∧
        m.holder? (m.address place) = some ⟨place.dropLast, parent⟩ := by
  obtain ⟨x, hx, hnode⟩ := find?_eq_some_iff.1 h
  obtain rfl : x.node.place = place := congrArg Node.place hnode
  rw [m.holder?_address h]
  obtain ⟨hlevel, -, hholder⟩ | ⟨hlength, parent, -, -, hholder⟩ := holderIn_of_mem hx
  · obtain ⟨j, -, hplace⟩ := mem_levelFrom hlevel
    exact .inl ⟨by simp [hplace], hholder⟩
  · obtain ⟨y, hy, hparent⟩ := exists_mem_of_holderIn [] hholder
    exact .inr ⟨hlength, parent, find?_eq_some_iff.2 ⟨y, hy, hparent⟩, hholder⟩

end Storage

/-- The parent of what is kept at an address is the symbol of the node that has it among its children.
For a node that is no root this is the node one step above its place, and a root has no parent. Nor has
what is kept at the address of no node, whatever it is equal to. -/
theorem parentOf?_placeOf? {α : Type} [DecidableEq α] (m : Storage α forest) :
    (∀ target, parentOf? forest (m.placeOf? target) = (m.holder? target).map (·.symbol)) ∧
      (∀ place s, find? forest place = some s →
        m.placeOf? (m.address place) = some place ∧
        (place.length < 2 → m.holder? (m.address place) = none) ∧
        (2 ≤ place.length → ∃ parent, find? forest place.dropLast = some parent ∧
          m.holder? (m.address place) = some ⟨place.dropLast, parent⟩)) ∧
      ∀ target, (∀ place s, find? forest place = some s → m.address place ≠ target) →
        m.placeOf? target = none ∧ m.holder? target = none := by
  refine ⟨fun target ↦ ?_, fun place s h ↦ ⟨m.placeOf?_address h, ?_⟩,
    fun target h ↦ ⟨m.placeOf?_eq_none h, m.holder?_eq_none h⟩⟩
  · by_cases h : ∃ place s, find? forest place = some s ∧ m.address place = target
    · obtain ⟨place, s, hfind, rfl⟩ := h
      rw [m.placeOf?_address hfind, m.holder?_address hfind, parentOf?, Option.bind_some,
        parentIn_eq_holderIn]
    · have hno : ∀ place s, find? forest place = some s → m.address place ≠ target :=
        fun place s hfind haddress ↦ h ⟨place, s, hfind, haddress⟩
      rw [m.placeOf?_eq_none hno, m.holder?_eq_none hno, parentOf?, Option.bind_none,
        Option.map_none]
  · obtain ⟨hlength, hholder⟩ | ⟨hlength, hparent⟩ := m.holder?_cases h
    · exact ⟨fun _ ↦ hholder, fun hle ↦ absurd hle (Nat.not_le.2 hlength)⟩
    · exact ⟨fun hlt ↦ absurd hlt (Nat.not_lt.2 hlength), fun _ ↦ hparent⟩

/-- In a forest of two equal roots with two equal children each, the first child of the second root is
held by that root, and a copy that is kept elsewhere by none. -/
theorem parentOf?_placeOf?_twins :
    let symbol (children : List Symbol) : Symbol :=
      ⟨⟨"m".toList, .method, [], .onLine 0 0 1, .onLine 0 0 1⟩, children⟩
    let root := symbol [symbol [], symbol []]
    let m : Storage Place [root, root] := ⟨id, fun _ _ h ↦ h⟩
    m.holder? [1, 0] = some ⟨[1], root⟩ ∧ m.holder? [1] = none ∧ m.holder? [2] = none := by
  intro symbol root m
  have hlaw := parentOf?_placeOf? m
  obtain ⟨parent, hparent, hholder⟩ := (hlaw.2.1 [1, 0] (symbol []) rfl).2.2 (by decide)
  obtain rfl : root = parent := Option.some.inj hparent
  refine ⟨hholder, (hlaw.2.1 [1] root rfl).2.1 (by decide), (hlaw.2.2 [2] ?_).2⟩
  rintro _ s h rfl
  cases h

end VbOutline.Node
