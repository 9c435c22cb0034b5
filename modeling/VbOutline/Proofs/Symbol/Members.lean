import VbOutline.Symbol.Basic

/-!
# Members behind containers

The members of a type are collected with a stack of pending symbols, where a container is replaced by
what is inside it. They are what the type shows when every container is looked through, to any depth,
in the order of the source.
-/

namespace VbOutline.Symbol

mutual

/-- The symbol, or what is inside it if it is a container. -/
def seeThrough : Symbol → List Symbol
  | ⟨entry, children⟩ => if entry.kind.isContainer then seenIn children else [⟨entry, children⟩]

/-- The symbols of a forest with every container replaced by what is inside it. -/
def seenIn : List Symbol → List Symbol
  | [] => []
  | s :: rest => seeThrough s ++ seenIn rest

end

@[simp]
theorem seenIn_nil : seenIn [] = [] := by rw [seenIn]

theorem seenIn_cons (s : Symbol) (rest : List Symbol) :
    seenIn (s :: rest) = (if s.kind.isContainer then seenIn s.children else [s]) ++ seenIn rest := by
  obtain ⟨entry, children⟩ := s
  rw [seenIn, seeThrough]

theorem seenIn_append (left right : List Symbol) :
    seenIn (left ++ right) = seenIn left ++ seenIn right := by
  induction left with
  | nil => rw [seenIn_nil, List.nil_append, List.nil_append]
  | cons s left ih => rw [List.cons_append, seenIn_cons, seenIn_cons, ih, List.append_assoc]

/-- At each step the symbols found so far and those still to be seen on the stack are the same. -/
theorem collect_eq (found pending : List Symbol) :
    collect found pending = (seenIn pending).reverse ++ found := by
  fun_induction collect found pending with
  | case1 found => rw [seenIn_nil, List.reverse_nil, List.nil_append]
  | case2 found s pending hcontainer ih =>
    rw [ih, pushAll_eq, seenIn_append, seenIn_cons, if_pos hcontainer]
  | case3 found s pending hcontainer ih =>
    rw [ih, seenIn_cons, if_neg hcontainer, List.reverse_append, List.reverse_singleton,
      List.append_assoc, List.singleton_append]

theorem members_eq_seenIn (s : Symbol) : s.members = seenIn s.children := by
  rw [members, collect_eq, pushAll_eq, List.append_nil, List.append_nil, List.reverse_reverse]

end VbOutline.Symbol
