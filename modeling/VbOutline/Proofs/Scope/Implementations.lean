import Mathlib.Data.List.Nodup
import VbOutline.Project
import VbOutline.Proofs.Symbol.Parents

/-!
# Who implements a member of an interface

A member of an interface is implemented by the declarations of its kind and name that belong to a class
or structure with a mark for the interface. What is inside a region belongs to what is around the
region; what is inside a nested type belongs to that type alone.

The search reports these and no others if no symbol inside such a type misleads it. It goes through all
that is inside the type, so that something of the kind and name inside a nested type is reported as
well, once for each marked type around it. And it takes the innermost symbol around the member for the
interface: for a member inside a region nothing is reported.
-/

namespace VbOutline

open Text

namespace Scope

open VbOutline.Symbol

/-- Whether a symbol has the kind and the name of a member. -/
def alike (m s : Symbol) : Bool := s.kind == m.kind && s.isNamed m.name

/-- Whether a symbol declares something of the kind and the name of a member. Regions and marks declare
nothing. -/
def redeclares (m s : Symbol) : Bool := alike m s && !s.isRegion && !s.isImplements

/-- Whether a symbol is a class or structure with a mark for the interface. -/
def implementor (interface s : Symbol) : Bool :=
  implementsInterface (unqualified (baseTypeName interface.name)) s

/-- Whether an occurrence implements a member of an interface. -/
def implementsMember (interface m : Symbol) (x : Occurrence) : Bool :=
  x.owner?.any (implementor interface) && redeclares m x.node.symbol

/-- What implements a member of an interface, in the order of the documents and of their sources. -/
def implementingMembers (outlines : List DocumentOutline) (interface m : Symbol) : List Found :=
  outlines.flatMap fun o ↦
    ((Occurrence.all o.symbols).filter (implementsMember interface m)).map fun x ↦ ⟨o.uri, x.node⟩

/-- What is shown of a symbol that was found. -/
def Found.shown (f : Found) : String × Entry := (f.uri, f.node.symbol.toEntry)

/-- Whether a symbol inside an implementing type makes the search report what is no member of this type:
a region of the kind and name itself, any other symbol by something of the kind and name inside it. -/
def Misleads (m t : Symbol) : Prop :=
  t.isRegion ∧ alike m t ∨ t.isRegion = false ∧ ∃ x ∈ flatten t.children, alike m x

/-- What was found stands at the occurrence `x` in its document and is a member of the interface. -/
structure InterfaceMember (outlines : List DocumentOutline) (m : Found) (x : Occurrence)
    (interface : Symbol) : Prop where
  stands : ∃ o ∈ outlines, o.uri = m.uri ∧ x ∈ Occurrence.all o.symbols
  place : x.node.place = m.node.place
  owner : x.owner? = some interface
  kind : interface.kind = .interfaceType

/-- Nothing keeps the search from reporting what implements a member of an interface. -/
def Undisturbed (outlines : List DocumentOutline) (interface : Symbol) (around : List Symbol)
    (m : Symbol) : Prop :=
  if m.kind = .interfaceType then
    -- Such a member is taken for the interface whose implementing types are looked for.
    implementations outlines m.name = [] ∧ implementingMembers outlines interface m = []
  else if around.head?.any (·.isRegion) then
    -- The region is taken for what the member belongs to.
    implementingMembers outlines interface m = []
  else
    ∀ f ∈ implementations outlines interface.name, ∀ t ∈ flatten f.2.children, ¬ Misleads m t

/-! ## One document -/

section

variable {interface m : Symbol}

/-- The symbols of the kind and name in a forest. -/
def alikeIn (m : Symbol) (forest : List Symbol) : List Symbol := (flatten forest).filter (alike m)

/-- What the search reports for the types in a forest. -/
def reportedIn (interface m : Symbol) (forest : List Symbol) : List Symbol :=
  ((flatten forest).filter (implementor interface)).flatMap fun s ↦ alikeIn m s.children

/-- Whether what is inside `around` belongs to an implementing type. -/
def held (interface : Symbol) (around : List Symbol) : Bool :=
  (around.find? fun s ↦ !s.isRegion).any (implementor interface)

/-- The symbols in a forest below `around` that implement the member. -/
def membersIn (interface m : Symbol) (around : List Symbol) (place : Place) (i : Nat)
    (forest : List Symbol) : List Symbol :=
  ((Occurrence.inForest around place i forest).filter (implementsMember interface m)).map
    (·.node.symbol)

mutual

/-- What is reported of a symbol and of what is inside it although it does not implement the member;
`inside` says whether the symbol belongs to an implementing type. -/
def straysOf (interface m : Symbol) (inside : Bool) : Symbol → List Symbol
  | ⟨entry, children⟩ =>
    if entry.isRegion then
      (if inside && alike m ⟨entry, children⟩ then [⟨entry, children⟩] else []) ++
        straysIn interface m inside children
    else
      (if inside then alikeIn m children else []) ++
        straysIn interface m (implementor interface ⟨entry, children⟩) children

def straysIn (interface m : Symbol) (inside : Bool) : List Symbol → List Symbol
  | [] => []
  | s :: rest => straysOf interface m inside s ++ straysIn interface m inside rest

end

theorem held_cons (interface s : Symbol) (around : List Symbol) :
    held interface (s :: around) =
      if s.isRegion then held interface around else implementor interface s := by
  cases hs : s.isRegion <;> simp [held, hs]

@[simp]
theorem alikeIn_nil : alikeIn m [] = [] := by rw [alikeIn, flatten_nil, List.filter_nil]

theorem alikeIn_cons (s : Symbol) (rest : List Symbol) :
    alikeIn m (s :: rest) =
      (if alike m s then [s] else []) ++ (alikeIn m s.children ++ alikeIn m rest) := by
  rw [alikeIn, flatten_cons, List.cons_append, List.filter_cons, List.filter_append]
  split <;> rfl

@[simp]
theorem reportedIn_nil : reportedIn interface m [] = [] := by
  rw [reportedIn, flatten_nil, List.filter_nil, List.flatMap_nil]

theorem reportedIn_cons (s : Symbol) (rest : List Symbol) :
    reportedIn interface m (s :: rest) =
      (if implementor interface s then alikeIn m s.children else []) ++
        (reportedIn interface m s.children ++ reportedIn interface m rest) := by
  rw [reportedIn, flatten_cons, List.cons_append, List.filter_cons, List.filter_append]
  split
  · rw [List.flatMap_cons, List.flatMap_append]
    rfl
  · rw [List.flatMap_append]
    rfl

@[simp]
theorem membersIn_nil (around : List Symbol) (place : Place) (i : Nat) :
    membersIn interface m around place i [] = [] := by
  rw [membersIn, Occurrence.inForest_nil, List.filter_nil, List.map_nil]

theorem membersIn_cons (around : List Symbol) (place : Place) (i : Nat) (s : Symbol)
    (rest : List Symbol) :
    membersIn interface m around place i (s :: rest) =
      (if held interface around && redeclares m s then [s] else []) ++
        (membersIn interface m (s :: around) (place ++ [i]) 0 s.children ++
          membersIn interface m around place (i + 1) rest) := by
  rw [membersIn, Occurrence.inForest_cons, List.filter_cons, List.filter_append]
  change List.map _ (if held interface around && redeclares m s then _ else _) = _
  split
  · rw [List.map_cons, List.map_append]
    rfl
  · rw [List.map_append]
    rfl

@[simp]
theorem straysIn_nil (inside : Bool) : straysIn interface m inside [] = [] := by rw [straysIn]

theorem straysIn_cons_of_isRegion {s : Symbol} (h : s.isRegion) (rest : List Symbol) (inside : Bool) :
    straysIn interface m inside (s :: rest) =
      (if inside && alike m s then [s] else []) ++ straysIn interface m inside s.children ++
        straysIn interface m inside rest := by
  obtain ⟨entry, children⟩ := s
  rw [straysIn, straysOf, if_pos h]

theorem straysIn_cons_of_not_isRegion {s : Symbol} (h : s.isRegion = false) (rest : List Symbol)
    (inside : Bool) :
    straysIn interface m inside (s :: rest) =
      (if inside then alikeIn m s.children else []) ++
        straysIn interface m (implementor interface s) s.children ++
        straysIn interface m inside rest := by
  obtain ⟨entry, children⟩ := s
  rw [straysIn, straysOf, if_neg (ne_true_of_eq_false h)]

theorem implementor_of_isRegion {s : Symbol} (h : s.isRegion) : implementor interface s = false := by
  rw [implementor, implementsInterface, s.kind_of_isRegion h]
  rfl

/-- A mark has the kind of an interface, so that it is not alike to any other member. -/
theorem redeclares_eq (hkind : m.kind ≠ .interfaceType) (s : Symbol) :
    redeclares m s = (alike m s && !s.isRegion) := by
  cases hmark : s.isImplements with
  | false => rw [redeclares, hmark, Bool.not_false, Bool.and_true]
  | true =>
    rw [Entry.isImplements, Bool.and_eq_true, beq_iff_eq] at hmark
    have halike : alike m s = false := by
      rw [alike, hmark.1, beq_eq_false_iff_ne.2 hkind.symm, Bool.false_and]
    rw [redeclares, halike, Bool.false_and, Bool.false_and]

/-- What is reported are the members and the strays; below an implementing type, all that is of the kind
and name is reported for this type. -/
theorem length_reportedIn (interface : Symbol) (hkind : m.kind ≠ .interfaceType)
    (around : List Symbol) (place : Place) (i : Nat) (forest : List Symbol) :
    (reportedIn interface m forest).length +
        (if held interface around then (alikeIn m forest).length else 0) =
      (membersIn interface m around place i forest).length +
        (straysIn interface m (held interface around) forest).length := by
  induction forest using forest_induction generalizing around place i with
  | nil => simp
  | cons s rest ihchildren ihrest =>
    have hchildren := ihchildren (s :: around) (place ++ [i]) 0
    have hrest := ihrest around place (i + 1)
    rw [held_cons] at hchildren
    rw [membersIn_cons, reportedIn_cons, alikeIn_cons, redeclares_eq hkind]
    cases hregion : s.isRegion with
    | true =>
      rw [hregion, if_pos rfl] at hchildren
      rw [straysIn_cons_of_isRegion hregion, implementor_of_isRegion hregion]
      cases hheld : held interface around <;> simp [hheld] at hchildren hrest ⊢ <;> omega
    | false =>
      -- Inside `s` only what belongs to `s` counts, but the types around `s` report all of it.
      rw [hregion, if_neg Bool.false_ne_true] at hchildren
      rw [straysIn_cons_of_not_isRegion hregion]
      cases hheld : held interface around <;> cases hs : implementor interface s <;>
        simp [hheld, hs] at hchildren hrest ⊢ <;> omega

theorem alikeIn_eq_nil_iff {forest : List Symbol} :
    alikeIn m forest = [] ↔ ¬ ∃ x ∈ flatten forest, alike m x := by
  rw [alikeIn, List.filter_eq_nil_iff]
  push Not
  rfl

theorem not_misleads_of_alikeIn_eq_nil {t : Symbol} {forest : List Symbol} (h : alikeIn m forest = [])
    (ht : t ∈ flatten forest) : ¬ Misleads m t := by
  rw [alikeIn_eq_nil_iff] at h
  rintro (⟨-, halike⟩ | ⟨-, x, hx, halike⟩)
  · exact h ⟨t, ht, halike⟩
  · exact h ⟨x, mem_flatten_trans ht hx, halike⟩

/-- There are no strays if and only if no symbol inside an implementing type misleads. -/
theorem straysIn_eq_nil_iff (inside : Bool) (forest : List Symbol) :
    straysIn interface m inside forest = [] ↔
      (inside → ∀ t ∈ flatten forest, ¬ Misleads m t) ∧
        ∀ s ∈ flatten forest, implementor interface s → ∀ t ∈ flatten s.children, ¬ Misleads m t := by
  induction forest using forest_induction generalizing inside with
  | nil => simp
  | cons s rest ihchildren ihrest =>
    simp only [flatten_cons, List.cons_append, List.forall_mem_cons, List.forall_mem_append]
    cases hregion : s.isRegion with
    | true =>
      have hself : Misleads m s ↔ alike m s := by simp [Misleads, hregion]
      have hs : implementor interface s = false := implementor_of_isRegion hregion
      rw [straysIn_cons_of_isRegion hregion, List.append_eq_nil_iff, List.append_eq_nil_iff, ihchildren,
        ihrest, hself, hs]
      cases inside
      · simp
      · simp; tauto
    | false =>
      have hself : ¬ Misleads m s ↔ alikeIn m s.children = [] := by
        rw [alikeIn_eq_nil_iff, Misleads, hregion]
        simp
      rw [straysIn_cons_of_not_isRegion hregion, List.append_eq_nil_iff, List.append_eq_nil_iff,
        ihchildren, ihrest, hself]
      have hinner (h : alikeIn m s.children = []) : ∀ t ∈ flatten s.children, ¬ Misleads m t :=
        fun t ↦ not_misleads_of_alikeIn_eq_nil h
      cases inside <;> simp <;> tauto

/-- Below an implementing type without strays, what implements the member is all that is of the kind and
name, and nothing is reported for types further inside. -/
theorem membersIn_eq_alikeIn (hkind : m.kind ≠ .interfaceType) {around : List Symbol} (place : Place)
    (i : Nat) {forest : List Symbol} (hheld : held interface around)
    (h : straysIn interface m true forest = []) :
    membersIn interface m around place i forest = alikeIn m forest ∧
      reportedIn interface m forest = [] := by
  have hsublist : (membersIn interface m around place i forest).Sublist (alikeIn m forest) := by
    rw [membersIn, alikeIn, ← Occurrence.map_symbol_inForest around place i, List.filter_map]
    refine (List.monotone_filter_right _ fun x hx ↦ ?_).map _
    rw [implementsMember, redeclares, Bool.and_eq_true, Bool.and_eq_true, Bool.and_eq_true] at hx
    exact hx.2.1.1
  -- A part of a list that is not shorter is the whole list.
  have hlength := length_reportedIn interface hkind around place i forest
  rw [hheld, if_pos rfl, h, List.length_nil, Nat.add_zero] at hlength
  have hle := hsublist.length_le
  exact ⟨hsublist.eq_of_length_le (by omega), List.eq_nil_of_length_eq_zero (by omega)⟩

/-- Without strays, what implements the member is what is reported. -/
theorem membersIn_eq_reportedIn (hkind : m.kind ≠ .interfaceType) {around : List Symbol} (place : Place)
    (i : Nat) {forest : List Symbol} (hheld : held interface around = false)
    (h : straysIn interface m false forest = []) :
    membersIn interface m around place i forest = reportedIn interface m forest := by
  induction forest using forest_induction generalizing around place i with
  | nil => rw [membersIn_nil, reportedIn_nil]
  | cons s rest ihchildren ihrest =>
    have hcons := held_cons interface s around
    rw [membersIn_cons, reportedIn_cons, hheld, Bool.false_and, if_neg Bool.false_ne_true,
      List.nil_append]
    cases hregion : s.isRegion with
    | true =>
      rw [straysIn_cons_of_isRegion hregion, List.append_eq_nil_iff, List.append_eq_nil_iff] at h
      rw [hregion, if_pos rfl, hheld] at hcons
      rw [implementor_of_isRegion hregion, if_neg Bool.false_ne_true, List.nil_append,
        ihchildren _ _ hcons h.1.2, ihrest _ _ hheld h.2]
    | false =>
      rw [straysIn_cons_of_not_isRegion hregion, List.append_eq_nil_iff, List.append_eq_nil_iff] at h
      rw [hregion, if_neg Bool.false_ne_true] at hcons
      rw [ihrest _ _ hheld h.2]
      cases hs : implementor interface s with
      | true =>
        rw [hs] at h hcons
        obtain ⟨hmembers, hreported⟩ := membersIn_eq_alikeIn hkind (place ++ [i]) 0 hcons h.1.2
        rw [hmembers, hreported, if_pos rfl, List.nil_append]
      | false =>
        rw [hs] at h hcons
        rw [ihchildren _ _ hcons h.1.2, if_neg Bool.false_ne_true, List.nil_append]

end

/-! ## All documents -/

section

variable {interface m : Symbol} {outlines : List DocumentOutline}

/-- What is shown of the symbols in one document. -/
def shownIn (uri : String) (symbols : List Symbol) : List (String × Entry) :=
  symbols.map fun s ↦ (uri, s.toEntry)

@[simp]
theorem length_shownIn (uri : String) (symbols : List Symbol) :
    (shownIn uri symbols).length = symbols.length :=
  List.length_map _

theorem shown_implementingMembers (outlines : List DocumentOutline) (interface m : Symbol) :
    (implementingMembers outlines interface m).map Found.shown =
      outlines.flatMap fun o ↦ shownIn o.uri (membersIn interface m [] [] 0 o.symbols) := by
  rw [implementingMembers, List.map_flatMap]
  congr 1
  funext o
  rw [shownIn, membersIn, List.map_map, List.map_map]
  rfl

/-- What the search reports for a direct member of the interface. -/
def reported (outlines : List DocumentOutline) (interface m : Symbol) : List (String × Entry) :=
  outlines.flatMap fun o ↦ shownIn o.uri (reportedIn interface m o.symbols)

theorem flatMap_implementations (outlines : List DocumentOutline) (interface m : Symbol) :
    ((implementations outlines interface.name).flatMap fun (uri, s) ↦
      ((flatten s.children).filter fun t ↦ t.kind == m.kind && t.isNamed m.name).map fun t ↦
        (uri, t.toEntry)) = reported outlines interface m := by
  rw [implementations, List.flatMap_assoc, reported]
  congr 1
  funext o
  rw [List.flatMap_map, shownIn, reportedIn, List.map_flatMap]
  rfl

theorem length_reported (interface : Symbol) (hkind : m.kind ≠ .interfaceType)
    (outlines : List DocumentOutline) :
    (reported outlines interface m).length =
      (implementingMembers outlines interface m).length +
        (outlines.flatMap fun o ↦ straysIn interface m false o.symbols).length := by
  rw [← List.length_map Found.shown, shown_implementingMembers, reported]
  induction outlines with
  | nil => rfl
  | cons o outlines ih =>
    have ho := length_reportedIn interface hkind [] [] 0 o.symbols
    rw [show held interface [] = false from rfl, if_neg Bool.false_ne_true, Nat.add_zero] at ho
    simp only [List.flatMap_cons, List.length_append, length_shownIn, ih, ho]
    omega

theorem forall_implementations_iff {P : Symbol → Prop} :
    (∀ f ∈ implementations outlines interface.name, P f.2) ↔
      ∀ o ∈ outlines, ∀ s ∈ flatten o.symbols, implementor interface s → P s := by
  simp only [implementations, List.mem_flatMap, List.mem_map, List.mem_filter]
  constructor
  · intro h o ho s hs himplementor
    exact h (o.uri, s) ⟨o, ho, s, ⟨hs, himplementor⟩, rfl⟩
  · rintro h f ⟨o, ho, s, ⟨hs, himplementor⟩, rfl⟩
    exact h o ho s hs himplementor

/-- The members are what is reported if and only if nothing misleads the search. -/
theorem reported_eq_members_iff (hkind : m.kind ≠ .interfaceType) :
    reported outlines interface m = (implementingMembers outlines interface m).map Found.shown ↔
      ∀ f ∈ implementations outlines interface.name, ∀ t ∈ flatten f.2.children, ¬ Misleads m t := by
  have hstrays : (∀ f ∈ implementations outlines interface.name,
      ∀ t ∈ flatten f.2.children, ¬ Misleads m t) ↔
        ∀ o ∈ outlines, straysIn interface m false o.symbols = [] := by
    rw [forall_implementations_iff (P := fun s ↦ ∀ t ∈ flatten s.children, ¬ Misleads m t)]
    refine forall₂_congr fun o _ ↦ ?_
    rw [straysIn_eq_nil_iff]
    simp
  rw [hstrays]
  constructor
  · intro h
    have hlength := length_reported interface hkind outlines
    rw [h, List.length_map, Nat.left_eq_add, List.length_eq_zero_iff, List.flatMap_eq_nil_iff] at hlength
    exact hlength
  · intro h
    rw [shown_implementingMembers, reported]
    refine List.flatMap_congr fun o ho ↦ ?_
    rw [membersIn_eq_reportedIn hkind [] 0 rfl (h o ho)]

/-- Each symbol that implements the member is listed once. -/
theorem nodup_implementingMembers (h : (outlines.map (·.uri)).Nodup) :
    ((implementingMembers outlines interface m).map fun f ↦ (f.uri, f.node.place)).Nodup := by
  rw [implementingMembers, List.map_flatMap, List.nodup_flatMap]
  refine ⟨fun o _ ↦ ?_, (List.pairwise_map.1 h).imp fun {o o'} hne ↦ ?_⟩
  · have hplaces : (((Occurrence.all o.symbols).filter (implementsMember interface m)).map
        (·.node.place)).Nodup :=
      (Occurrence.nodup_place [] [] 0 o.symbols).sublist (List.filter_sublist.map _)
    have hpairs := hplaces.map (f := Prod.mk o.uri) fun _ _ heq ↦ congrArg Prod.snd heq
    rwa [List.map_map] at hpairs ⊢
  · intro entry ho ho'
    simp only [List.mem_map] at ho ho'
    obtain ⟨_, ⟨x, -, rfl⟩, rfl⟩ := ho
    obtain ⟨_, ⟨y, -, rfl⟩, heq⟩ := ho'
    exact hne (congrArg Prod.fst heq).symm

theorem find?_uri {o : DocumentOutline} (h : (outlines.map (·.uri)).Nodup) (ho : o ∈ outlines) :
    outlines.find? (fun o' ↦ o'.uri == o.uri) = some o := by
  have hsome : (outlines.find? fun o' ↦ o'.uri == o.uri).isSome := by
    rw [List.find?_isSome]
    exact ⟨o, ho, beq_self_eq_true _⟩
  obtain ⟨o', ho'⟩ := Option.isSome_iff_exists.1 hsome
  have huri : o'.uri = o.uri := by simpa using List.find?_some ho'
  rw [ho', List.inj_on_of_nodup_map h (List.mem_of_find?_eq_some ho') ho huri]

end

section

variable {d : Document} {forest : List Symbol} {others : List DocumentOutline} {p : Position} {m : Found}
  {x : Occurrence} {interface : Symbol}

theorem implementationsAt_of_interface (hm : resolveAt? d forest others p = some m)
    (hkind : m.node.symbol.kind = .interfaceType) :
    implementationsAt d forest others p =
      (implementations (⟨d.uri, forest⟩ :: others) m.node.symbol.name).map fun (uri, s) ↦
        (uri, s.toEntry) := by
  simp only [implementationsAt, hm, hkind, beq_self_eq_true, if_true]

/-- The search takes the innermost symbol around the member for the interface. -/
theorem implementationsAt_of_member
    (huris : ((⟨d.uri, forest⟩ :: others : List DocumentOutline).map (·.uri)).Nodup)
    (hm : resolveAt? d forest others p = some m) (hkind : m.node.symbol.kind ≠ .interfaceType)
    (hmember : InterfaceMember (⟨d.uri, forest⟩ :: others) m x interface) :
    implementationsAt d forest others p =
      if x.around.head?.any (·.isRegion) then []
      else reported (⟨d.uri, forest⟩ :: others) interface m.node.symbol := by
  obtain ⟨⟨o, ho, huri, hx⟩, hplace, howner, hinterface⟩ := hmember
  have hparent := Node.parentOf?_of_mem hx
  rw [hplace] at hparent
  have hfind := find?_uri huris ho
  rw [huri] at hfind
  simp only [implementationsAt, hm, beq_eq_false_iff_ne.2 hkind, hfind, Option.bind_some, hparent]
  rw [Occurrence.owner?] at howner
  cases haround : x.around with
  | nil => rw [haround] at howner; nomatch howner
  | cons s outer =>
    rw [haround] at howner
    rw [List.head?_cons, Option.any_some]
    cases hs : s.isRegion with
    | true =>
      have hcontainer := s.kind_of_isRegion hs
      simp [hcontainer]
    | false =>
      rw [List.find?_cons_of_pos (by simp [hs]), Option.some.injEq] at howner
      subst howner
      simp only [hinterface, beq_self_eq_true, if_true, if_false, Bool.false_eq_true]
      exact flatMap_implementations _ _ _

theorem kind_ne_of_mem_implementations {outlines : List DocumentOutline} {name : Text}
    {f : String × Symbol} (h : f ∈ implementations outlines name) : f.2.kind ≠ .interfaceType := by
  simp only [implementations, List.mem_flatMap, List.mem_map, List.mem_filter, implementsInterface,
    Bool.and_eq_true, Bool.or_eq_true, beq_iff_eq] at h
  obtain ⟨_, -, s, ⟨-, hkind, -⟩, rfl⟩ := h
  obtain hkind | hkind := hkind <;> simp [hkind]

theorem kind_of_mem_implementingMembers {outlines : List DocumentOutline} {m : Symbol} {f : Found}
    (h : f ∈ implementingMembers outlines interface m) : f.node.symbol.kind = m.kind := by
  simp only [implementingMembers, List.mem_flatMap, List.mem_map, List.mem_filter, implementsMember,
    redeclares, alike, Bool.and_eq_true, beq_iff_eq] at h
  obtain ⟨_, -, x, ⟨-, -, ⟨⟨hkind, -⟩, -⟩, -⟩, rfl⟩ := h
  exact hkind

/-- Types and interfaces are of different kinds, so that a list of implementing types is no list of
interfaces unless both are empty. -/
theorem map_implementations_eq_iff {m : Symbol} (hkind : m.kind = .interfaceType)
    (outlines : List DocumentOutline) (name : Text) :
    ((implementations outlines name).map fun (uri, s) ↦ (uri, s.toEntry)) =
        (implementingMembers outlines interface m).map Found.shown ↔
      implementations outlines name = [] ∧ implementingMembers outlines interface m = [] := by
  constructor
  · intro h
    have hempty : ((implementations outlines name).map fun (uri, s) ↦ (uri, s.toEntry)) = [] := by
      rw [List.eq_nil_iff_forall_not_mem]
      intro entry hentry
      have hentry' := h ▸ hentry
      obtain ⟨⟨uri, s⟩, hs, rfl⟩ := List.mem_map.1 hentry
      obtain ⟨f, hf, heq⟩ := List.mem_map.1 hentry'
      have hsame : f.node.symbol.kind = s.kind := congrArg (fun e ↦ e.2.kind) heq
      rw [kind_of_mem_implementingMembers hf, hkind] at hsame
      exact kind_ne_of_mem_implementations hs hsame.symm
    rw [hempty] at h
    exact ⟨List.map_eq_nil_iff.1 hempty, List.map_eq_nil_iff.1 h.symm⟩
  · rintro ⟨htypes, hmembers⟩
    rw [htypes, hmembers]
    rfl

/-- Exactly what implements a member of an interface is reported if and only if, for a direct member,
nothing misleads the search, and nothing implements a member inside a region. A member that is an
interface itself is taken for the interface whose implementations are looked for. -/
theorem implementationsAt_eq_members_iff
    (huris : ((⟨d.uri, forest⟩ :: others : List DocumentOutline).map (·.uri)).Nodup)
    (hm : resolveAt? d forest others p = some m)
    (hmember : InterfaceMember (⟨d.uri, forest⟩ :: others) m x interface) :
    implementationsAt d forest others p =
        (implementingMembers (⟨d.uri, forest⟩ :: others) interface m.node.symbol).map Found.shown ↔
      Undisturbed (⟨d.uri, forest⟩ :: others) interface x.around m.node.symbol := by
  rw [Undisturbed]
  by_cases hkind : m.node.symbol.kind = .interfaceType
  · rw [if_pos hkind, implementationsAt_of_interface hm hkind, map_implementations_eq_iff hkind]
  · rw [if_neg hkind, implementationsAt_of_member huris hm hkind hmember]
    split
    · exact eq_comm.trans List.map_eq_nil_iff
    · exact reported_eq_members_iff hkind

end

end Scope

namespace Project

open Scope

/-- The outlines of a document and of the other source files. -/
def View.outlines (v : View) : List DocumentOutline := ⟨v.document.uri, v.forest⟩ :: v.others

variable {p : Project} {tree : FileTree} {path : Text} {v : View}

theorem others_of_view (h : p.view tree path = .ok v) :
    v.others = p.outlinesBeside tree v.document.uri := by
  rw [view] at h
  cases hload : p.load tree path with
  | error e => rw [hload] at h; nomatch h
  | ok d =>
    rw [hload] at h
    change Except.ok _ = Except.ok v at h
    obtain rfl := Except.ok.inj h
    rfl

theorem nodup_uri_outlines (huris : ((p.workspace.loadAll tree).map (·.uri)).Nodup)
    (h : p.view tree path = .ok v) : (v.outlines.map (·.uri)).Nodup := by
  rw [View.outlines, List.map_cons, List.nodup_cons, others_of_view h, outlinesBeside, List.map_map]
  refine ⟨fun hmem ↦ ?_, huris.sublist (List.filter_sublist.map _)⟩
  obtain ⟨d, hd, huri⟩ := List.mem_map.1 hmem
  rw [List.mem_filter, bne_iff_ne] at hd
  exact hd.2 huri

theorem definition_of_view {position : Position} (hview : p.view tree path = .ok v)
    (hposition : position.line < v.document.lineCount) :
    p.definition tree path position =
      .ok (resolveAt? v.document v.forest v.others position) := by
  have hline : v.requireLine position = .ok () := if_pos hposition
  rw [definition, hview]
  change (v.requireLine position >>= fun _ ↦ _) = _
  rw [hline]
  rfl

/-- A question about a position for which there is a definition has an answer. -/
theorem implementations_of_definition {position : Position} {found : Option Found}
    (hview : p.view tree path = .ok v) (h : p.definition tree path position = .ok found) :
    resolveAt? v.document v.forest v.others position = found ∧
      p.implementations tree path position =
        .ok (implementationsAt v.document v.forest v.others position) := by
  rw [definition, hview] at h
  rw [implementations, hview]
  change (v.requireLine position >>= fun _ ↦ _) = _ at h
  change resolveAt? _ _ _ _ = _ ∧ (v.requireLine position >>= fun _ ↦ _) = _
  cases hline : v.requireLine position with
  | error e => rw [hline] at h; nomatch h
  | ok _ =>
    rw [hline] at h
    exact ⟨Except.ok.inj h, rfl⟩

/-- For a position that stands for a member of an interface, the answer is exactly what implements the
member, each symbol once and in the order of the documents and their sources, if and only if nothing
disturbs the search. -/
theorem implementations_eq_members_iff {position : Position} {m : Found} {x : Occurrence}
    {interface : Symbol} (huris : ((p.workspace.loadAll tree).map (·.uri)).Nodup)
    (hview : p.view tree path = .ok v) (hm : p.definition tree path position = .ok (some m))
    (hmember : InterfaceMember v.outlines m x interface) :
    ((implementingMembers v.outlines interface m.node.symbol).map
        fun f ↦ (f.uri, f.node.place)).Nodup ∧
      (p.implementations tree path position =
          .ok ((implementingMembers v.outlines interface m.node.symbol).map Found.shown) ↔
        Undisturbed v.outlines interface x.around m.node.symbol) := by
  have hnodup := nodup_uri_outlines huris hview
  obtain ⟨hresolve, hanswer⟩ := implementations_of_definition hview hm
  refine ⟨nodup_implementingMembers hnodup, ?_⟩
  rw [hanswer, Except.ok.injEq]
  exact implementationsAt_eq_members_iff hnodup hresolve hmember

/-- A class that implements an interface, and a class inside it with a procedure of the same name. -/
def nestedText : Text :=
  ("Interface IRun\nSub Go()\nEnd Interface\nClass A\nImplements IRun\nSub Go()\nEnd Sub\n" ++
    "Class B\nSub Go()\nEnd Sub\nEnd Class\nEnd Class").toList

def nestedTree : FileTree :=
  .directory [("ws".toList, .directory [("a.vb".toList, .file (FileTree.encode nestedText))])]

def nestedProject : Project :=
  create nestedTree ⟨⟨none, "/xdg".toList⟩, none, none, none⟩ "/ws".toList

def nestedView : View := ⟨⟨"file:///ws/a.vb", nestedText⟩, []⟩

/-- The name of the procedure in the interface. -/
def atMember : Position := ⟨1, 4⟩

theorem loaded_nested :
    nestedProject.workspace.loadAll nestedTree = [nestedView.document] ∧
      (nestedProject.workspace.load nestedTree "/ws/a.vb".toList).toOption =
        some nestedView.document := by
  decide +kernel

theorem found_nested :
    ((resolveAt? nestedView.document nestedView.forest [] atMember).bind fun m ↦
      ((Occurrence.all nestedView.forest).find? fun x ↦ x.node.place == m.node.place).bind fun x ↦
        x.owner?.map fun interface ↦ (m.uri, interface.kind,
          (implementingMembers nestedView.outlines interface m.node.symbol).length)) =
      some ("file:///ws/a.vb", .interfaceType, 1) ∧
    (implementationsAt nestedView.document nestedView.forest [] atMember).length = 2 ∧
    atMember.line < nestedView.document.lineCount := by
  decide +kernel

theorem nodup_uri_nested : ((nestedProject.workspace.loadAll nestedTree).map (·.uri)).Nodup := by
  rw [loaded_nested.1]
  exact List.nodup_singleton _

theorem view_nested : nestedProject.view nestedTree "/ws/a.vb".toList = .ok nestedView := by
  have hload : nestedProject.workspace.load nestedTree "/ws/a.vb".toList = .ok nestedView.document := by
    have h := loaded_nested.2
    cases hload : nestedProject.workspace.load nestedTree "/ws/a.vb".toList with
    | error e => rw [hload] at h; nomatch h
    | ok d => rw [hload] at h; exact congrArg _ (Option.some.inj h)
  have hothers : nestedProject.outlinesBeside nestedTree nestedView.document.uri = [] := by
    rw [outlinesBeside, loaded_nested.1]
    decide +kernel
  rw [view, load, hload]
  change Except.ok (View.mk _ (nestedProject.outlinesBeside nestedTree nestedView.document.uri)) = _
  rw [hothers]
  rfl

theorem exists_member_nested : ∃ m x interface,
    nestedProject.definition nestedTree "/ws/a.vb".toList atMember = .ok (some m) ∧
      InterfaceMember nestedView.outlines m x interface ∧
      (implementingMembers nestedView.outlines interface m.node.symbol).length = 1 := by
  obtain ⟨m, hm, h⟩ := Option.bind_eq_some_iff.1 found_nested.1
  obtain ⟨x, hx, h⟩ := Option.bind_eq_some_iff.1 h
  obtain ⟨interface, howner, h⟩ := Option.map_eq_some_iff.1 h
  rw [Prod.mk.injEq, Prod.mk.injEq] at h
  obtain ⟨huri, hkind, hcount⟩ := h
  have hplace : x.node.place = m.node.place := by simpa using List.find?_some hx
  refine ⟨m, x, interface, ?_, ⟨⟨_, List.mem_cons_self, huri.symm, List.mem_of_find?_eq_some hx⟩,
    hplace, howner, hkind⟩, hcount⟩
  exact (definition_of_view view_nested found_nested.2.2).trans (congrArg Except.ok hm)

theorem implementations_eq_members_iff_nested :
    ((nestedProject.workspace.loadAll nestedTree).map (·.uri)).Nodup ∧
    nestedProject.view nestedTree "/ws/a.vb".toList = .ok nestedView ∧
    ∃ m x interface,
      nestedProject.definition nestedTree "/ws/a.vb".toList atMember = .ok (some m) ∧
      InterfaceMember nestedView.outlines m x interface ∧
      (nestedProject.implementations nestedTree "/ws/a.vb".toList atMember =
          .ok ((implementingMembers nestedView.outlines interface m.node.symbol).map Found.shown) ↔
        Undisturbed nestedView.outlines interface x.around m.node.symbol) := by
  obtain ⟨m, x, interface, hm, hmember, -⟩ := exists_member_nested
  exact ⟨nodup_uri_nested, view_nested, m, x, interface, hm, hmember,
    (implementations_eq_members_iff nodup_uri_nested view_nested hm hmember).2⟩

/-- The procedure of the nested class is reported, although the nested class does not implement the
interface. -/
theorem implementations_nested : ∃ m x interface,
    ((nestedProject.workspace.loadAll nestedTree).map (·.uri)).Nodup ∧
    nestedProject.view nestedTree "/ws/a.vb".toList = .ok nestedView ∧
    nestedProject.definition nestedTree "/ws/a.vb".toList atMember = .ok (some m) ∧
    InterfaceMember nestedView.outlines m x interface ∧
    nestedProject.implementations nestedTree "/ws/a.vb".toList atMember ≠
      .ok ((implementingMembers nestedView.outlines interface m.node.symbol).map Found.shown) := by
  obtain ⟨m, x, interface, hm, hmember, hcount⟩ := exists_member_nested
  refine ⟨m, x, interface, nodup_uri_nested, view_nested, hm, hmember, fun h ↦ ?_⟩
  have hreported := found_nested.2.1
  rw [(implementations_of_definition view_nested hm).2, Except.ok.injEq] at h
  change implementationsAt nestedView.document nestedView.forest [] atMember = _ at h
  rw [h, List.length_map, hcount] at hreported
  exact absurd hreported (by decide)

end Project

end VbOutline
