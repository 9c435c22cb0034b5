import Mathlib.Data.List.Forall2
import VbOutline.Proofs.Outline.Steps
import VbOutline.Proofs.Symbol.Regions

/-!
# Outlines that are alike

Two forests are alike up to a relation of entries if they have the same shape and related entries at
the same places. What is taken from a forest without telling related entries apart is taken from
alike forests alike.

Two documents have alike outlines if their lines are alike one by one: each line brings symbols that
are alike, opens the same block and closes the same block. This is an argument about two runs of the
pass, whose states stay alike.
-/

namespace VbOutline

/-! ## Forests -/

namespace Symbol

/-- Forests of the same shape with related entries at the same places. -/
inductive Alike (R : Entry → Entry → Prop) : List Symbol → List Symbol → Prop
  | nil : Alike R [] []
  | cons {s t : Symbol} {rest rest' : List Symbol} (entry : R s.toEntry t.toEntry)
      (children : Alike R s.children t.children) (others : Alike R rest rest') :
      Alike R (s :: rest) (t :: rest')

namespace Alike

variable {R : Entry → Entry → Prop} {left left' right right' forest forest' : List Symbol}

theorem refl (hR : ∀ e, R e e) (forest : List Symbol) : Alike R forest forest := by
  induction forest using forest_induction with
  | nil => exact .nil
  | cons s rest ihchildren ihrest => exact .cons (hR s.toEntry) ihchildren ihrest

theorem append (h : Alike R left left') (hright : Alike R right right') :
    Alike R (left ++ right) (left' ++ right') := by
  induction h with
  | nil => exact hright
  | cons entry children _ _ ih => exact .cons entry children ih

theorem of_map {α : Type} {xs : List α} {f g : α → Symbol}
    (h : ∀ x ∈ xs, Alike R [f x] [g x]) : Alike R (xs.map f) (xs.map g) := by
  induction xs with
  | nil => exact .nil
  | cons x xs ih =>
    rw [List.forall_mem_cons] at h
    exact append h.1 (ih h.2)

theorem reverse (h : Alike R forest forest') : Alike R forest.reverse forest'.reverse := by
  induction h with
  | nil => exact .nil
  | cons entry children _ _ ih =>
    rw [List.reverse_cons, List.reverse_cons]
    exact ih.append (.cons entry children .nil)

theorem flatten (h : Alike R forest forest') :
    Alike R (Symbol.flatten forest) (Symbol.flatten forest') := by
  induction h with
  | nil => exact .nil
  | cons entry children _ ihchildren ihrest =>
    rw [flatten_cons, flatten_cons]
    exact .cons entry children (ihchildren.append ihrest)

theorem filter {p q : Entry → Bool} (hpq : ∀ {e f}, R e f → p e = q f)
    (h : Alike R forest forest') :
    Alike R (forest.filter fun s ↦ p s.toEntry) (forest'.filter fun s ↦ q s.toEntry) := by
  induction h with
  | nil => exact .nil
  | @cons s t _ _ entry children _ _ ih =>
    rw [List.filter_cons, List.filter_cons, ← hpq entry]
    cases p s.toEntry with
    | true => exact .cons entry children ih
    | false => exact ih

theorem flatMap_eq {α : Type} {f g : Symbol → List α}
    (hfg : ∀ {s t : Symbol}, R s.toEntry t.toEntry → Alike R s.children t.children → f s = g t)
    (h : Alike R forest forest') : forest.flatMap f = forest'.flatMap g := by
  induction h with
  | nil => rfl
  | cons entry children _ _ ih => rw [List.flatMap_cons, List.flatMap_cons, hfg entry children, ih]

theorem map_eq {α : Type} {f g : Symbol → α}
    (hfg : ∀ {s t : Symbol}, R s.toEntry t.toEntry → Alike R s.children t.children → f s = g t)
    (h : Alike R forest forest') : forest.map f = forest'.map g := by
  rw [List.map_eq_flatMap, List.map_eq_flatMap]
  exact h.flatMap_eq fun entry children ↦ by rw [hfg entry children]

theorem any_eq {p q : Entry → Bool} (hpq : ∀ {e f}, R e f → p e = q f)
    (h : Alike R forest forest') :
    (forest.any fun s ↦ p s.toEntry) = forest'.any fun s ↦ q s.toEntry := by
  induction h with
  | nil => rfl
  | cons entry _ _ _ ih => rw [List.any_cons, List.any_cons, hpq entry, ih]

/-- A search that cannot tell related entries apart finds related symbols, or nothing. -/
theorem find? {p q : Entry → Bool} (hpq : ∀ {e f}, R e f → p e = q f)
    (h : Alike R forest forest') :
    Option.Rel (fun s t ↦ Alike R [s] [t]) (forest.find? fun s ↦ p s.toEntry)
      (forest'.find? fun s ↦ q s.toEntry) := by
  induction h with
  | nil => exact .none
  | @cons s t _ _ entry children _ _ ih =>
    rw [List.find?_cons, List.find?_cons, ← hpq entry]
    cases p s.toEntry with
    | true => exact .some (.cons entry children .nil)
    | false => exact ih

theorem seenIn (hkind : ∀ {e f}, R e f → e.kind = f.kind) (h : Alike R forest forest') :
    Alike R (Symbol.seenIn forest) (Symbol.seenIn forest') := by
  induction h with
  | nil => exact .nil
  | cons entry children _ ihchildren ihrest =>
    rw [seenIn_cons, seenIn_cons, ← hkind entry]
    refine append ?_ ihrest
    split
    · exact ihchildren
    · exact .cons entry children .nil

theorem topLevelSymbols (hkind : ∀ {e f}, R e f → e.kind = f.kind)
    (himplements : ∀ {e f}, R e f → e.isImplements = f.isImplements) (h : Alike R forest forest') :
    Alike R (Scope.topLevelSymbols forest) (Scope.topLevelSymbols forest') := by
  induction h with
  | nil => exact .nil
  | @cons s t _ _ entry children _ ihchildren ihrest =>
    have hdefinition : s.isDefinition = t.isDefinition := by
      rw [Entry.isDefinition, Entry.isDefinition, hkind entry, himplements entry]
    rw [Scope.topLevelSymbols_cons, Scope.topLevelSymbols_cons, ← hkind entry, ← hdefinition]
    refine append ?_ ihrest
    split
    · exact ihchildren
    · split
      · exact .cons entry children .nil
      · exact .nil

theorem symm (hR : ∀ {e f}, R e f → R f e) (h : Alike R forest forest') :
    Alike R forest' forest := by
  induction h with
  | nil => exact .nil
  | cons entry _ _ ihchildren ihrest => exact .cons (hR entry) ihchildren ihrest

theorem trans {S T : Entry → Entry → Prop} {forest'' : List Symbol}
    (hRST : ∀ {e f g}, R e f → S f g → T e g) (h : Alike R forest forest')
    (h' : Alike S forest' forest'') :
    Alike T forest forest'' := by
  induction h generalizing forest'' with
  | nil => cases h'; exact .nil
  | cons entry _ _ ihchildren ihrest =>
    cases h' with
    | cons entry' children' rest' =>
      exact .cons (hRST entry entry') (ihchildren children') (ihrest rest')

end Alike

end Symbol

/-! ## The pass -/

/-- Open blocks of the same kind with symbols that are alike. -/
structure OpenBlock.Alike (R : Entry → Entry → Prop) (b c : OpenBlock) : Prop where
  block : b.block = c.block
  symbol : Symbol.Alike R [b.symbol] [c.symbol]
  inner : Symbol.Alike R b.inner c.inner

theorem OpenBlock.Alike.close {R : Entry → Entry → Prop} {b c : OpenBlock} (h : b.Alike R c)
    {stop stop' : Position}
    (hstop : ∀ {e f}, R e f → R (e.endingAt stop) (f.endingAt stop')) :
    Symbol.Alike R [b.close stop] [c.close stop'] := by
  cases h.symbol with
  | cons entry arguments _ => exact .cons (hstop entry) (arguments.append h.inner.reverse) .nil

namespace Outline

open VbOutline.Symbol

theorem step_of_blockEnd {o : Outline} {line : SourceLine} {e : BlockEnd}
    (h : line.statement = some (.blockEnd e)) : o.step line = o.close e.block line.stop := by
  rw [step, h]

theorem step_of_opened?_eq_none {o : Outline} {line : SourceLine}
    (h : ∀ e, line.statement ≠ some (.blockEnd e)) (hnone : o.opened? line = none) :
    o.step line = (o.created line).foldl add o := by
  obtain ⟨e, he, -⟩ | ⟨-, -, hstep⟩ | ⟨block, _, hsome, -⟩ := step_cases o line
  · exact absurd he (h e)
  · exact hstep
  · rw [hnone] at hsome
    cases hsome

theorem step_of_opened?_eq_some {o : Outline} {line : SourceLine} {block : Block} {s : Symbol}
    (h : o.opened? line = some block) (hs : o.created line = [s]) :
    o.step line = o.push block s := by
  obtain ⟨e, he, -⟩ | ⟨-, hnone, -⟩ | ⟨_, _, hsome, hcreated, hstep⟩ := step_cases o line
  · simp [opened?, he] at h
  · rw [hnone] at h
    cases h
  · obtain rfl := Option.some.inj (h.symm.trans hsome)
    obtain ⟨⟩ := hs.symm.trans hcreated
    exact hstep

/-- The symbols of a line depend on the state only through the enclosing block. -/
theorem created_congr {o p : Outline} (h : o.enclosing = p.enclosing) (line : SourceLine) :
    o.created line = p.created line := by
  unfold created
  rw [h]

theorem opened?_congr {o p : Outline} (h : o.enclosing = p.enclosing) (line : SourceLine) :
    o.opened? line = p.opened? line := by
  unfold opened?
  rw [h]

/-- States of the pass with open blocks that are alike, and roots that are alike. -/
structure Alike (R : Entry → Entry → Prop) (o p : Outline) : Prop where
  stack : List.Forall₂ (OpenBlock.Alike R) o.stack p.stack
  roots : Symbol.Alike R o.roots p.roots

/-- Lines that do the same in states that are alike. -/
structure LinesAlike (R : Entry → Entry → Prop) (line line' : SourceLine) : Prop where
  closes : ∀ e, line.statement = some (.blockEnd e) ↔ line'.statement = some (.blockEnd e)
  created : ∀ {o p : Outline}, o.enclosing = p.enclosing →
    Symbol.Alike R (o.created line) (p.created line')
  opened : ∀ {o p : Outline}, o.enclosing = p.enclosing → o.opened? line = p.opened? line'
  stop : ∀ {e f}, R e f → R (e.endingAt line.stop) (f.endingAt line'.stop)

namespace Alike

variable {R : Entry → Entry → Prop} {o p : Outline}

theorem enclosing (h : o.Alike R p) : o.enclosing = p.enclosing := by
  obtain ⟨stack, roots⟩ := o
  obtain ⟨stack', roots'⟩ := p
  obtain ⟨hstack, -⟩ := h
  rw [Outline.enclosing, Outline.enclosing]
  dsimp only at hstack ⊢
  induction hstack with
  | nil => rfl
  | @cons b c _ _ hblock _ ih =>
    rw [List.find?_cons, List.find?_cons, hblock.block]
    cases c.block != .region with
    | true => exact congrArg some hblock.block
    | false => exact ih

theorem foldl_add (h : o.Alike R p) {symbols symbols' : List Symbol}
    (hsymbols : Symbol.Alike R symbols symbols') :
    (symbols.foldl add o).Alike R (symbols'.foldl add p) := by
  obtain ⟨stack, roots⟩ := o
  obtain ⟨stack', roots'⟩ := p
  obtain ⟨hstack, hroots⟩ := h
  cases hstack with
  | nil =>
    rw [foldl_add_nil, foldl_add_nil]
    exact ⟨.nil, hsymbols.reverse.append hroots⟩
  | cons hblock hrest =>
    rw [foldl_add_cons, foldl_add_cons]
    exact ⟨.cons ⟨hblock.block, hblock.symbol, hsymbols.reverse.append hblock.inner⟩ hrest, hroots⟩

theorem push (h : o.Alike R p) (block : Block) {s t : Symbol} (hs : Symbol.Alike R [s] [t]) :
    (o.push block s).Alike R (p.push block t) :=
  ⟨.cons ⟨rfl, hs, .nil⟩ h.stack, h.roots⟩

theorem close (h : o.Alike R p) (block : Block) {stop stop' : Position}
    (hstop : ∀ {e f}, R e f → R (e.endingAt stop) (f.endingAt stop')) :
    (o.close block stop).Alike R (p.close block stop') := by
  obtain ⟨stack, roots⟩ := o
  obtain ⟨stack', roots'⟩ := p
  obtain ⟨hstack, hroots⟩ := h
  cases hstack with
  | nil => exact ⟨.nil, hroots⟩
  | @cons b c _ _ hblock hrest =>
    simp only [Outline.close, hblock.block]
    split
    · exact foldl_add (o := ⟨_, roots⟩) (p := ⟨_, roots'⟩) ⟨hrest, hroots⟩ (hblock.close hstop)
    · exact ⟨.cons hblock hrest, hroots⟩

/-- Lines that bring the same symbols up to `R` keep two states alike. -/
theorem step (h : o.Alike R p) {line line' : SourceLine} (hline : LinesAlike R line line') :
    (o.step line).Alike R (p.step line') := by
  have henclosing := h.enclosing
  have hcreated := hline.created henclosing
  have hopened := hline.opened henclosing
  obtain ⟨e, he, -, hstep⟩ | ⟨hnot, hnone, hstep⟩ | ⟨block, s, hsome, hs, hstep⟩ :=
    step_cases o line
  · rw [hstep, step_of_blockEnd ((hline.closes e).1 he)]
    exact h.close e.block hline.stop
  · have hnot' (e : BlockEnd) (he : line'.statement = some (.blockEnd e)) : False :=
      hnot e ((hline.closes e).2 he)
    rw [hstep, step_of_opened?_eq_none hnot' (hopened ▸ hnone)]
    exact h.foldl_add hcreated
  · rw [hs] at hcreated
    cases hcreated' : p.created line' with
    | nil => rw [hcreated'] at hcreated; cases hcreated
    | cons t rest =>
      rw [hcreated'] at hcreated
      obtain rfl : rest = [] := by
        cases hcreated with
        | cons _ _ others => cases others; rfl
      rw [hstep, step_of_opened?_eq_some (hopened ▸ hsome) hcreated']
      exact h.push block hcreated

theorem foldl_step {lines lines' : List SourceLine}
    (hlines : List.Forall₂ (LinesAlike R) lines lines')
    (h : o.Alike R p) : (lines.foldl Outline.step o).Alike R (lines'.foldl Outline.step p) := by
  induction hlines generalizing o p with
  | nil => exact h
  | cons hline _ ih => exact ih (h.step hline)

theorem closeAll {stack stack' : List OpenBlock} {roots roots' : List Symbol}
    (hstack : List.Forall₂ (OpenBlock.Alike R) stack stack') (hroots : Symbol.Alike R roots roots')
    {stop stop' : Position} (hstop : ∀ {e f}, R e f → R (e.endingAt stop) (f.endingAt stop')) :
    Symbol.Alike R (closeAll stop stack roots) (closeAll stop' stack' roots') := by
  fun_induction Outline.closeAll stop stack roots generalizing stack' roots' with
  | case1 roots =>
    cases hstack
    rw [Outline.closeAll]
    exact hroots.reverse
  | case2 b roots =>
    obtain _ | ⟨hblock, hrest⟩ := hstack
    cases hrest
    rw [Outline.closeAll]
    exact ((hblock.close hstop).append hroots).reverse
  | case3 b outer rest roots ih =>
    obtain _ | ⟨hblock, _ | ⟨houter, hrest⟩⟩ := hstack
    rw [Outline.closeAll]
    have hinner := (hblock.close hstop).append houter.inner
    exact ih (.cons ⟨houter.block, houter.symbol, hinner⟩ hrest) hroots

end Alike

theorem stop_endOf {R : Entry → Entry → Prop} {lines lines' : List SourceLine}
    (h : List.Forall₂ (LinesAlike R) lines lines') (hne : lines ≠ []) {e f : Entry} (hef : R e f) :
    R (e.endingAt (endOf lines)) (f.endingAt (endOf lines')) := by
  induction h with
  | nil => exact absurd rfl hne
  | cons hline hrest ih =>
    cases hrest with
    | nil => exact hline.stop hef
    | cons _ _ =>
      rw [endOf, endOf, List.getLast?_cons_cons, List.getLast?_cons_cons]
      exact ih (List.cons_ne_nil _ _)

/-- Lines that bring the same symbols up to `R` give the same outline up to `R`. -/
theorem alike_ofLines {R : Entry → Entry → Prop} {lines lines' : List SourceLine}
    (h : List.Forall₂ (LinesAlike R) lines lines') :
    Symbol.Alike R (ofLines lines) (ofLines lines') := by
  by_cases hne : lines = []
  · subst hne
    cases h
    have hempty : ofLines [] = [] := by simp [ofLines, finish, start, closeAll]
    rw [hempty]
    exact .nil
  · have hrun := Alike.foldl_step h (o := start) (p := start) ⟨.nil, .nil⟩
    exact Alike.closeAll hrun.stack hrun.roots (stop_endOf h hne)

end Outline

end VbOutline
