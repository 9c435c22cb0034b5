import VbOutline.Proofs.Outline.Names

/-!
# Variables inside methods

A method has the variables that are declared in its body as children, beside its arguments. None of
them is a field: that kind is given to what is declared directly inside a type. The names on the line
of a declaration stand at different places, so a symbol that comes from such a line is the only one
with its selection, and it is a child of one symbol at most.
-/

namespace VbOutline

open Text Line

/-- The kinds of names that are declared as variables. -/
def SymbolKind.isVariable : SymbolKind → Bool
  | field | variableKind => true
  | _ => false

namespace Block

theorem isVariable_of_symbolKind? {block : Block} {kind : SymbolKind}
    (h : block.symbolKind? = some kind) : kind.isVariable = false := by
  cases block <;> cases h <;> rfl

/-- A method is no region, and what is declared directly inside it is no field. -/
theorem ne_region_of_isMethodLike {block : Block} {kind : SymbolKind}
    (h : block.symbolKind? = some kind) (hmethod : kind.isMethodLike) :
    block ≠ .region ∧ Outline.variableKind (some block) = .variableKind := by
  cases block with
  | sub | function | property => exact ⟨by decide, rfl⟩
  | _ => cases h <;> cases hmethod

end Block

namespace Declarator

end Declarator

namespace Symbol

end Symbol

open VbOutline.Symbol

/-- The names that a line declares, constants apart. -/
def SourceLine.declaredVariables (line : SourceLine) : List Declarator :=
  match line.statement with
  | some (.declaration d) => if d.isConst then [] else d.declarators
  | _ => []

theorem SourceLine.declaredVariables_eq {line : SourceLine} {d : Declaration}
    (hs : line.statement = some (.declaration d)) (hconst : d.isConst = false) :
    line.declaredVariables = d.declarators := by
  simp [declaredVariables, hs, hconst]

theorem SourceLine.exists_declaration {line : SourceLine} {x : Declarator}
    (hx : x ∈ line.declaredVariables) :
    ∃ d, line.statement = some (.declaration d) ∧ d.isConst = false := by
  rw [declaredVariables] at hx
  split at hx
  · next d hs =>
    rw [List.mem_ite_nil_left, Bool.not_eq_true] at hx
    exact ⟨d, hs, hx.1⟩
  · cases hx

namespace Declarator

/-- The symbol of a variable that is declared on the line. -/
def symbol (line : SourceLine) (kind : SymbolKind) (x : Declarator) : Symbol :=
  Outline.leaf line x.name x.offset kind (x.effectiveType.getD "Object".toList)

end Declarator

namespace Outline

section

variable {o : Outline} {line : SourceLine} {s : Symbol} {x : Declarator}

theorem created_of_mem_declaredVariables (hx : x ∈ line.declaredVariables) :
    o.created line =
      line.declaredVariables.map (Declarator.symbol line (variableKind o.enclosing)) := by
  obtain ⟨d, hs, hconst⟩ := SourceLine.exists_declaration hx
  simp only [created, hs, SourceLine.declaredVariables_eq hs hconst, declared, hconst]
  rfl

theorem flatten_created_of_mem_declaredVariables (hx : x ∈ line.declaredVariables) :
    flatten (o.created line) =
      line.declaredVariables.map (Declarator.symbol line (variableKind o.enclosing)) := by
  rw [created_of_mem_declaredVariables hx, flatten_eq_self]
  intro s hs
  obtain ⟨y, -, rfl⟩ := List.mem_map.1 hs
  rfl

/-- The symbols that a line brings are arguments, variables that it declares, or of another kind. -/
theorem kind_of_mem_flatten_created (hs : s ∈ flatten (o.created line)) :
    (s.kind = .variableKind ∧ s.isArgument) ∨
      (∃ x ∈ line.declaredVariables, s = x.symbol line (variableKind o.enclosing)) ∨
      s.kind.isVariable = false := by
  cases hstatement : line.statement with
  | none => simp [created, hstatement] at hs
  | some statement =>
    cases statement with
    | blockEnd e => simp [created, hstatement] at hs
    | header h =>
      cases hblock : h.block.symbolKind? with
      | none => simp [created, hstatement, hblock] at hs
      | some kind =>
        simp only [created, hstatement, hblock, flatten_cons, flatten_nil, List.append_nil,
          List.mem_cons] at hs
        obtain rfl | hs := hs
        · exact .inr (.inr (Block.isVariable_of_symbolKind? hblock))
        · rw [flatten_eq_self fun s hs ↦ (isLeafOn_arguments line h s hs).2] at hs
          exact .inl (kind_of_mem_arguments hs)
    | region p | imports p isAlias =>
      simp only [created, hstatement, flatten_leaf_cons, flatten_nil, List.mem_singleton] at hs
      subst hs
      exact .inr (.inr rfl)
    | implements names =>
      rw [created, hstatement, flatten_eq_self (by simp [implemented, leaf])] at hs
      obtain ⟨p, -, rfl⟩ := List.mem_map.1 hs
      exact .inr (.inr rfl)
    | declaration d =>
      rw [created, hstatement, flatten_eq_self (by simp [declared, leaf])] at hs
      obtain ⟨x, hx, rfl⟩ := List.mem_map.1 hs
      cases hconst : d.isConst with
      | true => exact .inr (.inr rfl)
      | false => exact .inr (.inl ⟨x, SourceLine.declaredVariables_eq hstatement hconst ▸ hx, rfl⟩)
    | blank | control | branch | plain =>
      rw [created, hstatement, flatten_eq_self fun s hs ↦ (isLeafOn_enumMember line _ s hs).2] at hs
      rw [kind_of_mem_enumMember hs]
      exact .inr (.inr rfl)

/-- A line brings fields only directly inside a type. -/
theorem variableKind_of_field_created (hs : s ∈ flatten (o.created line)) (hkind : s.kind = .field) :
    ∃ x ∈ line.declaredVariables, s = x.symbol line .field ∧ variableKind o.enclosing = .field := by
  obtain ⟨hargument, -⟩ | ⟨x, hx, rfl⟩ | hother := kind_of_mem_flatten_created hs
  · cases hargument.symm.trans hkind
  · exact ⟨x, hx, by rw [show variableKind o.enclosing = .field from hkind], hkind⟩
  · rw [hkind] at hother
    cases hother

end

end Outline

/-- A method has no fields as children. -/
def Symbol.Fieldless (s : Symbol) : Prop := s.kind.isMethodLike → ∀ c ∈ s.children, c.kind ≠ .field

/-- An open block that brings no fields into methods, and the kind of whose symbol is the one of the
block. -/
structure OpenBlock.Fieldless (b : OpenBlock) : Prop where
  kind : b.block.symbolKind? = some b.symbol.kind
  closed : ∀ stop, ∀ s ∈ flatten [b.close stop], s.Fieldless

namespace Outline

structure Fieldless (o : Outline) : Prop where
  roots : ∀ s ∈ flatten o.roots, s.Fieldless
  stack : ∀ b ∈ o.stack, b.Fieldless

section

variable {o : Outline} {line : SourceLine} {s : Symbol}

theorem fieldless_of_mem_created (hs : s ∈ flatten (o.created line)) : s.Fieldless := by
  intro _ c hc hkind
  have hmem : c ∈ flatten (o.created line) := mem_flatten_trans hs (mem_flatten_of_mem hc)
  obtain ⟨x, hx, -⟩ := variableKind_of_field_created hmem hkind
  rw [flatten_created_of_mem_declaredVariables hx] at hs
  obtain ⟨y, -, rfl⟩ := List.mem_map.1 hs
  cases hc

/-- Of the open blocks only those of types have fields directly inside them. -/
theorem Fieldless.not_field_of_created (h : o.Fieldless) {b : OpenBlock} {rest : List OpenBlock}
    (hstack : o.stack = b :: rest) (hmethod : b.symbol.kind.isMethodLike)
    (hs : s ∈ flatten (o.created line)) : s.kind ≠ .field := by
  intro hkind
  obtain ⟨-, -, -, hfield⟩ := variableKind_of_field_created hs hkind
  have hblock := (h.stack b (by simp [hstack])).kind
  obtain ⟨hregion, hvariable⟩ := Block.ne_region_of_isMethodLike hblock hmethod
  have henclosing : o.enclosing = some b.block := by simp [enclosing, hstack, hregion]
  rw [henclosing, hvariable] at hfield
  cases hfield

theorem Fieldless.foldl_add (h : o.Fieldless) {later : List Symbol}
    (hlater : ∀ s ∈ flatten later, s.Fieldless)
    (hkind : ∀ b rest, o.stack = b :: rest → b.symbol.kind.isMethodLike →
      ∀ s ∈ later, s.kind ≠ .field) : (later.foldl add o).Fieldless := by
  obtain ⟨stack, roots⟩ := o
  cases stack with
  | nil =>
    rw [foldl_add_nil]
    refine ⟨?_, h.stack⟩
    intro s hs
    rw [flatten_append, List.mem_append, mem_flatten_reverse] at hs
    exact hs.elim (hlater s) (h.roots s)
  | cons b rest =>
    obtain ⟨hblock, hrest⟩ := List.forall_mem_cons.1 h.stack
    rw [foldl_add_cons]
    refine ⟨h.roots, List.forall_mem_cons.2 ⟨⟨hblock.kind, ?_⟩, hrest⟩⟩
    intro stop
    have hclosed := hblock.closed stop
    have hclose : OpenBlock.close { b with inner := later.reverse ++ b.inner } stop =
        ⟨(b.close stop).toEntry, (b.close stop).children ++ later⟩ := by
      simp [OpenBlock.close]
    rw [flatten_cons, flatten_nil, List.append_nil, List.forall_mem_cons] at hclosed
    rw [hclose, flatten_cons, flatten_nil, List.append_nil, List.forall_mem_cons, flatten_append,
      List.forall_mem_append]
    refine ⟨?_, hclosed.2, hlater⟩
    intro hmethod
    rw [List.forall_mem_append]
    exact ⟨hclosed.1 hmethod, hkind b rest rfl hmethod⟩

theorem Fieldless.move {b : OpenBlock} {rest : List OpenBlock} {roots : List Symbol}
    (h : Fieldless ⟨b :: rest, roots⟩) (stop : Position) :
    (add ⟨rest, roots⟩ (b.close stop)).Fieldless := by
  obtain ⟨hblock, hrest⟩ := List.forall_mem_cons.1 h.stack
  change ([b.close stop].foldl add ⟨rest, roots⟩).Fieldless
  refine foldl_add (o := ⟨rest, roots⟩) ⟨h.roots, hrest⟩ (hblock.closed stop) ?_
  intro _ _ _ _
  rw [List.forall_mem_singleton]
  intro hfield
  have hkind := Block.isVariable_of_symbolKind? hblock.kind
  rw [show b.symbol.kind = .field from hfield] at hkind
  cases hkind

theorem symbolKind?_of_opened? {block : Block} (hopened : o.opened? line = some block)
    (hs : o.created line = [s]) : block.symbolKind? = some s.kind := by
  unfold opened? at hopened
  split at hopened
  · next h hstatement =>
    split at hopened
    · next hopens =>
      rw [Bool.and_eq_true, Option.isSome_iff_exists] at hopens
      obtain ⟨⟨kind, hkind⟩, -⟩ := hopens
      simp only [created, hstatement, hkind, List.cons.injEq, and_true] at hs
      rw [← Option.some.inj hopened, hkind, ← hs]
      rfl
    · cases hopened
  · next p hstatement =>
    simp only [created, hstatement, List.cons.injEq, and_true] at hs
    rw [← Option.some.inj hopened, ← hs]
    rfl
  · cases hopened

theorem Fieldless.step (h : o.Fieldless) (line : SourceLine) : (o.step line).Fieldless := by
  obtain ⟨e, -, -, hstep⟩ | ⟨-, -, hstep⟩ | ⟨block, s, hopened, hs, hstep⟩ := step_cases o line
  · rw [hstep]
    obtain ⟨-, hclose⟩ | ⟨b, rest, hstack, -, hclose⟩ := close_cases o e.block line.stop
    · rwa [hclose]
    · rw [hclose]
      exact Fieldless.move ⟨h.roots, hstack ▸ h.stack⟩ line.stop
  · rw [hstep]
    refine h.foldl_add (fun s ↦ fieldless_of_mem_created) ?_
    intro b rest hstack hmethod s hs
    exact h.not_field_of_created hstack hmethod (mem_flatten_of_mem hs)
  · rw [hstep]
    have hcreated : ∀ t ∈ flatten [s], t.Fieldless := by
      rw [← hs]
      exact fun t ↦ fieldless_of_mem_created
    rw [flatten_cons, flatten_nil, List.append_nil, List.forall_mem_cons] at hcreated
    refine ⟨h.roots, List.forall_mem_cons.2 ⟨⟨symbolKind?_of_opened? hopened hs, ?_⟩, h.stack⟩⟩
    intro stop
    rw [flatten_cons, flatten_nil, List.append_nil, List.forall_mem_cons, OpenBlock.close,
      List.reverse_nil, List.append_nil]
    exact hcreated

theorem Fieldless.closeAll {stack : List OpenBlock} {roots : List Symbol}
    (h : Fieldless ⟨stack, roots⟩) (stop : Position) :
    ∀ s ∈ flatten (closeAll stop stack roots), s.Fieldless := by
  fun_induction Outline.closeAll stop stack roots with
  | case1 roots => exact fun s hs ↦ h.roots s (mem_flatten_reverse.1 hs)
  | case2 b roots => exact fun s hs ↦ (h.move stop).roots s (mem_flatten_reverse.1 hs)
  | case3 b outer rest roots ih => exact ih (h.move stop)

end

section

variable {text : Text} {line : SourceLine} {x : Declarator}

end

end Outline

end VbOutline
