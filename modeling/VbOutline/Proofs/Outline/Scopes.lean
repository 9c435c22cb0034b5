import VbOutline.Proofs.Outline.Steps
import VbOutline.Proofs.Source.Lines

/-!
# The scopes of an outline

Methods, types, namespaces and regions open scopes: names can be declared inside them. A line brings
at most one such symbol, so of two scopes the one that comes later in the pre-order of the forest
begins on a later line. Only a symbol that opens a scope has other symbols inside it.
-/

namespace VbOutline

open Text VbOutline.Symbol

namespace Symbol

theorem mem_flatten_reverse {s : Symbol} {forest : List Symbol} :
    s ∈ flatten forest.reverse ↔ s ∈ flatten forest := by
  induction forest with
  | nil => rfl
  | cons t rest ih =>
    rw [List.reverse_cons, flatten_append, List.mem_append, ih, flatten_cons, flatten_cons,
      flatten_nil, List.append_nil, List.mem_append, or_comm]

end Symbol

/-- The property holds of what is inside the block, and of its symbol whenever and with whatever else
the block is closed. -/
structure OpenBlock.Keeps (P : Symbol → Prop) (b : OpenBlock) : Prop where
  closed : ∀ inner stop, P (OpenBlock.close ⟨b.block, b.symbol, inner⟩ stop)
  arguments : ∀ s ∈ flatten b.symbol.children, P s
  inner : ∀ s ∈ flatten b.inner, P s

theorem OpenBlock.Keeps.close {P : Symbol → Prop} {b : OpenBlock} (h : b.Keeps P)
    (stop : Position) : ∀ s ∈ flatten [b.close stop], P s := by
  intro s hs
  simp only [flatten_cons, flatten_nil, List.append_nil, List.mem_cons] at hs
  obtain rfl | hs := hs
  · exact h.closed b.inner stop
  · rw [OpenBlock.close, flatten_append, List.mem_append, mem_flatten_reverse] at hs
    exact hs.elim (h.arguments s) (h.inner s)

namespace Outline

structure Keeps (P : Symbol → Prop) (o : Outline) : Prop where
  roots : ∀ s ∈ flatten o.roots, P s
  stack : ∀ b ∈ o.stack, b.Keeps P

section

variable {P : Symbol → Prop} {o : Outline}

theorem Keeps.foldl_add (h : o.Keeps P) {later : List Symbol} (hlater : ∀ s ∈ flatten later, P s) :
    (later.foldl add o).Keeps P := by
  have hadded {symbols : List Symbol} (hsymbols : ∀ s ∈ flatten symbols, P s) :
      ∀ s ∈ flatten (later.reverse ++ symbols), P s := by
    intro s hs
    rw [flatten_append, List.mem_append, mem_flatten_reverse] at hs
    exact hs.elim (hlater s) (hsymbols s)
  obtain ⟨stack, roots⟩ := o
  cases stack with
  | nil =>
    rw [foldl_add_nil]
    exact ⟨hadded h.roots, h.stack⟩
  | cons b rest =>
    have hstack := List.forall_mem_cons.1 h.stack
    rw [foldl_add_cons]
    refine ⟨h.roots, List.forall_mem_cons.2 ⟨?_, hstack.2⟩⟩
    exact ⟨hstack.1.closed, hstack.1.arguments, hadded hstack.1.inner⟩

theorem Keeps.move {b : OpenBlock} {rest : List OpenBlock} {roots : List Symbol}
    (h : Keeps P ⟨b :: rest, roots⟩) (stop : Position) :
    (add ⟨rest, roots⟩ (b.close stop)).Keeps P := by
  have hstack := List.forall_mem_cons.1 h.stack
  exact foldl_add (o := ⟨rest, roots⟩) ⟨h.roots, hstack.2⟩ (hstack.1.close stop)

theorem Keeps.step (h : o.Keeps P) {line : SourceLine}
    (hcreated : ∀ s ∈ flatten (o.created line), P s)
    (hclosed : ∀ block s, o.opened? line = some block → o.created line = [s] →
      ∀ inner stop, P (OpenBlock.close ⟨block, s, inner⟩ stop)) : (o.step line).Keeps P := by
  obtain ⟨e, -, -, hstep⟩ | ⟨-, -, hstep⟩ | ⟨block, s, hopened, hs, hstep⟩ := step_cases o line
  · rw [hstep]
    obtain ⟨-, hclose⟩ | ⟨b, rest, hstack, -, hclose⟩ := close_cases o e.block line.stop
    · rwa [hclose]
    · rw [hclose]
      exact Keeps.move ⟨h.roots, hstack ▸ h.stack⟩ line.stop
  · rw [hstep]
    exact h.foldl_add hcreated
  · rw [hstep]
    refine ⟨h.roots, List.forall_mem_cons.2 ⟨⟨hclosed block s hopened hs, ?_, by simp⟩, h.stack⟩⟩
    intro c hc
    apply hcreated
    simp [hs, hc]

theorem Keeps.closeAll {stack : List OpenBlock} {roots : List Symbol} (h : Keeps P ⟨stack, roots⟩)
    (stop : Position) : ∀ s ∈ flatten (closeAll stop stack roots), P s := by
  fun_induction Outline.closeAll stop stack roots with
  | case1 roots =>
    intro s hs
    exact h.roots s (mem_flatten_reverse.1 hs)
  | case2 b roots =>
    intro s hs
    exact (h.move stop).roots s (mem_flatten_reverse.1 hs)
  | case3 b outer rest roots ih => exact ih (h.move stop)

end

/-! ## The scopes of one line -/

/-- The detail of an interface is not that of a mark. -/
theorem isPrefixOf_detail {h : Header} (hkind : h.block.symbolKind? = some .interfaceType) :
    Entry.implementsMark.isPrefixOf h.detail = false := by
  have hblock : h.block = .interfaceType := by
    revert hkind
    cases h.block <;> simp [Block.symbolKind?]
  rw [Header.detail, hblock]
  rfl

theorem opensScope_header (line : SourceLine) {h : Header} {kind : SymbolKind}
    (hkind : h.block.symbolKind? = some kind) :
    (entry line h.name h.nameOffset kind h.detail).opensScope := by
  have hmark : (entry line h.name h.nameOffset kind h.detail).isImplements = false := by
    rw [Entry.isImplements, Bool.and_eq_false_imp]
    intro hinterface
    obtain rfl : kind = .interfaceType := beq_iff_eq.1 hinterface
    exact isPrefixOf_detail hkind
  have hblocks (block : Block) : block.symbolKind?.all
      fun kind ↦ kind.isMethodLike || kind.isType || kind.isContainer := by
    cases block <;> rfl
  have hscope := hblocks h.block
  rw [hkind, Option.all_some] at hscope
  rw [Entry.opensScope, hmark]
  exact hscope

theorem not_opensScope_of_kind {e : Entry}
    (hkind : (e.kind.isMethodLike || e.kind.isType || e.kind.isContainer) = false) :
    e.opensScope = false := by
  rw [Entry.opensScope, hkind, Bool.and_false]

section

variable {line : SourceLine}

theorem not_opensScope_arguments {h : Header} {s : Symbol} (hs : s ∈ arguments line h) :
    s.opensScope = false := by
  unfold arguments at hs
  split at hs
  · obtain ⟨a, -, rfl⟩ := List.mem_map.1 hs
    exact not_opensScope_of_kind rfl
  · cases hs

theorem not_opensScope_declared {around : Option Block} {d : Declaration} {s : Symbol}
    (hs : s ∈ declared line around d) : s.opensScope = false := by
  obtain ⟨x, -, rfl⟩ := List.mem_map.1 hs
  apply not_opensScope_of_kind
  rw [leaf, entry]
  split
  · rfl
  · unfold variableKind
    split <;> rfl

theorem not_opensScope_implemented {names : List PlacedName} {s : Symbol}
    (hs : s ∈ implemented line names) : s.opensScope = false := by
  obtain ⟨p, -, rfl⟩ := List.mem_map.1 hs
  have hmark : Entry.implementsMark.isPrefixOf (Entry.implementsMark ++ p.name) :=
    List.isPrefixOf_iff_prefix.2 (List.prefix_append _ _)
  simp [leaf, entry, Entry.opensScope, Entry.isImplements, hmark]

theorem not_opensScope_enumMember {around : Option Block} {s : Symbol}
    (hs : s ∈ enumMember line around) : s.opensScope = false := by
  unfold enumMember at hs
  split at hs
  · split at hs
    · rw [List.mem_singleton.1 hs]
      exact not_opensScope_of_kind rfl
    · cases hs
  · cases hs

variable {o : Outline}

theorem range_of_mem_flatten_created {s : Symbol} (hs : s ∈ flatten (o.created line)) :
    s.range = line.whole := by
  obtain hleaves | ⟨t, hcreated, hrange, hchildren⟩ := created_shape o line
  · rw [flatten_eq_self fun t ht ↦ (hleaves t ht).2] at hs
    exact (hleaves s hs).1
  · rw [hcreated, flatten_cons, flatten_eq_self fun c hc ↦ (hchildren c hc).2, flatten_nil,
      List.append_nil, List.mem_cons] at hs
    obtain rfl | hs := hs
    · exact hrange
    · exact (hchildren s hs).1

/-- A line brings one symbol that opens a scope, in front of its arguments, or none. -/
theorem scopes_created (o : Outline) (line : SourceLine) :
    (∃ s arguments, flatten (o.created line) = s :: arguments ∧ s.opensScope ∧
      ∀ a ∈ arguments, a.opensScope = false ∧ a.children = []) ∨
    ∀ s ∈ flatten (o.created line), s.opensScope = false ∧ s.children = [] := by
  have hleaves {symbols : List Symbol} (hshape : ∀ s ∈ symbols, IsLeafOn line s)
      (hscope : ∀ s ∈ symbols, s.opensScope = false) :
      ∀ s ∈ flatten symbols, s.opensScope = false ∧ s.children = [] := by
    intro s hs
    rw [flatten_eq_self fun t ht ↦ (hshape t ht).2] at hs
    exact ⟨hscope s hs, (hshape s hs).2⟩
  cases hstatement : line.statement with
  | none => exact .inr (by simp [created, hstatement])
  | some statement =>
    cases statement with
    | blockEnd e => exact .inr (by simp [created, hstatement])
    | header h =>
      cases hkind : h.block.symbolKind? with
      | none => exact .inr (by simp [created, hstatement, hkind])
      | some kind =>
        left
        refine ⟨⟨entry line h.name h.nameOffset kind h.detail, arguments line h⟩, arguments line h,
          ?_, opensScope_header line hkind, ?_⟩
        · simp [created, hstatement, hkind,
            flatten_eq_self fun a ha ↦ (isLeafOn_arguments line h a ha).2]
        · intro a ha
          exact ⟨not_opensScope_arguments ha, (isLeafOn_arguments line h a ha).2⟩
    | region p =>
      left
      refine ⟨leaf line p.name p.offset .container Block.region.keyword.toList, [], ?_, rfl, by simp⟩
      simp [created, hstatement, leaf]
    | imports p isAlias =>
      right
      rw [created, hstatement]
      apply hleaves
      · simp [isLeafOn_leaf]
      · intro s hs
        rw [List.mem_singleton.1 hs]
        exact not_opensScope_of_kind rfl
    | implements names =>
      right
      rw [created, hstatement]
      exact hleaves (by simp [implemented, isLeafOn_leaf]) fun s ↦ not_opensScope_implemented
    | declaration d =>
      right
      rw [created, hstatement]
      exact hleaves (by simp [declared, isLeafOn_leaf]) fun s ↦ not_opensScope_declared
    | blank | control | branch | plain =>
      right
      rw [created, hstatement]
      exact hleaves (isLeafOn_enumMember line o.enclosing) fun s ↦ not_opensScope_enumMember

end

/-! ## The scopes of a document -/

/-- The entries of two scopes begin on different lines, the first one on the earlier line. -/
def ScopesRise (e f : Entry) : Prop :=
  e.opensScope → f.opensScope → e.range.start.line < f.range.start.line

theorem scopesRise_created (o : Outline) (line : SourceLine) :
    (sketches (o.created line)).Pairwise ScopesRise := by
  rw [sketches, List.pairwise_map]
  obtain ⟨s, arguments, hcreated, -, harguments⟩ | hnone := scopes_created o line
  · have hargument {a b : Symbol} (hb : b ∈ arguments) : ScopesRise a.sketch b.sketch := by
      intro _ hscope
      exact absurd hscope (Bool.eq_false_iff.1 (harguments b hb).1)
    rw [hcreated, List.pairwise_cons]
    exact ⟨fun b ↦ hargument, List.pairwise_of_forall_mem_list fun a _ b ↦ hargument⟩
  · apply List.pairwise_of_forall_mem_list
    intro a _ b hb _ hscope
    exact absurd hscope (Bool.eq_false_iff.1 (hnone b hb).1)

/-- Of two scopes the later one in pre-order begins on a later line. -/
theorem scopes_rise (text : Text) :
    (flatten (ofText text)).Pairwise fun a b ↦ ScopesRise a.toEntry b.toEntry := by
  have hstates : (states step start (SourceLine.readAll (lines text))).Pairwise fun p q ↦
      p.2.index < q.2.index := by
    have hindex := List.pairwise_lt_range (n := (lines text).length)
    rwa [← SourceLine.map_index_readAll, List.pairwise_map,
      ← map_snd_states step start (SourceLine.readAll (lines text)), List.pairwise_map] at hindex
  have hstart {o : Outline} {line : SourceLine} {e : Entry} (he : e ∈ sketches (o.created line)) :
      e.range.start.line = line.index := by
    obtain ⟨s, hs, rfl⟩ := List.mem_map.1 he
    rw [sketch, range_of_mem_flatten_created hs]
    rfl
  have hsketches : (sketches (ofText text)).Pairwise ScopesRise := by
    rw [ofText, sketches_ofLines, List.pairwise_flatMap]
    refine ⟨fun p _ ↦ scopesRise_created p.1 p.2, hstates.imp ?_⟩
    intro p q hlt e he f hf _ _
    rw [hstart he, hstart hf]
    exact hlt
  rw [sketches, List.pairwise_map] at hsketches
  exact hsketches

end Outline

end VbOutline
