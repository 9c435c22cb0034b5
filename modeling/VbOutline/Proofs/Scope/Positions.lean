import Mathlib.Data.List.Chain
import VbOutline.Proofs.Check.Reports
import VbOutline.Proofs.Outline.Nesting
import VbOutline.Proofs.Outline.Scopes
import VbOutline.Proofs.Symbol.Occurrences

/-!
# What is found at a position

The name at a position and the scopes around it are searched from the roots downwards, and only
inside symbols whose lines contain the position. In an outline this leaves nothing out, because the
ranges are nested: what contains a position is itself inside symbols that contain it. The search for
scopes also enters only the first scope that fits on each level; there is no second one, because the
scopes on one level lie on different lines.
-/

namespace VbOutline

open Text VbOutline.Symbol

theorem Range.contains_of_containsRange {r inner : Range} {p : Position}
    (h : r.containsRange inner) (hp : inner.contains p) : r.contains p := by
  rw [containsRange, Bool.and_eq_true] at h
  rw [contains, Bool.and_eq_true] at hp ⊢
  exact ⟨Position.le_trans h.1 hp.1, Position.le_trans hp.2 h.2⟩

namespace Symbol

/-- What a range contains of a forest, it contains of what is further inside. -/
theorem AllSound.contains {width : Nat → Nat} {forest : List Symbol} (hsound : AllSound width forest)
    {r : Range} (hwithin : ∀ s ∈ forest, r.containsRange s.range) {x : Symbol}
    (hx : x ∈ flatten forest) {p : Position} (hp : x.range.contains p) : r.contains p := by
  induction forest using forest_induction generalizing r with
  | nil =>
    rw [flatten_nil] at hx
    exact absurd hx List.not_mem_nil
  | cons s rest ihchildren ihrest =>
    obtain ⟨⟨hs, hchildren⟩, hrest⟩ := allSound_cons.1 hsound
    rw [List.forall_mem_cons] at hwithin
    rw [flatten_cons, List.mem_append, List.mem_cons] at hx
    obtain (rfl | hx) | hx := hx
    · exact Range.contains_of_containsRange hwithin.1 hp
    · apply Range.contains_of_containsRange hwithin.1
      exact ihchildren hchildren hs.children_within hx
    · exact ihrest hrest hwithin.2 hx

end Symbol

namespace Scope

/-! ## The name at a position -/

/-- A forest of nested ranges in which symbols are only inside scopes and scopes begin on different
lines. -/
structure Layered (width : Nat → Nat) (forest : List Symbol) : Prop where
  sound : AllSound width forest
  ordered : forest.Pairwise Precedes
  rising : (flatten forest).Pairwise fun a b ↦ Outline.ScopesRise a.toEntry b.toEntry
  holders : ∀ s ∈ flatten forest, s.children ≠ [] → s.opensScope

namespace Layered

variable {width : Nat → Nat} {s : Symbol} {rest : List Symbol} {p : Position}

theorem children (h : Layered width (s :: rest)) : Layered width s.children := by
  obtain ⟨⟨hs, hchildren⟩, -⟩ := allSound_cons.1 h.sound
  have hrising := h.rising
  have hholders := h.holders
  rw [flatten_cons, List.pairwise_append, List.pairwise_cons] at hrising
  rw [flatten_cons, List.forall_mem_append, List.forall_mem_cons] at hholders
  exact ⟨hchildren, hs.children_ordered, hrising.1.2, hholders.1.2⟩

theorem tail (h : Layered width (s :: rest)) : Layered width rest := by
  have hrising := h.rising
  have hholders := h.holders
  rw [flatten_cons, List.pairwise_append] at hrising
  rw [flatten_cons, List.forall_mem_append] at hholders
  exact ⟨(allSound_cons.1 h.sound).2, (List.pairwise_cons.1 h.ordered).2, hrising.2.1, hholders.2⟩

end Layered

end Scope

end VbOutline
