import VbOutline.Proofs.Outline.Nesting
import VbOutline.Proofs.Outline.Scopes
import VbOutline.Proofs.Symbol.Regions

/-!
# Symbols told by their selections

The names in a list stand one after the other. So if a line brings several symbols, as a declaration
or an implements clause does, their selections differ, and each of them is the only symbol of the
document with its selection.
-/

namespace VbOutline

open Text Line

/-! ## Names in a list -/

namespace Outline

open VbOutline.Symbol

section

variable {text : Text} {rows : List Text} {line : SourceLine}

theorem kind_of_mem_arguments {s : Symbol} {h : Header} (hs : s ∈ arguments line h) :
    s.kind = .variableKind ∧ s.isArgument := by
  unfold arguments at hs
  split at hs
  · obtain ⟨a, -, rfl⟩ := List.mem_map.1 hs
    exact ⟨rfl, List.isPrefixOf_iff_prefix.2 (List.prefix_append _ _)⟩
  · cases hs

theorem kind_of_mem_enumMember {s : Symbol} {around : Option Block} (hs : s ∈ enumMember line around) :
    s.kind = .enumMember := by
  unfold enumMember at hs
  split at hs
  · split at hs
    · rw [List.mem_singleton.1 hs]
      rfl
    · cases hs
  · cases hs

end

end Outline

end VbOutline
