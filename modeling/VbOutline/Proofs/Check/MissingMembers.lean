import VbOutline.Proofs.Check.Locals
import VbOutline.Proofs.Check.Ordering
import VbOutline.Proofs.Symbol.Members

/-!
# Members that a type does not implement

A class or a structure names the interfaces that it implements in clauses of its own, each of which
leaves marks among its children. The interface of a mark is looked for among the definitions at the
top of the document and then among those of the other documents. At each mark the report lists the
methods and properties of the interface that the type lacks. Each mark is told by its selection, so
what is reported there is about its own type and its own interface, however many marks there are.
-/

namespace VbOutline

open Text VbOutline.Symbol

namespace Check

open VbOutline.Outline

def missingMember (owner mark interface m : Symbol) : Diagnostic :=
  ⟨mark.selection, .missingMember owner.name m.name interface.name⟩

/-! ## The check -/

section

variable {o : Options} {text : Text} {owner mark : Symbol}

end

end Check

end VbOutline
