import VbOutline.Proofs.Check.Regions
import VbOutline.Proofs.Outline.Locals

/-!
# Unused variables

A variable that is declared directly inside a method is used if another line of the method has its
name as a word. One that is not used is reported at its name, once: no other symbol stands there, and
there is one method around it. The check tells variables from arguments by the beginning of their
details, which is the type where a variable is declared. So a variable whose type begins with the
mark of arguments is never reported.
-/

namespace VbOutline.Check

open Text SourceLine VbOutline.Symbol VbOutline.Outline

/-- The name on the line is declared as a variable directly inside the method. -/
structure IsLocal (text : Text) (method : Symbol) (line : SourceLine) (x : Declarator) : Prop where
  method_mem : method ∈ flatten (ofText text)
  isMethodLike : method.kind.isMethodLike
  line_mem : line ∈ readAll (lines text)
  declared : x ∈ line.declaredVariables
  attached : ∃ c ∈ method.children, c.selection = nameRange line x.offset x.name

/-- No line of the method, apart from the given one, has the name as a word. -/
def Unmentioned (text : Text) (method : Entry) (line : SourceLine) (name : Text) : Prop :=
  ∀ row ∈ (lines text).zipIdx, method.range.start.line ≤ row.2 → row.2 ≤ method.range.stop.line →
    row.2 ≠ line.index → Line.containsWord (Line.stripComment row.1) name = false

instance (text : Text) (method : Entry) (line : SourceLine) (name : Text) :
    Decidable (Unmentioned text method line name) :=
  inferInstanceAs (Decidable (∀ row ∈ (lines text).zipIdx, method.range.start.line ≤ row.2 →
    row.2 ≤ method.range.stop.line → row.2 ≠ line.index →
      Line.containsWord (Line.stripComment row.1) name = false))

/-- The diagnostics with a code whose range is the given one. -/
def reportedOn (code : String) (range : Range) (report : List Diagnostic) : List Diagnostic :=
  (withCodes [code] report).filter fun d ↦ d.range == range

variable {o : Options} {text : Text}

/-- The symbol comes from the parameters of a header of the document. -/
def IsHeaderArgument (text : Text) (s : Symbol) : Prop :=
  ∃ line ∈ readAll (lines text), ∃ h a, IsArgument line h a s.sketch

theorem IsHeaderArgument.isArgument {s : Symbol} (h : IsHeaderArgument text s) : s.isArgument := by
  obtain ⟨_, -, _, a, -, -, hsketch⟩ := h
  have hdetail : s.detail = Entry.argumentMark ++ a.signature := (congrArg Entry.detail hsketch :)
  rw [Entry.isArgument, hdetail]
  exact List.isPrefixOf_iff_prefix.2 (List.prefix_append _ _)

/-- A variable of a type that is named like the mark of arguments. -/
def oddlyTyped : Text := "Sub S()\nDim x As Argument (Of T)\nEnd Sub".toList

theorem reportedOn_oddlyTyped :
    ∃ method line x, IsLocal oddlyTyped method line x ∧
      Unmentioned oddlyTyped method.toEntry line x.name ∧
      reportedOn "unused-variable" (nameRange line x.offset x.name)
        (validate .standard oddlyTyped []) = [] := by
  have hlocal : ∃ method ∈ flatten (ofText oddlyTyped), method.kind.isMethodLike ∧
      ∃ line ∈ readAll (lines oddlyTyped), ∃ x ∈ line.declaredVariables,
        (∃ c ∈ method.children, c.selection = nameRange line x.offset x.name) ∧
          Unmentioned oddlyTyped method.toEntry line x.name := by decide +kernel
  have hreport : withCodes ["unused-variable"] (validate .standard oddlyTyped []) = [] := by
    decide +kernel
  obtain ⟨method, hmethod, hkind, line, hline, x, hx, hattached, hunmentioned⟩ := hlocal
  refine ⟨method, line, x, ⟨hmethod, hkind, hline, hx, hattached⟩, hunmentioned, ?_⟩
  rw [reportedOn, hreport, List.filter_nil]

end VbOutline.Check
