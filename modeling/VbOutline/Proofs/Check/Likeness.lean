import VbOutline.Proofs.Check.Reports
import VbOutline.Proofs.Outline.Likeness

/-!
# Reports that are alike

Two documents have alike reports if their lines do the same to the open blocks, one by one, and the
checks of single lines find the same; the checks of the outline depend only on outlines that are
alike. Reports are compared through a view, which leaves out some codes and shows of the other
diagnostics at least their ranges and codes, so that ordering and selecting are the same for all.
-/

namespace VbOutline

open Text Line

/-- What a line does to the open blocks. -/
inductive Move where
  | pass
  | close (e : BlockEnd)
  /-- A declaration; `opens` tells whether it opens a block, inside an interface or not. -/
  | declare (block : Block) (opens : Bool → Bool)
  | region
  | enter (block : Block)
  | branch (b : Branch)
  /-- A statement that opens no block; `leaves` tells whether it leaves its block. -/
  | simple (leaves : Bool)

def SourceLine.move (line : SourceLine) : Move :=
  match line.statement with
  | none | some .blank => .pass
  | some (.blockEnd e) => .close e
  | some (.header h) => .declare h.block fun inside ↦ h.opensBlock inside line.next
  | some (.region _) => .region
  | some (.control c) => if c.singleLine then .simple false else .enter c.block
  | some (.branch b) => .branch b
  | some .plain => .simple (isTerminator (trim line.code))
  | some (.imports _ _) | some (.implements _) | some (.declaration _) => .simple false

/-- Lines with the same number and span that do the same to the open blocks. -/
structure SourceLine.MovesAlike (line line' : SourceLine) : Prop where
  index : line.index = line'.index
  span : line.codeSpan = line'.codeSpan
  move : line.move = line'.move

namespace Check

namespace Tracker

def perform (t : Tracker) (line : SourceLine) : Move → Tracker × List Diagnostic
  | .pass => (t, [])
  | .close e => t.close line e
  | .declare block opens =>
    let t := t.markContent
    (if opens (t.enclosing == some .interfaceType) then t.push block line else t, [])
  | .region => (t.push .region line, [])
  | .enter block => (t.markContent.push block line, [])
  | .branch b => t.branch line b
  | .simple leaves => t.simple line leaves

theorem step_eq_perform (t : Tracker) (line : SourceLine) :
    t.step line = t.perform line line.move := by
  unfold step SourceLine.move
  cases line.statement with
  | none => rfl
  | some s =>
    cases s with
    | control c =>
      dsimp only
      split <;> rfl
    | blank | blockEnd | header | region | imports | implements | branch | declaration | plain =>
      rfl

end Tracker

structure Segment.Alike (s t : Segment) : Prop where
  label : s.label = t.label
  isBranch : s.isBranch = t.isBranch
  span : s.line.codeSpan = t.line.codeSpan
  hasContent : s.hasContent = t.hasContent
  isExempt : s.isExempt = t.isExempt

structure Frame.Alike (f g : Frame) : Prop where
  block : f.block = g.block
  inMethod : f.inMethod = g.inMethod
  index : f.line.index = g.line.index
  span : f.line.codeSpan = g.line.codeSpan
  segment : f.segment.Alike g.segment
  isDead : f.isDead = g.isDead

namespace Tracker

structure Alike (t u : Tracker) : Prop where
  stack : List.Forall₂ Frame.Alike t.stack u.stack
  isDead : t.isDead = u.isDead

namespace Alike

variable {t u : Tracker}

theorem enclosing (h : t.Alike u) : t.enclosing = u.enclosing := by
  obtain ⟨stack, dead⟩ := t
  obtain ⟨stack', dead'⟩ := u
  obtain ⟨hstack, -⟩ := h
  rw [Tracker.enclosing, Tracker.enclosing]
  dsimp only at hstack ⊢
  induction hstack with
  | nil => rfl
  | @cons f g _ _ hframe _ ih =>
    rw [List.find?_cons, List.find?_cons, hframe.block]
    cases g.block != .region with
    | true => exact congrArg some hframe.block
    | false => exact ih

theorem inMethod (h : t.Alike u) : t.inMethod = u.inMethod := by
  obtain ⟨stack, dead⟩ := t
  obtain ⟨stack', dead'⟩ := u
  cases h.stack with
  | nil => rfl
  | cons hframe _ => exact hframe.inMethod

theorem surroundings (h : t.Alike u) : t.surroundings = u.surroundings := by
  rw [Tracker.surroundings, Tracker.surroundings, h.enclosing, h.inMethod]

theorem atDeadEnd (h : t.Alike u) : t.atDeadEnd = u.atDeadEnd := by
  obtain ⟨stack, dead⟩ := t
  obtain ⟨stack', dead'⟩ := u
  cases h.stack with
  | nil => exact h.isDead
  | cons hframe _ => exact hframe.isDead

theorem setDead (h : t.Alike u) (dead : Bool) : (t.setDead dead).Alike (u.setDead dead) := by
  obtain ⟨stack, isDead⟩ := t
  obtain ⟨stack', isDead'⟩ := u
  cases h.stack with
  | nil => exact ⟨.nil, rfl⟩
  | cons hframe hrest =>
    exact ⟨.cons ⟨hframe.block, hframe.inMethod, hframe.index, hframe.span, hframe.segment, rfl⟩
      hrest, h.isDead⟩

theorem markContent (h : t.Alike u) : t.markContent.Alike u.markContent := by
  obtain ⟨stack, isDead⟩ := t
  obtain ⟨stack', isDead'⟩ := u
  cases h.stack with
  | nil => exact ⟨.nil, h.isDead⟩
  | cons hframe hrest =>
    have hsegment := hframe.segment
    exact ⟨.cons ⟨hframe.block, hframe.inMethod, hframe.index, hframe.span,
      ⟨hsegment.label, hsegment.isBranch, hsegment.span, rfl, hsegment.isExempt⟩, hframe.isDead⟩
      hrest, h.isDead⟩

theorem emptySegment {f g : Frame} (h : f.Alike g) :
    Tracker.emptySegment f = Tracker.emptySegment g := by
  rw [Tracker.emptySegment, Tracker.emptySegment, h.block, h.segment.hasContent, h.segment.isExempt,
    h.segment.span, h.segment.label, h.segment.isBranch]

section

variable {line line' : SourceLine} (hline : line.MovesAlike line')
include hline

theorem push (h : t.Alike u) (block : Block) : (t.push block line).Alike (u.push block line') := by
  have hdead := h.setDead false
  refine ⟨.cons ⟨rfl, ?_, hline.index, hline.span, ⟨rfl, rfl, hline.span, rfl, rfl⟩, rfl⟩
    hdead.stack, hdead.isDead⟩
  dsimp only
  rw [hdead.inMethod]

theorem close (h : t.Alike u) (e : BlockEnd) :
    (t.close line e).1.Alike (u.close line' e).1 ∧ (t.close line e).2 = (u.close line' e).2 := by
  obtain ⟨stack, isDead⟩ := t
  obtain ⟨stack', isDead'⟩ := u
  cases h.stack with
  | nil => exact ⟨h, by simp only [Tracker.close, hline.span]⟩
  | @cons f g rest rest' hframe hrest =>
    simp only [Tracker.close, hframe.block, hframe.index, hline.span]
    split
    · have hafter : Alike ⟨rest, isDead⟩ ⟨rest', isDead'⟩ := ⟨hrest, h.isDead⟩
      exact ⟨hafter.setDead false, emptySegment hframe⟩
    · exact ⟨h, rfl⟩

theorem branch (h : t.Alike u) (b : Branch) :
    (t.branch line b).1.Alike (u.branch line' b).1 ∧
      (t.branch line b).2 = (u.branch line' b).2 := by
  obtain ⟨stack, isDead⟩ := t
  obtain ⟨stack', isDead'⟩ := u
  cases h.stack with
  | nil => exact ⟨h, rfl⟩
  | cons hframe hrest =>
    simp only [Tracker.branch, hframe.block]
    split
    · exact ⟨⟨.cons ⟨rfl, hframe.inMethod, hframe.index, hframe.span,
        ⟨rfl, rfl, hline.span, rfl, rfl⟩, rfl⟩ hrest, h.isDead⟩, emptySegment hframe⟩
    · exact ⟨h, rfl⟩

theorem simple (h : t.Alike u) (leaves : Bool) :
    (t.simple line leaves).1.Alike (u.simple line' leaves).1 ∧
      (t.simple line leaves).2 = (u.simple line' leaves).2 := by
  have hmark := h.markContent
  simp only [Tracker.simple, hmark.atDeadEnd, hline.span, and_true]
  split
  · exact hmark.setDead true
  · exact hmark

/-- Lines that do the same keep two trackers alike, and the same is reported at them. -/
theorem step (h : t.Alike u) :
    (t.step line).1.Alike (u.step line').1 ∧ (t.step line).2 = (u.step line').2 := by
  rw [step_eq_perform, step_eq_perform, ← hline.move]
  cases line.move with
  | pass => exact ⟨h, rfl⟩
  | close e => exact h.close hline e
  | declare block opens =>
    have hmark := h.markContent
    simp only [perform, hmark.enclosing, and_true]
    split
    · exact hmark.push hline block
    · exact hmark
  | region => exact ⟨h.push hline .region, rfl⟩
  | enter block => exact ⟨h.markContent.push hline block, rfl⟩
  | branch b => exact h.branch hline b
  | simple leaves => exact h.simple hline leaves

end

theorem finish (h : t.Alike u) : t.finish = u.finish := by
  rw [Tracker.finish, Tracker.finish, List.map_reverse, List.map_reverse]
  congr 1
  obtain ⟨stack, isDead⟩ := t
  obtain ⟨stack', isDead'⟩ := u
  obtain ⟨hstack, -⟩ := h
  dsimp only at hstack ⊢
  induction hstack with
  | nil => rfl
  | cons hframe _ ih =>
    rw [List.map_cons, List.map_cons, ih, hframe.block, hframe.index, hframe.span]

end Alike

end Tracker

/-! ## What is seen of a report -/

/-- The diagnostics without those that have one of the codes. -/
def without (codes : List String) (ds : List Diagnostic) : List Diagnostic :=
  ds.filter fun d ↦ !codes.contains d.code

/-- A way to look at reports: some codes are left out, and of the other diagnostics something is
seen that tells at least their ranges and codes. -/
structure View (α : Type) where
  hidden : List String
  see : Diagnostic → α
  range : α → Range
  code : α → String
  range_see : ∀ d, range (see d) = d.range
  code_see : ∀ d, code (see d) = d.code

namespace View

variable {α : Type} (v : View α)

/-- What is seen of a report. -/
def of (ds : List Diagnostic) : List α := (without v.hidden ds).map v.see

theorem of_append (left right : List Diagnostic) :
    v.of (left ++ right) = v.of left ++ v.of right := by
  rw [of, without, List.filter_append, List.map_append]
  rfl

theorem of_flatMap {β : Type} (xs : List β) (f : β → List Diagnostic) :
    v.of (xs.flatMap f) = xs.flatMap fun x ↦ v.of (f x) := by
  induction xs with
  | nil => rfl
  | cons x xs ih => rw [List.flatMap_cons, List.flatMap_cons, of_append, ih]

/-- Leaving out codes after looking. -/
theorem of_eq_filter (ds : List Diagnostic) :
    v.of ds = (ds.map v.see).filter fun a ↦ !v.hidden.contains (v.code a) := by
  rw [of, without, List.filter_map]
  simp only [Function.comp_def, v.code_see]

theorem of_congr {ds ds' : List Diagnostic} (h : ds.map v.see = ds'.map v.see) :
    v.of ds = v.of ds' := by
  rw [of_eq_filter, of_eq_filter, h]

theorem of_eq_nil {own : List String} {ds : List Diagnostic} (h : CodesIn own ds)
    (hown : own ⊆ v.hidden) : v.of ds = [] := by
  have hnone : without v.hidden ds = [] := by
    rw [without, List.filter_eq_nil_iff]
    intro d hd
    simpa using hown (h d hd)
  rw [of, hnone, List.map_nil]

/-- What is seen after ordering and selecting depends only on what was seen before. -/
theorem of_validate {o : Options} {text text' : Text} {others others' : List DocumentOutline}
    (h : v.of (findings o.maxLineLength text others) =
      v.of (findings o.maxLineLength text' others')) :
    v.of (validate o text others) = v.of (validate o text' others') := by
  have hsee (ds : List Diagnostic) :
      v.of (sortByStart (ds.filter fun d ↦ o.isEnabled d.code)) =
        ((v.of ds).filter fun a ↦ o.isEnabled (v.code a)).mergeSort fun a b ↦
          (v.range a).start.le (v.range b).start := by
    rw [of, of, without, without, filter_sortByStart, sortByStart, List.filter_filter,
      List.filter_map, List.filter_filter,
      List.map_mergeSort (s := fun a b ↦ (v.range a).start.le (v.range b).start)]
    · simp only [Function.comp_def, v.code_see, Bool.and_comm]
    · intro a _ b _
      rw [v.range_see, v.range_see]
  rw [validate, validate, hsee, hsee, h]

/-- Along lines that do the same and look the same, trackers stay alike and the same is seen. -/
theorem of_states {limit : Nat} {lines lines' : List SourceLine}
    (h : List.Forall₂ (fun line line' ↦ line.MovesAlike line' ∧
      ∀ around, v.of (Check.line limit around line) = v.of (Check.line limit around line'))
      lines lines') {t u : Tracker} (htu : t.Alike u) :
    (lines.foldl track t).Alike (lines'.foldl track u) ∧
      v.of ((states track t lines).flatMap fun (t, line) ↦ atLine limit t line) =
        v.of ((states track u lines').flatMap fun (t, line) ↦ atLine limit t line) := by
  induction h generalizing t u with
  | nil => exact ⟨htu, rfl⟩
  | cons hline _ ih =>
    obtain ⟨hmoves, hchecks⟩ := hline
    obtain ⟨hnext, hfound⟩ := htu.step hmoves
    obtain ⟨hend, hrest⟩ := ih hnext
    refine ⟨hend, ?_⟩
    simp only [states_cons, List.flatMap_cons, atLine, of_append, htu.surroundings, hfound, hchecks]
    exact congrArg _ hrest

theorem of_walk {limit : Nat} {lines lines' : List SourceLine}
    (h : List.Forall₂ (fun line line' ↦ line.MovesAlike line' ∧
      ∀ around, v.of (Check.line limit around line) = v.of (Check.line limit around line'))
      lines lines') :
    v.of (walk limit lines) = v.of (walk limit lines') := by
  obtain ⟨hend, hlines⟩ := v.of_states h (t := .start) (u := .start) ⟨.nil, rfl⟩
  rw [walk, walk, of_append, of_append, hlines, hend.finish]

end View

/-! ## The checks of the outline -/

/-- Related entries are the same for the checks of the outline, and what these report about related
entries looks the same. -/
structure Respects {α : Type} (R : Entry → Entry → Prop) (see : Diagnostic → α) : Prop where
  name : ∀ {e f}, R e f → asciiLower e.name = asciiLower f.name
  kind : ∀ {e f}, R e f → e.kind = f.kind
  isImplements : ∀ {e f}, R e f → e.isImplements = f.isImplements
  interface : ∀ {e f}, R e f → asciiLower (unqualified (baseTypeName e.name)) =
    asciiLower (unqualified (baseTypeName f.name))
  missing : ∀ {owner owner' mark mark' m m' i i'}, R owner owner' → R mark mark' → R m m' → R i i' →
    see ⟨mark.selection, .missingMember owner.name m.name i.name⟩ =
      see ⟨mark'.selection, .missingMember owner'.name m'.name i'.name⟩
  duplicate : ∀ {e f}, R e f → ∀ uri, see ⟨e.selection, .duplicateDeclaration e.kind e.name uri⟩ =
    see ⟨f.selection, .duplicateDeclaration f.kind f.name uri⟩

theorem isNamed_congr {e f : Entry} (h : asciiLower e.name = asciiLower f.name) {name name' : Text}
    (hname : asciiLower name = asciiLower name') : e.isNamed name = f.isNamed name' := by
  rw [Entry.isNamed, Entry.isNamed, eqAscii_eq, eqAscii_eq, h, hname]

/-- Outlines of documents with the same URIs that are alike. -/
def OutlinesAlike (R : Entry → Entry → Prop) : List DocumentOutline → List DocumentOutline → Prop :=
  List.Forall₂ fun o p ↦ o.uri = p.uri ∧ Symbol.Alike R o.symbols p.symbols

namespace Respects

variable {α : Type} {R : Entry → Entry → Prop} {see : Diagnostic → α} (hR : Respects R see)
include hR

theorem topLevelSymbols {forest forest' : List Symbol} (h : Symbol.Alike R forest forest') :
    Symbol.Alike R (Scope.topLevelSymbols forest) (Scope.topLevelSymbols forest') :=
  h.topLevelSymbols hR.kind hR.isImplements

theorem findInterface? {definitions definitions' : List (List Symbol)}
    (h : List.Forall₂ (Symbol.Alike R) definitions definitions') {name name' : Text}
    (hname : asciiLower name = asciiLower name') :
    Option.Rel (fun s t ↦ Symbol.Alike R [s] [t]) (Check.findInterface? definitions name)
      (Check.findInterface? definitions' name') := by
  induction h with
  | nil => exact .none
  | @cons symbols symbols' _ _ hsymbols _ ih =>
    have hfind := hsymbols.find? (p := fun e ↦ e.kind == .interfaceType && e.isNamed name)
      (q := fun e ↦ e.kind == .interfaceType && e.isNamed name') fun hef ↦ by
        rw [hR.kind hef, isNamed_congr (hR.name hef) hname]
    rw [Check.findInterface?, List.findSome?_cons, Check.findInterface?, List.findSome?_cons]
    generalize symbols.find? _ = found at hfind
    generalize symbols'.find? _ = found' at hfind
    cases hfind with
    | none => exact ih
    | some hst => exact .some hst

theorem missingAt {definitions definitions' : List (List Symbol)}
    (h : List.Forall₂ (Symbol.Alike R) definitions definitions') {owner owner' mark mark' : Symbol}
    (howner : Symbol.Alike R [owner] [owner']) (hmark : R mark.toEntry mark'.toEntry) :
    (Check.missingAt definitions owner mark).map see =
      (Check.missingAt definitions' owner' mark').map see := by
  have hfound := hR.findInterface? h (hR.interface hmark)
  obtain _ | ⟨hentry, hchildren, _⟩ := howner
  rw [Check.missingAt, Check.missingAt]
  generalize Check.findInterface? definitions _ = found at hfound
  generalize Check.findInterface? definitions' _ = found' at hfound
  cases hfound with
  | none => rfl
  | some hinterface =>
    obtain _ | ⟨hientry, hichildren, _⟩ := hinterface
    have hmembers : Symbol.Alike R owner.members owner'.members := by
      rw [Symbol.members_eq_seenIn, Symbol.members_eq_seenIn]
      exact hchildren.seenIn hR.kind
    have hrequired := hichildren.seenIn hR.kind
    rw [← Symbol.members_eq_seenIn, ← Symbol.members_eq_seenIn] at hrequired
    have hmissing := hrequired.filter
      (p := fun m ↦ m.kind.isMethodLike &&
        !owner.members.any fun n ↦ n.kind == m.kind && n.isNamed m.name)
      (q := fun m ↦ m.kind.isMethodLike &&
        !owner'.members.any fun n ↦ n.kind == m.kind && n.isNamed m.name)
      fun {m m'} hm ↦ by
        rw [hR.kind hm]
        congr 2
        exact hmembers.any_eq (p := fun n ↦ n.kind == m'.kind && n.isNamed m.name)
          (q := fun n ↦ n.kind == m'.kind && n.isNamed m'.name) fun hn ↦ by
            rw [hR.kind hn, isNamed_congr (hR.name hn) (hR.name hm)]
    rw [List.map_map, List.map_map]
    exact hmissing.map_eq fun hm _ ↦ hR.missing hentry hmark hm hientry

theorem missingMembers {forest forest' : List Symbol} {others others' : List DocumentOutline}
    (h : Symbol.Alike R forest forest') (hothers : OutlinesAlike R others others') :
    (Check.missingMembers forest others).map see =
      (Check.missingMembers forest' others').map see := by
  have hdefinitions : List.Forall₂ (Symbol.Alike R)
      ((forest :: others.map (·.symbols)).map Scope.topLevelSymbols)
      ((forest' :: others'.map (·.symbols)).map Scope.topLevelSymbols) := by
    refine .cons (hR.topLevelSymbols h) ?_
    rw [List.map_map, List.map_map, List.forall₂_map_left_iff, List.forall₂_map_right_iff]
    exact hothers.imp fun _ _ ho ↦ hR.topLevelSymbols ho.2
  rw [Check.missingMembers, Check.missingMembers, List.map_flatMap, List.map_flatMap]
  have howners := h.flatten.filter (p := fun e ↦ e.kind == .classType || e.kind == .structType)
    (q := fun e ↦ e.kind == .classType || e.kind == .structType) fun he ↦ by rw [hR.kind he]
  refine howners.flatMap_eq fun {owner owner'} hentry hchildren ↦ ?_
  rw [List.map_flatMap, List.map_flatMap]
  have hmarks := hchildren.filter (p := Entry.isImplements) (q := Entry.isImplements) fun he ↦
    hR.isImplements he
  exact hmarks.flatMap_eq fun hmark _ ↦
    hR.missingAt hdefinitions (.cons hentry hchildren .nil) hmark

theorem duplicateOf? {others others' : List DocumentOutline} (h : OutlinesAlike R others others')
    {s t : Symbol} (hst : R s.toEntry t.toEntry) :
    Check.duplicateOf? (others.map fun o ↦ (o.uri, Scope.topLevelSymbols o.symbols)) s =
      Check.duplicateOf? (others'.map fun o ↦ (o.uri, Scope.topLevelSymbols o.symbols)) t := by
  induction h with
  | nil => rfl
  | @cons o p _ _ hop _ ih =>
    have hsame := (hR.topLevelSymbols hop.2).any_eq
      (p := fun e ↦ e.kind == s.kind && e.isNamed s.name)
      (q := fun e ↦ e.kind == t.kind && e.isNamed t.name) fun he ↦ by
        rw [hR.kind he, hR.kind hst, isNamed_congr (hR.name he) (hR.name hst)]
    simp only [Check.duplicateOf?, List.map_cons, List.find?_cons, hsame] at ih ⊢
    split
    · exact congrArg some hop.1
    · exact ih

theorem duplicates {forest forest' : List Symbol} {others others' : List DocumentOutline}
    (h : Symbol.Alike R forest forest') (hothers : OutlinesAlike R others others') :
    (Check.duplicates forest others).map see = (Check.duplicates forest' others').map see := by
  rw [Check.duplicates, Check.duplicates, List.map_filterMap, List.map_filterMap,
    List.filterMap_eq_flatMap_toList, List.filterMap_eq_flatMap_toList]
  refine (hR.topLevelSymbols h).flatMap_eq fun {s t} hst _ ↦ ?_
  rw [hR.duplicateOf? hothers hst]
  congr 1
  cases Check.duplicateOf? _ t with
  | none => rfl
  | some uri => exact congrArg some (hR.duplicate hst uri)

end Respects

/-- Documents have alike reports if their lines do the same and are found to be the same one by one,
if their outlines and those beside them are alike, and if the same is seen of their unused
variables. -/
theorem View.of_validate_of_alike {α : Type} {v : View α} {R : Entry → Entry → Prop}
    (hR : Respects R v.see) (o : Options) {text text' : Text}
    {others others' : List DocumentOutline}
    (hlines : List.Forall₂ (fun line line' ↦ line.MovesAlike line' ∧
      ∀ around, v.of (Check.line o.maxLineLength around line) =
        v.of (Check.line o.maxLineLength around line'))
      (SourceLine.readAll (lines text)) (SourceLine.readAll (lines text')))
    (hforest : Symbol.Alike R (Outline.ofText text) (Outline.ofText text'))
    (hothers : OutlinesAlike R others others')
    (hunused : v.of (unusedVariables (SourceLine.readAll (lines text)) (Outline.ofText text)) =
      v.of (unusedVariables (SourceLine.readAll (lines text')) (Outline.ofText text'))) :
    v.of (validate o text others) = v.of (validate o text' others') := by
  apply v.of_validate
  have hmissing := v.of_congr (hR.missingMembers hforest hothers)
  have hduplicates := v.of_congr (hR.duplicates hforest hothers)
  rw [Outline.ofText, Outline.ofText] at hunused hmissing hduplicates
  simp only [findings, of_append, v.of_walk hlines, hunused, hmissing, hduplicates]

end Check

end VbOutline
