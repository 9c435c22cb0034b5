import VbOutline.Proofs.Outline.Assembly
import VbOutline.Proofs.Symbol.Parents

/-!
# The ledger of an outline

The outline pass builds trees: a symbol moves into the block around it when its own block is closed.
Here the same symbols are entered in a ledger, one after the other and never moved. A record of the
ledger has the entry of a symbol and the number of the record in which the symbol stands: the one of
the innermost open block, or for an argument the one of its header. Closing a block moves the end of
the range in its record.

The records are the symbols of the forest in pre-order. So no symbol is lost or listed twice when
the trees are put together, and each stands where it was entered.
-/

namespace VbOutline

open Text

/-- What the ledger has of a symbol. -/
structure Record where
  /-- The number of the record of the symbol around it. -/
  parent : Option Nat
  entry : Entry
  deriving DecidableEq, Repr

namespace Symbol

mutual

/-- The records of a symbol that has number `n`, and of those inside it. -/
def records (parent : Option Nat) (n : Nat) : Symbol → List Record
  | ⟨entry, children⟩ => ⟨parent, entry⟩ :: recordsIn (some n) (n + 1) children

/-- The records of a forest in pre-order, its first symbol having number `n`. -/
def recordsIn (parent : Option Nat) (n : Nat) : List Symbol → List Record
  | [] => []
  | s :: rest => records parent n s ++ recordsIn parent (n + s.withInner.length) rest

end

@[simp]
theorem recordsIn_nil (parent : Option Nat) (n : Nat) : recordsIn parent n [] = [] := by
  rw [recordsIn]

theorem recordsIn_cons (parent : Option Nat) (n : Nat) (s : Symbol) (rest : List Symbol) :
    recordsIn parent n (s :: rest) =
      ⟨parent, s.toEntry⟩ :: (recordsIn (some n) (n + 1) s.children ++
        recordsIn parent (n + 1 + (flatten s.children).length) rest) := by
  obtain ⟨entry, children⟩ := s
  rw [recordsIn, records, withInner, List.length_cons, List.cons_append, Nat.add_assoc,
    Nat.add_comm 1]

theorem map_entry_recordsIn (parent : Option Nat) (n : Nat) (forest : List Symbol) :
    (recordsIn parent n forest).map Record.entry = (flatten forest).map Symbol.toEntry := by
  induction forest using forest_induction generalizing parent n with
  | nil => rw [recordsIn_nil, flatten_nil, List.map_nil, List.map_nil]
  | cons s rest ihchildren ihrest =>
    rw [recordsIn_cons, List.map_cons, List.map_append, ihchildren, ihrest, flatten_cons,
      List.cons_append, List.map_cons, List.map_append]

theorem length_recordsIn (parent : Option Nat) (n : Nat) (forest : List Symbol) :
    (recordsIn parent n forest).length = (flatten forest).length := by
  simpa using congrArg List.length (map_entry_recordsIn parent n forest)

theorem recordsIn_append (parent : Option Nat) (n : Nat) (left right : List Symbol) :
    recordsIn parent n (left ++ right) =
      recordsIn parent n left ++ recordsIn parent (n + (recordsIn parent n left).length) right := by
  induction left generalizing n with
  | nil => rw [List.nil_append, recordsIn_nil, List.nil_append, List.length_nil, Nat.add_zero]
  | cons s left ih =>
    rw [List.cons_append, recordsIn_cons, recordsIn_cons, ih]
    simp only [length_recordsIn, List.length_cons, List.length_append, List.cons_append,
      List.append_assoc]
    congr 4
    omega

/-- What is added at the end of a symbol comes after everything that is inside it. -/
theorem recordsIn_last_child (parent : Option Nat) (n : Nat) (entry : Entry)
    (children : List Symbol) (s : Symbol) :
    recordsIn parent n [⟨entry, children ++ [s]⟩] =
      recordsIn parent n [⟨entry, children⟩] ++
        recordsIn (some n) (n + (recordsIn parent n [⟨entry, children⟩]).length) [s] := by
  rw [recordsIn_cons _ _ ⟨entry, children ++ [s]⟩, recordsIn_cons _ _ ⟨entry, children⟩,
    recordsIn_append, recordsIn_nil, recordsIn_nil, List.append_nil, List.append_nil,
    List.length_cons, List.cons_append, Nat.add_assoc, Nat.add_comm 1]

theorem recordsIn_of_leaves (parent : Option Nat) (n : Nat) {forest : List Symbol}
    (h : ∀ s ∈ forest, s.children = []) :
    recordsIn parent n forest = forest.map fun s ↦ ⟨parent, s.toEntry⟩ := by
  induction forest generalizing n with
  | nil => rw [recordsIn_nil, List.map_nil]
  | cons s rest ih =>
    rw [List.forall_mem_cons] at h
    rw [recordsIn_cons, h.1, recordsIn_nil, List.nil_append, ih _ h.2, List.map_cons]

end Symbol

open VbOutline.Symbol

structure Ledger where
  /-- The symbols that have been entered, the first one having number 0. -/
  records : List Record
  /-- The open blocks with the numbers of their symbols, the innermost one first. -/
  frames : List (Block × Nat)
  deriving Repr

namespace Ledger

def start : Ledger := ⟨[], []⟩

/-- The number of the symbol of the innermost open block. -/
def innermost (l : Ledger) : Option Nat := l.frames.head?.map (·.2)

/-- The innermost open block that is not a region. -/
def enclosing (l : Ledger) : Option Block :=
  (l.frames.find? fun f ↦ f.1 != .region).map (·.1)

/-- Enters a symbol in the innermost open block and after it its arguments, which are inside it. -/
def enter (l : Ledger) (s : Symbol) : Ledger :=
  { l with
    records := l.records ++ ⟨l.innermost, s.toEntry⟩ ::
      s.children.map fun a ↦ ⟨some l.records.length, a.toEntry⟩ }

/-- Enters a symbol and opens a block with it. -/
def push (l : Ledger) (block : Block) (s : Symbol) : Ledger :=
  { l.enter s with frames := (block, l.records.length) :: l.frames }

/-- Moves the end of the range in record `n`. -/
def endAt (stop : Position) (records : List Record) (n : Nat) : List Record :=
  records.modify n fun record ↦ { record with entry := record.entry.endingAt stop }

/-- Ends the innermost block if it is of the given kind. -/
def close (l : Ledger) (block : Block) (stop : Position) : Ledger :=
  match l.frames with
  | [] => l
  | frame :: rest => if frame.1 == block then ⟨endAt stop l.records frame.2, rest⟩ else l

/-- The pass that keeps a ledger. -/
def pass : Pass Ledger := ⟨enclosing, enter, push, close⟩

/-- The records when all blocks that are still open end at `stop`. -/
def finish (l : Ledger) (stop : Position) : List Record :=
  l.frames.foldl (fun records frame ↦ endAt stop records frame.2) l.records

def ofLines (lines : List SourceLine) : List Record :=
  (lines.foldl pass.step start).finish (Outline.endOf lines)

def ofText (text : Text) : List Record := ofLines (SourceLine.readAll (lines text))

theorem enter_of_leaves (l : Ledger) {s : Symbol} (h : ∀ a ∈ s.children, a.children = []) :
    l.enter s = { l with records := l.records ++ recordsIn l.innermost l.records.length [s] } := by
  rw [enter, recordsIn_cons, recordsIn_of_leaves _ _ h, recordsIn_nil, List.append_nil]

theorem endAt_append (stop : Position) (before after : List Record) (record : Record) :
    endAt stop (before ++ record :: after) before.length =
      before ++ { record with entry := record.entry.endingAt stop } :: after :=
  List.modifyTailIdx_add _ 0 before (record :: after)

end Ledger

namespace Outline

/-- The ledger of an outline that has the given roots and open blocks. -/
def ledgerOf (roots : List Symbol) : List OpenBlock → Ledger
  | [] => ⟨recordsIn none 0 roots.reverse, []⟩
  | b :: rest =>
    let outer := ledgerOf roots rest
    ⟨outer.records ++ recordsIn outer.innermost outer.records.length
        [⟨b.symbol.toEntry, b.symbol.children ++ b.inner.reverse⟩],
      (b.block, outer.records.length) :: outer.frames⟩

def ledger (o : Outline) : Ledger := ledgerOf o.roots o.stack

theorem enclosing_ledger (o : Outline) : o.ledger.enclosing = o.enclosing := by
  obtain ⟨stack, roots⟩ := o
  rw [Ledger.enclosing, enclosing, ledger]
  induction stack with
  | nil => rfl
  | cons b rest ih =>
    simp only [ledgerOf, List.find?_cons]
    cases b.block != .region with
    | true => rfl
    | false => exact ih

/-- A symbol that is added comes after all others. -/
theorem ledger_add (o : Outline) (s : Symbol) :
    (o.add s).ledger =
      { o.ledger with
        records :=
          o.ledger.records ++ recordsIn o.ledger.innermost o.ledger.records.length [s] } := by
  obtain ⟨stack, roots⟩ := o
  cases stack with
  | nil =>
    simp only [add, ledger, ledgerOf, List.reverse_cons, recordsIn_append]
    rw [Nat.zero_add]
    rfl
  | cons b rest =>
    simp only [add, ledger, ledgerOf, List.reverse_cons, ← List.append_assoc, recordsIn_last_child,
      List.length_append]
    rfl

theorem ledger_push (o : Outline) (block : Block) {s : Symbol}
    (h : ∀ a ∈ s.children, a.children = []) :
    (o.push block s).ledger = o.ledger.push block s := by
  rw [Ledger.push, Ledger.enter_of_leaves _ h]
  obtain ⟨entry, children⟩ := s
  simp [push, ledger, ledgerOf]

/-- Closing the innermost block moves the end of its range and nothing else. -/
theorem ledger_move (b : OpenBlock) (rest : List OpenBlock) (roots : List Symbol)
    (stop : Position) :
    (add ⟨rest, roots⟩ (b.close stop)).ledger =
      ⟨Ledger.endAt stop (ledgerOf roots (b :: rest)).records (ledgerOf roots rest).records.length,
        (ledgerOf roots rest).frames⟩ := by
  rw [ledger_add]
  simp only [ledgerOf, recordsIn_cons, recordsIn_nil, Ledger.endAt_append]
  rfl

theorem ledger_close (o : Outline) (block : Block) (stop : Position) :
    (o.close block stop).ledger = o.ledger.close block stop := by
  obtain ⟨stack, roots⟩ := o
  cases stack with
  | nil => rfl
  | cons b rest =>
    simp only [close, Ledger.close, ledger, ledgerOf]
    split
    · exact ledger_move b rest roots stop
    · rfl

/-- A line changes the ledger of the outline as it changes the outline. -/
theorem follows_ledger : Ledger.pass.Follows pass ledger where
  enclosing := enclosing_ledger
  add o _ h := (ledger_add o _).trans (Ledger.enter_of_leaves _ h).symm
  push o block _ h := ledger_push o block h
  close := ledger_close

theorem recordsIn_closeAll (stop : Position) (stack : List OpenBlock) (roots : List Symbol) :
    recordsIn none 0 (closeAll stop stack roots) = (ledgerOf roots stack).finish stop := by
  fun_induction closeAll stop stack roots with
  | case1 roots => rfl
  | case2 b roots => exact congrArg Ledger.records (ledger_move b [] roots stop)
  | case3 b outer rest roots ih =>
    have hmove := congrArg (Ledger.finish · stop) (ledger_move b (outer :: rest) roots stop)
    exact ih.trans hmove

theorem recordsIn_ofText (text : Text) : recordsIn none 0 (ofText text) = Ledger.ofText text := by
  have hrun := follows_ledger.foldl_step start (SourceLine.readAll (lines text))
  rw [step_pass] at hrun
  rw [ofText, ofLines, finish, recordsIn_closeAll, Ledger.ofText, Ledger.ofLines]
  exact congrArg (Ledger.finish · _) hrun

end Outline

namespace SymbolTable

/-- The numbers that the table lists, each with the number of the row that lists it, or with none if
it is a root. -/
def links (t : SymbolTable) : List (Option Nat × Nat) :=
  t.roots.map (none, ·) ++
    t.rows.zipIdx.flatMap fun (row, n) ↦ row.children.map (some n, ·)

/-- Each row of a forest is listed once: where its record says that it stands. -/
theorem links_perm (parent : Option Nat) (n : Nat) (forest : List Symbol) :
    ((numbersIn n forest).map (parent, ·) ++
        ((rowsIn n forest).zipIdx n).flatMap fun (row, k) ↦ row.children.map (some k, ·)).Perm
      (((recordsIn parent n forest).zipIdx n).map fun (record, k) ↦ (record.parent, k)) := by
  induction forest using forest_induction generalizing parent n with
  | nil => simp [numbersIn]
  | cons s rest ihchildren ihrest =>
    rw [numbersIn, rowsIn_cons, recordsIn_cons]
    simp only [List.zipIdx_cons, List.zipIdx_append, List.flatMap_cons, List.flatMap_append,
      List.map_cons, List.map_append, length_rowsIn, length_recordsIn, List.cons_append]
    refine .cons _ (.trans ?_ ((ihchildren (some n) (n + 1)).append
      (ihrest parent (n + 1 + (flatten s.children).length))))
    rw [← List.append_assoc (List.map _ (s.row n).children)]
    exact List.perm_append_comm_assoc _ _ _

end SymbolTable

namespace Occurrence

theorem length_inForest (around : List Symbol) (place : Place) (i : Nat) (forest : List Symbol) :
    (inForest around place i forest).length = (flatten forest).length := by
  simpa using congrArg List.length (map_symbol_inForest around place i forest)

/-- How a record says where its occurrence stands: on the first level of the forest, or inside the
occurrence whose number it gives. -/
def Places (around : List Symbol) (place : Place) (parent : Option Nat) (n : Nat)
    (occurrences : List Occurrence) (record : Record) (x : Occurrence) : Prop :=
  (record.parent = parent ∧ x.around = around ∧ x.node.place.dropLast = place) ∨
    ∃ m y, record.parent = some (n + m) ∧ occurrences[m]? = some y ∧
      x.around.head? = some y.node.symbol ∧ x.node.place.dropLast = y.node.place

theorem exists_of_getElem?_recordsIn (around : List Symbol) (place : Place) (i : Nat) {n k : Nat}
    {parent : Option Nat} {forest : List Symbol} {record : Record}
    (h : (recordsIn parent n forest)[k]? = some record) :
    ∃ x, (inForest around place i forest)[k]? = some x ∧ x.node.symbol.toEntry = record.entry ∧
      Places around place parent n (inForest around place i forest) record x := by
  induction forest using forest_induction generalizing around place i n k parent with
  | nil => simp at h
  | cons s rest ihchildren ihrest =>
    rw [recordsIn_cons] at h
    rw [inForest_cons]
    have hlength := length_inForest (s :: around) (place ++ [i]) 0 s.children
    cases k with
    | zero =>
      obtain rfl := Option.some.inj h
      exact ⟨_, rfl, rfl, .inl ⟨rfl, rfl, List.dropLast_concat⟩⟩
    | succ k =>
      rw [List.getElem?_cons_succ, List.getElem?_append, length_recordsIn] at h
      rw [List.getElem?_cons_succ, List.getElem?_append, hlength]
      split at h
      · next hk =>
        obtain ⟨x, hx, hentry, hplaces⟩ := ihchildren (s :: around) (place ++ [i]) 0 h
        refine ⟨x, by rw [if_pos hk, hx], hentry, .inr ?_⟩
        obtain ⟨hparent, haround, hplace⟩ | ⟨m, y, hparent, hy, haround, hplace⟩ := hplaces
        · exact ⟨0, _, hparent, rfl, by rw [haround]; rfl, hplace⟩
        · obtain ⟨hm, _⟩ := List.getElem?_eq_some_iff.1 hy
          refine ⟨m + 1, y, by rw [hparent, Nat.add_assoc, Nat.add_comm 1], ?_, haround, hplace⟩
          rw [List.getElem?_cons_succ, List.getElem?_append_left hm, hy]
      · next hk =>
        obtain ⟨x, hx, hentry, hplaces⟩ := ihrest around place (i + 1) h
        refine ⟨x, by rw [if_neg hk, hx], hentry, ?_⟩
        obtain hlevel | ⟨m, y, hparent, hy, hinside⟩ := hplaces
        · exact .inl hlevel
        · refine .inr ⟨m + (flatten s.children).length + 1, y, ?_, ?_, hinside⟩
          · rw [hparent]
            congr 1
            omega
          · rw [List.getElem?_cons_succ, List.getElem?_append_right (by omega), hlength,
              Nat.add_sub_cancel, hy]

end Occurrence

namespace Outline

/-- In pre-order the forest holds the symbols that the lines bring, in the order of the lines, and
each of them once. It is what the symbol table is assembled to, so no row is lost there: its entries
are those of the rows, and the rows are listed once each, where the records of the ledger say. A
symbol stands on the first level if no block was open when it was entered, and otherwise in the symbol
of the innermost open block, or in its own header if it is an argument. -/
theorem forest_lists_ledger (text : Text) :
    sketches (ofText text) =
      (states step start (SourceLine.readAll (lines text))).flatMap (fun (o, line) ↦
        sketches (o.created line)) ∧
    (SymbolTable.ofText text).assemble = ofText text ∧
    (flatten (ofText text)).map Symbol.toEntry =
      (SymbolTable.ofText text).rows.map SymbolRow.entry ∧
    (SymbolTable.ofText text).links.Perm
      ((Ledger.ofText text).zipIdx.map fun (record, n) ↦ (record.parent, n)) ∧
    (flatten (ofText text)).map Symbol.toEntry = (Ledger.ofText text).map Record.entry ∧
    ∀ (i : Nat) (record : Record), (Ledger.ofText text)[i]? = some record →
      ∃ x, (Occurrence.all (ofText text))[i]? = some x ∧ x.node.symbol.toEntry = record.entry ∧
        match record.parent with
        | none =>
          x.node.place.dropLast = [] ∧ Node.parentOf? (ofText text) (some x.node.place) = none
        | some j => ∃ y, (Occurrence.all (ofText text))[j]? = some y ∧
          x.node.place.dropLast = y.node.place ∧
          Node.parentOf? (ofText text) (some x.node.place) = some y.node.symbol := by
  refine ⟨sketches_ofLines _, SymbolTable.assemble_ofText text, ?_, ?_, ?_, ?_⟩
  · rw [SymbolTable.ofText_eq, map_entry_rowsIn]
  · rw [SymbolTable.ofText_eq, ← recordsIn_ofText]
    exact SymbolTable.links_perm none 0 (ofText text)
  · rw [← recordsIn_ofText, map_entry_recordsIn]
  · intro i record hrecord
    rw [← recordsIn_ofText] at hrecord
    obtain ⟨x, hx, hentry, hplaces⟩ :=
      Occurrence.exists_of_getElem?_recordsIn [] [] 0 hrecord
    refine ⟨x, hx, hentry, ?_⟩
    have hparent := Node.parentOf?_of_mem (List.mem_of_getElem? hx)
    obtain ⟨hnone, haround, hplace⟩ | ⟨j, y, hsome, hy, haround, hplace⟩ := hplaces
    · rw [hnone]
      exact ⟨hplace, by rw [hparent, haround]; rfl⟩
    · rw [hsome, Nat.zero_add]
      exact ⟨y, hy, hplace, hparent.trans haround⟩

/-- A region with a method that has two arguments and declares two variables, and a class that is not
closed. -/
theorem forest_lists_ledger_openClass :
    let text :=
      "#Region \"r\"\nSub S(a, b)\nDim x, y\nEnd Sub\n#End Region\nClass C\nDim z".toList
    ((SymbolTable.ofText text).rows.map fun row ↦ (row.entry.name, row.children)) =
      [(['r'], [1]), (['S'], [2, 3, 4, 5]), (['a'], []), (['b'], []), (['x'], []), (['y'], []),
        (['C'], [7]), (['z'], [])] ∧
    (SymbolTable.ofText text).roots = [0, 6] ∧
    (Ledger.ofText text).map (·.parent) =
      [none, some 0, some 1, some 1, some 1, some 1, none, some 6] ∧
    (flatten (ofText text)).map (fun s ↦ (s.name, s.range, s.children.map (·.name))) =
      [(['r'], ⟨⟨0, 0⟩, ⟨4, 11⟩⟩, [['S']]),
        (['S'], ⟨⟨1, 0⟩, ⟨3, 7⟩⟩, [['a'], ['b'], ['x'], ['y']]),
        (['a'], ⟨⟨1, 0⟩, ⟨1, 11⟩⟩, []), (['b'], ⟨⟨1, 0⟩, ⟨1, 11⟩⟩, []),
        (['x'], ⟨⟨2, 0⟩, ⟨2, 8⟩⟩, []), (['y'], ⟨⟨2, 0⟩, ⟨2, 8⟩⟩, []),
        (['C'], ⟨⟨5, 0⟩, ⟨6, 5⟩⟩, [['z']]), (['z'], ⟨⟨6, 0⟩, ⟨6, 5⟩⟩, [])] := by
  intro text
  obtain ⟨_, hassemble, _⟩ := forest_lists_ledger text
  exact ⟨by decide +kernel, by decide +kernel, by decide +kernel,
    by rw [← hassemble]; decide +kernel⟩

end Outline

end VbOutline
