import VbOutline.Outline.Table
import VbOutline.Proofs.Outline.Steps
import VbOutline.Proofs.Symbol.Regions

/-!
# The assembly of the symbol table

A row is entered when its symbol is met, so the rows number the symbols of the forest in pre-order,
the ones of open blocks included: these rows are those that the blocks would have if they ended with
the last line. The number of a row is above that of the row around it. So when the rows are put
together from the last one on, the symbols that a row lists are in their slots, and those slots are
empty afterwards. Nothing is lost: the assembled forest is the one that the outline pass nests while
it reads the lines.
-/

namespace VbOutline

open Text

namespace Pass

variable {σ τ : Type}

/-- The pass `q` keeps `f x` where the pass `p` keeps `x`. Only arguments are inside a symbol that is
added. -/
structure Follows (q : Pass τ) (p : Pass σ) (f : σ → τ) : Prop where
  enclosing (x : σ) : q.enclosing (f x) = p.enclosing x
  add (x : σ) {s : Symbol} (h : ∀ a ∈ s.children, a.children = []) :
    f (p.add x s) = q.add (f x) s
  push (x : σ) (block : Block) {s : Symbol} (h : ∀ a ∈ s.children, a.children = []) :
    f (p.push x block s) = q.push (f x) block s
  close (x : σ) (block : Block) (stop : Position) :
    f (p.close x block stop) = q.close (f x) block stop

namespace Follows

variable {q : Pass τ} {p : Pass σ} {f : σ → τ}

theorem foldl_add (h : q.Follows p f) (x : σ) {symbols : List Symbol}
    (hleaves : ∀ s ∈ symbols, s.children = []) :
    f (symbols.foldl p.add x) = symbols.foldl q.add (f x) := by
  induction symbols generalizing x with
  | nil => rfl
  | cons s symbols ih =>
    rw [List.forall_mem_cons] at hleaves
    rw [List.foldl_cons, List.foldl_cons, ih _ hleaves.2, h.add _ (by simp [hleaves.1])]

/-- A line changes both in the same way. -/
theorem step (h : q.Follows p f) (x : σ) (line : SourceLine) :
    f (p.step x line) = q.step (f x) line := by
  have hleaf (name : Text) (offset : Nat) (kind : SymbolKind) (detail : Text) :
      ∀ a ∈ (Outline.leaf line name offset kind detail).children, a.children = [] := by
    simp [Outline.leaf]
  unfold Pass.step
  cases line.statement with
  | none => rfl
  | some statement =>
    cases statement with
    | blockEnd e => exact h.close x e.block line.stop
    | header header =>
      have harguments (kind : SymbolKind) : ∀ a ∈ (Symbol.mk
          (Outline.entry line header.name header.nameOffset kind header.detail)
          (Outline.arguments line header)).children, a.children = [] :=
        fun a ha ↦ (Outline.isLeafOn_arguments line header a ha).2
      simp only [declare, h.enclosing]
      cases header.block.symbolKind? with
      | none => rfl
      | some kind =>
        dsimp only
        split
        · exact h.push x header.block (harguments kind)
        · exact h.add x (harguments kind)
    | region y => exact h.push x .region (hleaf _ _ _ _)
    | imports y isAlias => exact h.add x (hleaf _ _ _ _)
    | implements names => exact h.foldl_add x (by simp [Outline.implemented, Outline.leaf])
    | declaration d =>
      dsimp only
      rw [h.enclosing]
      exact h.foldl_add x (by simp [Outline.declared, Outline.leaf])
    | blank | control | branch | plain =>
      dsimp only
      rw [h.enclosing]
      exact h.foldl_add x fun s hs ↦ (Outline.isLeafOn_enumMember line (p.enclosing x) s hs).2

theorem foldl_step (h : q.Follows p f) (x : σ) (lines : List SourceLine) :
    f (lines.foldl p.step x) = lines.foldl q.step (f x) := by
  induction lines generalizing x with
  | nil => rfl
  | cons line lines ih => rw [List.foldl_cons, List.foldl_cons, ih, h.step]

end Follows

end Pass

/-- The pass that nests the symbols while it reads the lines. -/
def Outline.pass : Pass Outline := ⟨Outline.enclosing, Outline.add, Outline.push, Outline.close⟩

theorem Outline.step_pass : Outline.pass.step = Outline.step := by
  funext o line
  unfold Pass.step Outline.step
  cases line.statement with
  | none => rfl
  | some statement => cases statement <;> rfl

namespace Symbol

/-- The numbers of the symbols on the first level of a forest, the first one having number `n`. -/
def numbersIn (n : Nat) : List Symbol → List Nat
  | [] => []
  | s :: rest => n :: numbersIn (n + 1 + (flatten s.children).length) rest

/-- The row of a symbol that has number `n`. -/
def row (s : Symbol) (n : Nat) : SymbolRow := ⟨s.toEntry, numbersIn (n + 1) s.children⟩

/-- The rows of a forest in pre-order, its first symbol having number `n`. -/
def rowsIn (n : Nat) (forest : List Symbol) : List SymbolRow :=
  ((flatten forest).zipIdx n).map fun (s, k) ↦ s.row k

theorem numbersIn_append (n : Nat) (left right : List Symbol) :
    numbersIn n (left ++ right) =
      numbersIn n left ++ numbersIn (n + (flatten left).length) right := by
  induction left generalizing n with
  | nil => rw [flatten_nil]; rfl
  | cons s left ih =>
    simp only [List.cons_append, numbersIn, ih, flatten_cons, List.length_cons, List.length_append]
    congr 3
    omega

@[simp]
theorem rowsIn_nil (n : Nat) : rowsIn n [] = [] := by rw [rowsIn, flatten_nil]; rfl

@[simp]
theorem length_rowsIn (n : Nat) (forest : List Symbol) :
    (rowsIn n forest).length = (flatten forest).length := by
  rw [rowsIn, List.length_map, List.length_zipIdx]

theorem rowsIn_append (n : Nat) (left right : List Symbol) :
    rowsIn n (left ++ right) = rowsIn n left ++ rowsIn (n + (flatten left).length) right := by
  rw [rowsIn, flatten_append, List.zipIdx_append, List.map_append, rowsIn, rowsIn]

theorem rowsIn_singleton (n : Nat) (s : Symbol) :
    rowsIn n [s] = s.row n :: rowsIn (n + 1) s.children := by
  rw [rowsIn, flatten_cons, flatten_nil, List.append_nil, List.zipIdx_cons, List.map_cons, rowsIn]

theorem rowsIn_cons (n : Nat) (s : Symbol) (rest : List Symbol) :
    rowsIn n (s :: rest) = s.row n :: (rowsIn (n + 1) s.children ++
      rowsIn (n + 1 + (flatten s.children).length) rest) := by
  rw [← List.singleton_append, rowsIn_append, rowsIn_singleton, flatten_cons, flatten_nil,
    List.append_nil, List.length_cons, Nat.add_assoc n 1, Nat.add_comm 1, List.cons_append]

theorem map_entry_rowsIn (n : Nat) (forest : List Symbol) :
    (rowsIn n forest).map SymbolRow.entry = (flatten forest).map Symbol.toEntry := by
  rw [rowsIn, List.map_map, ← List.zipIdx_map_fst n (flatten forest), List.map_map]
  simp only [List.zipIdx_map_fst]
  rfl

end Symbol

namespace SymbolTable

open VbOutline.Symbol

theorem endAt_append (stop : Position) (before after : List SymbolRow) (row : SymbolRow) :
    endAt stop (before ++ row :: after) before.length =
      before ++ { row with entry := row.entry.endingAt stop } :: after :=
  List.modifyTailIdx_add _ 0 before (row :: after)

theorem attach_append (child : Nat) (before after : List SymbolRow) (row : SymbolRow) :
    attach child (before ++ row :: after) before.length =
      before ++ { row with children := row.children ++ [child] } :: after :=
  List.modifyTailIdx_add _ 0 before (row :: after)

/-- A symbol that is put behind all others in the last block gets its rows after all others. -/
theorem attach_rowsIn (before : List SymbolRow) (entry : Entry) (children : List Symbol)
    (s : Symbol) {n : Nat} (hn : n = (before ++ rowsIn before.length [⟨entry, children⟩]).length) :
    attach n (before ++ rowsIn before.length [⟨entry, children⟩]) before.length ++ rowsIn n [s] =
      before ++ rowsIn before.length [⟨entry, children ++ [s]⟩] := by
  have hnumber : n = before.length + 1 + (flatten children).length := by
    rw [hn, List.length_append, length_rowsIn, flatten_cons, flatten_nil, List.append_nil,
      List.length_cons, Nat.add_assoc, Nat.add_comm 1]
  rw [rowsIn_singleton _ ⟨entry, children⟩, attach_append, rowsIn_singleton _ ⟨entry, _⟩, row, row,
    numbersIn_append, rowsIn_append, ← hnumber, List.append_assoc, List.cons_append]
  rfl

/-- Lists the next row in the innermost open block. -/
def listNext (t : SymbolTable) : SymbolTable :=
  match t.frames with
  | [] => { t with roots := t.roots ++ [t.rows.length] }
  | frame :: _ => { t with rows := attach t.rows.length t.rows frame.2 }

/-- The rows of a symbol, and of all inside it, in the innermost open block. -/
def graft (t : SymbolTable) (s : Symbol) : SymbolTable :=
  { t.listNext with rows := t.listNext.rows ++ rowsIn t.rows.length [s] }

@[simp]
theorem frames_listNext (t : SymbolTable) : t.listNext.frames = t.frames := by
  unfold listNext
  split <;> rfl

@[simp]
theorem length_rows_listNext (t : SymbolTable) : t.listNext.rows.length = t.rows.length := by
  unfold listNext
  split
  · rfl
  · exact List.length_modify _ _ _

theorem attach_append_of_lt {rows : List SymbolRow} {n : Nat} (h : n < rows.length) (child : Nat)
    (after : List SymbolRow) : attach child (rows ++ after) n = attach child rows n ++ after := by
  obtain ⟨before, row, rest, rfl, rfl⟩ : ∃ before row rest,
      rows = before ++ row :: rest ∧ n = before.length :=
    ⟨rows.take n, rows[n], rows.drop (n + 1), by simp, by simp; omega⟩
  rw [List.append_assoc, List.cons_append, attach_append, attach_append, List.append_assoc,
    List.cons_append]

/-- Arguments are put one by one behind the others of their header. -/
theorem foldl_enterIn (before : List SymbolRow) (entry : Entry) (children : List Symbol)
    {leaves : List Symbol} (h : ∀ a ∈ leaves, a.children = []) (t : SymbolTable)
    (hrows : t.rows = before ++ rowsIn before.length [⟨entry, children⟩]) :
    leaves.foldl (fun entered a ↦ entered.enterIn before.length a.toEntry) t =
      { t with rows := before ++ rowsIn before.length [⟨entry, children ++ leaves⟩] } := by
  induction leaves generalizing children t with
  | nil => rw [List.foldl_nil, List.append_nil, ← hrows]
  | cons a leaves ih =>
    rw [List.forall_mem_cons] at h
    have hleaf : rowsIn t.rows.length [a] = [⟨a.toEntry, []⟩] := by
      rw [rowsIn_singleton, row, h.1, rowsIn_nil]
      rfl
    have hlt : before.length < t.rows.length := by
      rw [hrows, List.length_append, length_rowsIn, flatten_cons]
      simp
    have hentered : (t.enterIn before.length a.toEntry).rows =
        before ++ rowsIn before.length [⟨entry, children ++ [a]⟩] := by
      rw [enterIn, attach_append_of_lt hlt, ← hleaf]
      simp only [hrows]
      exact attach_rowsIn before entry children a rfl
    rw [List.foldl_cons, ih (children ++ [a]) h.2 _ hentered, List.append_assoc,
      List.singleton_append]
    rfl

/-- The row of a symbol alone goes into the innermost open block as well. -/
theorem enter_eq_graft {t : SymbolTable} (h : ∀ frame ∈ t.frames, frame.2 < t.rows.length)
    (entry : Entry) : t.enter entry = t.graft ⟨entry, []⟩ := by
  obtain ⟨rows, roots, frames⟩ := t
  have hrow : rowsIn rows.length [⟨entry, []⟩] = [⟨entry, []⟩] := by
    rw [rowsIn_singleton, rowsIn_nil]
    rfl
  cases frames with
  | nil => simp only [enter, graft, listNext, hrow]
  | cons frame rest =>
    simp only [enter, graft, listNext, hrow, enterIn,
      attach_append_of_lt (h frame List.mem_cons_self)]

/-- A symbol and its arguments are entered as they are nested. -/
theorem add_eq_graft {t : SymbolTable} (hframes : ∀ frame ∈ t.frames, frame.2 < t.rows.length)
    {s : Symbol} (h : ∀ a ∈ s.children, a.children = []) : t.add s = t.graft s := by
  obtain ⟨entry, children⟩ := s
  have harguments := foldl_enterIn t.listNext.rows entry [] h (t.graft ⟨entry, []⟩)
    (by rw [graft, length_rows_listNext])
  rw [length_rows_listNext, List.nil_append] at harguments
  rw [add, enter_eq_graft hframes, harguments]
  rfl

end SymbolTable

namespace Outline

open VbOutline.Symbol SymbolTable

/-- The table of an outline that has the given roots and open blocks, if the last line ends at
`last`. -/
def tableOf (last : Position) (roots : List Symbol) : List OpenBlock → SymbolTable
  | [] => ⟨rowsIn 0 roots.reverse, numbersIn 0 roots.reverse, []⟩
  | b :: rest =>
    let outer := tableOf last roots rest
    { outer.graft (b.close last) with frames := (b.block, outer.rows.length) :: outer.frames }

def table (last : Position) (o : Outline) : SymbolTable := tableOf last o.roots o.stack

variable (last : Position)

theorem enclosing_table (o : Outline) : (o.table last).enclosing = o.enclosing := by
  obtain ⟨stack, roots⟩ := o
  rw [SymbolTable.enclosing, enclosing, table]
  induction stack with
  | nil => rfl
  | cons b rest ih =>
    simp only [tableOf, List.find?_cons]
    cases b.block != .region with
    | true => rfl
    | false => exact ih

theorem frames_table_lt (o : Outline) :
    ∀ frame ∈ (o.table last).frames, frame.2 < (o.table last).rows.length := by
  obtain ⟨stack, roots⟩ := o
  induction stack with
  | nil => simp [table, tableOf]
  | cons b rest ih =>
    intro frame hframe
    have hlength : (tableOf last roots rest).rows.length <
        ((tableOf last roots rest).graft (b.close last)).rows.length := by
      simp [graft]
    simp only [table, tableOf, List.mem_cons] at hframe
    obtain rfl | hframe := hframe
    · exact hlength
    · exact Nat.lt_trans (ih frame hframe) hlength

/-- A symbol that is added comes after all others. -/
theorem table_add (o : Outline) (s : Symbol) : (o.add s).table last = (o.table last).graft s := by
  obtain ⟨stack, roots⟩ := o
  cases stack with
  | nil =>
    simp only [add, table, tableOf, List.reverse_cons, rowsIn_append, numbersIn_append, graft,
      listNext, length_rowsIn, Nat.zero_add]
    rfl
  | cons b rest =>
    have hrows := attach_rowsIn (tableOf last roots rest).listNext.rows (b.close last).toEntry
      (b.close last).children s rfl
    rw [length_rows_listNext] at hrows
    have hclose : ({ b with inner := s :: b.inner } : OpenBlock).close last =
        ⟨(b.close last).toEntry, (b.close last).children ++ [s]⟩ := by
      simp [OpenBlock.close]
    simp only [add, table, tableOf, hclose]
    rw [graft, ← hrows]
    rfl

theorem table_push (o : Outline) (block : Block) {s : Symbol}
    (h : ∀ a ∈ s.children, a.children = []) :
    (o.push block s).table last = (o.table last).push last block s := by
  have hend := endAt_append last (o.table last).listNext.rows
    (rowsIn ((o.table last).rows.length + 1) s.children) (s.row (o.table last).rows.length)
  rw [length_rows_listNext, ← rowsIn_singleton] at hend
  simp only [SymbolTable.push, add_eq_graft (frames_table_lt last o) h, graft, hend]
  simp [push, table, tableOf, graft, OpenBlock.close, rowsIn_singleton, Symbol.row, Entry.endingAt]

/-- Closing the innermost block moves the end of its range and nothing else. -/
theorem table_move (b : OpenBlock) (rest : List OpenBlock) (roots : List Symbol)
    (stop : Position) :
    (add ⟨rest, roots⟩ (b.close stop)).table last =
      { tableOf last roots (b :: rest) with
        rows := endAt stop (tableOf last roots (b :: rest)).rows (tableOf last roots rest).rows.length
        frames := (tableOf last roots rest).frames } := by
  have hend := endAt_append stop (tableOf last roots rest).listNext.rows
    (rowsIn ((tableOf last roots rest).rows.length + 1) (b.close last).children)
    ((b.close last).row (tableOf last roots rest).rows.length)
  rw [length_rows_listNext, ← rowsIn_singleton] at hend
  rw [table_add]
  simp only [tableOf, graft, hend, table, frames_listNext]
  simp [OpenBlock.close, rowsIn_singleton, Symbol.row, Entry.endingAt]

theorem table_close (o : Outline) (block : Block) (stop : Position) :
    (o.close block stop).table last = (o.table last).close block stop := by
  obtain ⟨stack, roots⟩ := o
  cases stack with
  | nil => rfl
  | cons b rest =>
    simp only [close, SymbolTable.close]
    split
    · next h =>
      simp only [table, tableOf, h]
      exact table_move last b rest roots stop
    · next h =>
      simp only [table, tableOf, h]
      rfl

/-- A line changes the table of the outline as it changes the outline. -/
theorem follows_table : (SymbolTable.pass last).Follows pass (table last) where
  enclosing := enclosing_table last
  add o _ h := (table_add last o _).trans (add_eq_graft (frames_table_lt last o) h).symm
  push o block _ h := table_push last o block h
  close := table_close last

/-- When all blocks have been ended, the table has the rows of the forest. -/
theorem finish_tableOf (stop : Position) (stack : List OpenBlock) (roots : List Symbol) :
    (tableOf stop roots stack).finish stop =
      ⟨rowsIn 0 (closeAll stop stack roots), numbersIn 0 (closeAll stop stack roots), []⟩ := by
  fun_induction closeAll stop stack roots with
  | case1 roots => rfl
  | case2 b roots =>
    exact (congrArg (SymbolTable.finish · stop) (table_move stop b [] roots stop)).symm
  | case3 b outer rest roots ih =>
    rw [← ih]
    exact (congrArg (SymbolTable.finish · stop) (table_move stop b (outer :: rest) roots stop)).symm

end Outline

namespace SymbolTable

open VbOutline.Symbol

theorem ofText_eq (text : Text) :
    ofText text = ⟨rowsIn 0 (Outline.ofText text), numbersIn 0 (Outline.ofText text), []⟩ := by
  have hrun := (Outline.follows_table (Outline.endOf (SourceLine.readAll (lines text)))).foldl_step
    Outline.start (SourceLine.readAll (lines text))
  rw [Outline.ofText, Outline.ofLines, Outline.finish, ← Outline.finish_tableOf, ofText, ofLines]
  rw [Outline.step_pass] at hrun
  exact congrArg (finish · _) hrun.symm

/-- The slots of a forest of which nothing has been put together. -/
def emptySlots (forest : List Symbol) : List (Option Symbol) :=
  List.replicate (flatten forest).length none

/-- The slots of a forest that has been put together: each symbol of the first level is in its slot,
and those inside it have been taken out of theirs. -/
def slotsIn : List Symbol → List (Option Symbol)
  | [] => []
  | s :: rest => some s :: (emptySlots s.children ++ slotsIn rest)

theorem emptySlots_cons (s : Symbol) (rest : List Symbol) :
    emptySlots (s :: rest) = none :: (emptySlots s.children ++ emptySlots rest) := by
  rw [emptySlots, flatten_cons, List.cons_append, List.length_cons, List.length_append,
    List.replicate_succ, ← List.replicate_append_replicate]
  rfl

variable {before : List (Option Symbol)} {n : Nat}

theorem length_slots_before (h : before.length = n) (s : Symbol) :
    (before ++ none :: emptySlots s.children).length = n + 1 + (flatten s.children).length := by
  rw [List.length_append, List.length_cons, emptySlots, List.length_replicate, h, Nat.add_assoc,
    Nat.add_comm 1]

/-- The symbols of the first level are all found, and no slot keeps one. -/
theorem take_numbersIn (h : before.length = n) (forest : List Symbol)
    (after : List (Option Symbol)) :
    take (numbersIn n forest) (before ++ (slotsIn forest ++ after)) =
      (forest, before ++ (emptySlots forest ++ after)) := by
  induction forest generalizing before n with
  | nil => rw [emptySlots, flatten_nil]; rfl
  | cons s rest ih =>
    have hrest := ih (length_slots_before h s)
    have hset : (before ++ (slotsIn (s :: rest) ++ after)).set n none =
        before ++ none :: emptySlots s.children ++ (slotsIn rest ++ after) := by
      rw [List.set_append_right _ _ (Nat.le_of_eq h), h, Nat.sub_self, slotsIn, List.append_assoc,
        List.cons_append, List.cons_append, List.set_cons_zero, List.append_assoc]
    have hslot : (before ++ (slotsIn (s :: rest) ++ after))[n]? = some (some s) := by
      rw [List.getElem?_append_right (Nat.le_of_eq h), h, Nat.sub_self]
      rfl
    rw [numbersIn, take, hset, hrest, hslot, emptySlots_cons]
    simp only [List.append_assoc, List.cons_append]
    rfl

/-- The row of a symbol is put together when the rows inside it have been. -/
theorem build_row (h : before.length = n) (s : Symbol) (after : List (Option Symbol)) :
    build (s.row n) n (before ++ none :: (slotsIn s.children ++ after)) =
      before ++ some s :: (emptySlots s.children ++ after) := by
  obtain ⟨entry, children⟩ := s
  have hnext : (before ++ [none]).length = n + 1 := by rw [List.length_append, h]; rfl
  have htake := take_numbersIn hnext children after
  rw [List.append_assoc, List.append_assoc, List.singleton_append, List.singleton_append] at htake
  rw [build, Symbol.row, htake]
  dsimp only
  rw [List.set_append_right _ _ (Nat.le_of_eq h), h, Nat.sub_self, List.set_cons_zero]

/-- Putting the rows of a forest together, the last one first, fills its slots. -/
theorem foldr_build_rowsIn (h : before.length = n) (forest : List Symbol)
    (after : List (Option Symbol)) :
    ((rowsIn n forest).zipIdx n).foldr (fun (row, n) slots ↦ build row n slots)
        (before ++ (emptySlots forest ++ after)) =
      before ++ (slotsIn forest ++ after) := by
  induction forest using forest_induction generalizing before n after with
  | nil => rw [rowsIn_nil, emptySlots, flatten_nil]; rfl
  | cons s rest ihchildren ihrest =>
    have hrest := ihrest (length_slots_before h s) after
    have hnext : (before ++ [none]).length = n + 1 := by rw [List.length_append, h]; rfl
    have hchildren := ihchildren hnext (slotsIn rest ++ after)
    simp only [List.append_assoc, List.cons_append, List.nil_append] at hrest hchildren
    -- first the rows behind the symbol, then those inside it, and its own row in the end
    rw [rowsIn_cons, List.zipIdx_cons, List.zipIdx_append, length_rowsIn, List.foldr_cons,
      List.foldr_append, emptySlots_cons, List.cons_append, List.append_assoc, hrest, hchildren]
    rw [slotsIn, List.cons_append, List.append_assoc]
    exact build_row h s (slotsIn rest ++ after)

/-- The forest is assembled from the table: no symbol is lost, and each is where the pass put it. -/
theorem assemble_ofText (text : Text) : (ofText text).assemble = Outline.ofText text := by
  have hbuilt := foldr_build_rowsIn List.length_nil (Outline.ofText text) []
  have htake := take_numbersIn List.length_nil (Outline.ofText text) []
  rw [List.nil_append, List.nil_append, List.append_nil, List.append_nil] at hbuilt htake
  rw [assemble, built, ofText_eq]
  dsimp only
  rw [length_rowsIn, ← emptySlots, hbuilt, htake]

end SymbolTable

end VbOutline
