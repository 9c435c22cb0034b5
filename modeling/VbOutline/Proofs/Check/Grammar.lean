import VbOutline.Proofs.Check.Balance

/-!
# The grammar of balanced documents

The documents whose blocks are balanced are those that a grammar derives. Whether a header opens a
block depends on the block around it and on the next line of code, so the grammar has a nonterminal
for each block that a line may stand in.

From a derivation the pass over the open blocks is computed by induction: a derived list of lines
leaves the open blocks as they were. For the other direction, what is left to read when some blocks
are open splits into one derived list for each open block, the line that closes it, and a derived
list outside all blocks.
-/

namespace VbOutline.Check

open Text Line SourceLine

/-- The lines that are not blank and do not go on with the line of code before them. -/
def processed (text : Text) : List SourceLine :=
  (readAll (lines text)).filter fun line ↦
    !isBlank line.code && !followsContinued (lines text) line.index

theorem processed_eq (text : Text) :
    processed text = (readAll (lines text)).filter fun line ↦ line.statement.isSome := by
  apply List.filter_congr
  intro line hline
  rw [(readIn_of_mem hline).isSome_statement]

theorem foldlM_advance?_filter (lines : List SourceLine) (blocks : List BlockAt) :
    (lines.filter fun line ↦ line.statement.isSome).foldlM advance? blocks =
      lines.foldlM advance? blocks := by
  induction lines generalizing blocks with
  | nil => rfl
  | cons line lines ih =>
    cases hs : line.statement with
    | none =>
      have hstays : advance? blocks line = some blocks := by simp [advance?, closed?, opened?, hs]
      rw [List.filter_cons_of_neg (by simp [hs]), ih, List.foldlM_cons, hstays]
      rfl
    | some s =>
      rw [List.filter_cons_of_pos (by simp [hs]), List.foldlM_cons, List.foldlM_cons]
      simp only [ih]

/-- The line opens a block inside the block `around`. -/
inductive Opens (rows : List Text) (around : Option Block) (line : SourceLine) : Block → Prop where
  | header (h : Header) (hstatement : line.statement = some (.header h))
      (hopens : h.opensBlock (around == some .interfaceType) (nextCode? rows line.index)) :
      Opens rows around line h.block
  | region (name : PlacedName) (hstatement : line.statement = some (.region name)) :
      Opens rows around line .region
  | control (start : ControlStart) (hstatement : line.statement = some (.control start))
      (hlines : start.singleLine = false) : Opens rows around line start.block

/-- The line is a closing statement for blocks of the given kind. -/
def Closes (line : SourceLine) (block : Block) : Prop :=
  ∃ e, line.statement = some (.blockEnd e) ∧ e.block = block

/-- Loops may be closed by words of their own. -/
example : ["Next", "Loop", "Wend", "End While"].map
    (fun s ↦ (BlockEnd.parse? s.toList).map BlockEnd.block) =
      [some .forNext, some .doLoop, some .whileLoop, some .whileLoop] := by
  decide +kernel

def IsLeaf (rows : List Text) (around : Option Block) (line : SourceLine) : Prop :=
  (∀ block, ¬ Opens rows around line block) ∧ ∀ block, ¬ Closes line block

/-- The block in which the lines of a block stand; a region leaves it as it is. -/
def inside (around : Option Block) (block : Block) : Option Block :=
  if block = .region then around else some block

/-- The lines that the grammar derives inside the block `around`. -/
inductive Balanced (rows : List Text) : Option Block → List SourceLine → Prop where
  | empty (around : Option Block) : Balanced rows around []
  | leaf {around : Option Block} {line : SourceLine} {rest : List SourceLine}
      (hline : IsLeaf rows around line) (hrest : Balanced rows around rest) :
      Balanced rows around (line :: rest)
  | block {around : Option Block} {block : Block} {first last : SourceLine}
      {body rest : List SourceLine} (hfirst : Opens rows around first block)
      (hbody : Balanced rows (inside around block) body) (hlast : Closes last block)
      (hrest : Balanced rows around rest) :
      Balanced rows around (first :: (body ++ last :: rest))

theorem closes_iff (line : SourceLine) (block : Block) :
    Closes line block ↔ closed? line = some block := (closed?_eq_some_iff line block).symm

theorem opens_iff {rows : List Text} {line : SourceLine} (hread : line.ReadIn rows)
    (around : Option Block) (block : Block) :
    Opens rows around line block ↔ opened? around line = some block := by
  constructor
  · rintro (⟨h, hs, hopens⟩ | ⟨name, hs⟩ | ⟨start, hs, hlines⟩)
    · simp [opened?, hs, hread.next, hopens]
    · simp [opened?, hs]
    · simp [opened?, hs, hlines]
  · intro h
    unfold opened? at h
    split at h
    · next header hs =>
      rw [Option.ite_none_right_eq_some, hread.next] at h
      obtain ⟨hopens, hblock⟩ := h
      exact Option.some.inj hblock ▸ .header header hs hopens
    · next name hs => exact Option.some.inj h ▸ .region name hs
    · next start hs =>
      rw [Option.ite_none_left_eq_some] at h
      obtain ⟨hlines, hblock⟩ := h
      exact Option.some.inj hblock ▸ .control start hs (by simpa using hlines)
    · cases h

theorem enclosing_cons (b : BlockAt) (blocks : List BlockAt) :
    BlockAt.enclosing (b :: blocks) = inside (BlockAt.enclosing blocks) b.1 := by
  by_cases hregion : b.1 = .region
  · rw [BlockAt.enclosing_cons_region hregion, inside, if_pos hregion]
  · rw [BlockAt.enclosing_cons_of_ne hregion, inside, if_neg hregion]

section

variable {rows : List Text} {line : SourceLine} (hread : line.ReadIn rows) {blocks : List BlockAt}

include hread

theorem advance?_of_isLeaf (h : IsLeaf rows (BlockAt.enclosing blocks) line) :
    advance? blocks line = some blocks := by
  obtain ⟨hopens, hcloses⟩ := h
  simp only [opens_iff hread] at hopens
  simp only [closes_iff] at hcloses
  rw [advance?, Option.eq_none_iff_forall_ne_some.2 hcloses]
  dsimp only
  rw [Option.eq_none_iff_forall_ne_some.2 hopens]

theorem advance?_of_opens {block : Block} (h : Opens rows (BlockAt.enclosing blocks) line block) :
    advance? blocks line = some ((block, line.index) :: blocks) := by
  have hcloses : closed? line = none := by
    cases h with
    | header _ hs | region _ hs | control _ hs => simp [closed?, hs]
  rw [opens_iff hread] at h
  rw [advance?, hcloses, h]

/-- Each step of the pass passes over a leaf, opens a block, or closes the innermost one. -/
theorem advance?_cases {after : List BlockAt} (h : advance? blocks line = some after) :
    (IsLeaf rows (BlockAt.enclosing blocks) line ∧ after = blocks) ∨
    (∃ block, Opens rows (BlockAt.enclosing blocks) line block ∧
      after = (block, line.index) :: blocks) ∨
    (∃ b, Closes line b.1 ∧ blocks = b :: after) := by
  unfold advance? at h
  split at h
  · next block hcloses =>
    rw [Option.ite_none_right_eq_some, Option.some.injEq] at h
    obtain ⟨hhead, rfl⟩ := h
    obtain ⟨b, hb, rfl⟩ := Option.map_eq_some_iff.1 hhead
    exact .inr (.inr ⟨b, (closes_iff line b.1).2 hcloses, List.eq_cons_of_mem_head? hb⟩)
  · next hcloses =>
    split at h
    · next block hopens =>
      exact .inr (.inl ⟨block, (opens_iff hread _ block).2 hopens, (Option.some.inj h).symm⟩)
    · next hopens =>
      refine .inl ⟨⟨?_, ?_⟩, (Option.some.inj h).symm⟩
      · intro block hblock
        rw [opens_iff hread, hopens] at hblock
        cases hblock
      · intro block hblock
        rw [closes_iff, hcloses] at hblock
        cases hblock

end

theorem advance?_of_closes {line : SourceLine} {b : BlockAt} (h : Closes line b.1)
    (blocks : List BlockAt) : advance? (b :: blocks) line = some blocks := by
  rw [closes_iff] at h
  simp [advance?, h]

/-! ## From derivations to runs -/

/-- Derived lines leave the open blocks as they were. -/
theorem Balanced.foldlM_advance? {rows : List Text} {around : Option Block}
    {lines : List SourceLine} (h : Balanced rows around lines)
    (hread : ∀ line ∈ lines, line.ReadIn rows) {blocks : List BlockAt}
    (haround : BlockAt.enclosing blocks = around) :
    lines.foldlM advance? blocks = some blocks := by
  induction h generalizing blocks with
  | empty => rfl
  | @leaf around line rest hline _ ih =>
    obtain ⟨hread, hreadRest⟩ := List.forall_mem_cons.1 hread
    rw [← haround] at hline
    rw [List.foldlM_cons, advance?_of_isLeaf hread hline]
    exact ih hreadRest haround
  | @block around block first last body rest hfirst _ hlast _ ihbody ihrest =>
    obtain ⟨hread, hreadTail⟩ := List.forall_mem_cons.1 hread
    obtain ⟨hreadBody, hreadEnd⟩ := List.forall_mem_append.1 hreadTail
    have hreadRest := (List.forall_mem_cons.1 hreadEnd).2
    have hinside : BlockAt.enclosing ((block, first.index) :: blocks) = inside around block := by
      rw [enclosing_cons, haround]
    have hbody := ihbody hreadBody hinside
    have hlast : Closes last (block, first.index).1 := hlast
    rw [← haround] at hfirst
    calc
      (first :: (body ++ last :: rest)).foldlM advance? blocks =
          (body ++ last :: rest).foldlM advance? ((block, first.index) :: blocks) := by
        rw [List.foldlM_cons, advance?_of_opens hread hfirst]
        rfl
      _ = (last :: rest).foldlM advance? ((block, first.index) :: blocks) := by
        rw [List.foldlM_append, hbody]
        rfl
      _ = rest.foldlM advance? blocks := by
        rw [List.foldlM_cons, advance?_of_closes hlast]
        rfl
      _ = some blocks := ihrest hreadRest haround

/-! ## From runs to derivations -/

/-- The lines split into what is derived inside each open block, the line that closes it, and what is
derived outside all blocks. -/
def Splits (rows : List Text) : List BlockAt → List SourceLine → Prop
  | [], lines => Balanced rows none lines
  | b :: blocks, lines => ∃ body last rest, lines = body ++ last :: rest ∧
      Balanced rows (BlockAt.enclosing (b :: blocks)) body ∧ Closes last b.1 ∧ Splits rows blocks rest

/-- What may stand before derived lines in the innermost open block may stand before all lines. -/
theorem Splits.append {rows : List Text} {blocks : List BlockAt} {lines : List SourceLine}
    (h : Splits rows blocks lines) (front : List SourceLine)
    (hfront : ∀ rest, Balanced rows (BlockAt.enclosing blocks) rest →
      Balanced rows (BlockAt.enclosing blocks) (front ++ rest)) :
    Splits rows blocks (front ++ lines) := by
  cases blocks with
  | nil => exact hfront lines h
  | cons b blocks =>
    obtain ⟨body, last, rest, rfl, hbody, hlast, hrest⟩ := h
    exact ⟨front ++ body, last, rest, by simp, hfront body hbody, hlast, hrest⟩

/-- If the pass ends with nothing open, the lines split. -/
theorem splits_of_foldlM {rows : List Text} {lines : List SourceLine}
    (hread : ∀ line ∈ lines, line.ReadIn rows) {blocks : List BlockAt}
    (h : lines.foldlM advance? blocks = some []) : Splits rows blocks lines := by
  induction lines generalizing blocks with
  | nil =>
    obtain rfl : blocks = [] := Option.some.inj h
    exact .empty none
  | cons line lines ih =>
    obtain ⟨hread, hreadRest⟩ := List.forall_mem_cons.1 hread
    rw [List.foldlM_cons, Option.bind_eq_bind, Option.bind_eq_some_iff] at h
    obtain ⟨after, hafter, hrun⟩ := h
    have hsplits := ih hreadRest hrun
    obtain ⟨hleaf, rfl⟩ | ⟨block, hopens, rfl⟩ | ⟨b, hcloses, rfl⟩ := advance?_cases hread hafter
    · exact hsplits.append [line] fun rest hrest ↦ .leaf hleaf hrest
    · obtain ⟨body, last, rest, rfl, hbody, hlast, hrest⟩ := hsplits
      rw [enclosing_cons] at hbody
      have hblock := hrest.append (line :: (body ++ [last])) fun tail htail ↦ by
        simpa using Balanced.block hopens hbody hlast htail
      simpa using hblock
    · exact ⟨[], line, lines, rfl, .empty _, hcloses, hsplits⟩

/-- Without disabled codes a document has no finding about balance if and only if the grammar derives
its processed lines outside all blocks. -/
theorem no_balanceCodes_iff_balanced (limit : Nat) (text : Text) (others : List DocumentOutline) :
    (∀ d ∈ validate ⟨limit, []⟩ text others, d.code ∉ balanceCodes) ↔
      Balanced (lines text) none (processed text) := by
  have hread : ∀ line ∈ processed text, line.ReadIn (lines text) :=
    fun line hline ↦ readIn_of_mem (List.mem_filter.1 hline).1
  rw [no_balanceCodes_iff, ← foldlM_advance?_filter, ← processed_eq]
  constructor
  · intro h
    exact splits_of_foldlM hread h
  · intro h
    exact h.foldlM_advance? hread rfl

end VbOutline.Check
