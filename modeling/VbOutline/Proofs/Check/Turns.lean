import VbOutline.Proofs.Check.Accounting
import VbOutline.Proofs.Statement.Names

/-!
# The turns of the tracker

What the tracker does at a line follows from what the line is for it: whether the line opens a
block, closes the innermost one or is a branch of it, and whether it counts as content. Each turn is
listed here once, with all that the line is and with all that is reported. What is said elsewhere of
segments and of reachability at single lines goes through the turns.
-/

namespace VbOutline

open Text

/-- Only an `If` can stand on a single line. -/
theorem ControlStart.block_of_singleLine {text : Text} {c : ControlStart} (h : parse? text = some c)
    (hsingle : c.singleLine) : c.block = .ifThen := by
  unfold parse? at h
  split at h
  · obtain ⟨block, -, rfl⟩ := Option.map_eq_some_iff.1 h
    split at hsingle
    · unfold ofIf
      split <;> rfl
    · cases hsingle
  · cases h

namespace Check

open SourceLine

/-- A statement that opens no block. -/
def isStatement (line : SourceLine) : Bool :=
  match line.statement with
  | some .plain | some (.imports _ _) | some (.implements _) | some (.declaration _) => true
  | some (.control c) => c.block == .ifThen && c.singleLine
  | _ => false

/-- A statement that leaves its block. -/
def leavesBlock (line : SourceLine) : Bool :=
  match line.statement with
  | some .plain => Line.isTerminator (trim line.code)
  | _ => false

/-- The line is a branch of the innermost open block. -/
def branches (p : Tracker × SourceLine) : Bool :=
  match p.2.statement with
  | some (.branch _) => p.1.stack.head?.any fun frame ↦ frame.block.isControl
  | _ => false

/-- The line is a statement or a header, or it starts a control block. -/
def isContent (line : SourceLine) : Bool :=
  isStatement line || match line.statement with
    | some (.header _) => true
    | some (.control c) => !c.singleLine
    | _ => false

/-- What a line is for the tracker. -/
structure Role where
  /-- It opens a block. -/
  opens : Bool := false
  /-- It closes the innermost block. -/
  pops : Bool := false
  /-- It is a branch of the innermost block. -/
  branches : Bool := false
  /-- It is content of the innermost block. -/
  fills : Bool := false
  /-- It is a statement that opens no block. -/
  states : Bool := false

/-- Every line that is no marker of a region, no branch and no closing statement is content. -/
def fills (line : SourceLine) : Bool :=
  match line.statement with
  | none | some .blank | some (.region _) | some (.branch _) | some (.blockEnd _) => false
  | some _ => true

/-- A statement that opens no block, whatever its keyword. -/
def isSimple (line : SourceLine) : Bool :=
  match line.statement with
  | some .plain | some (.imports _ _) | some (.implements _) | some (.declaration _) => true
  | some (.control c) => c.singleLine
  | _ => false

theorem isSimple_of_leavesBlock {line : SourceLine} (h : leavesBlock line) : isSimple line := by
  unfold leavesBlock at h
  split at h
  · next hs => rw [isSimple, hs]
  · cases h

/-- A control start that is read from a line stands on a single line only if it is an `If`. -/
theorem isStatement_eq_isSimple {rows : List Text} {line : SourceLine} (h : line.ReadIn rows) :
    isStatement line = isSimple line := by
  rw [isStatement, isSimple]
  cases hs : line.statement with
  | none => rfl
  | some statement =>
    cases statement with
    | control c =>
      dsimp only
      cases hsingle : c.singleLine with
      | false => exact Bool.and_false _
      | true => rw [ControlStart.block_of_singleLine (h.readFrom hs) hsingle]; rfl
    | _ => rfl

theorem isContent_eq_fills {rows : List Text} {line : SourceLine} (h : line.ReadIn rows) :
    isContent line = fills line := by
  rw [isContent, isStatement_eq_isSimple h, isSimple, fills]
  cases line.statement with
  | none => rfl
  | some statement =>
    cases statement with
    | control c => exact Bool.or_not_self _
    | _ => rfl

namespace Tracker

def role (t : Tracker) (line : SourceLine) : Role :=
  ⟨Check.opens (t, line), pops (t, line), branches (t, line), Check.fills line, isSimple line⟩

/-- What a line is for the tracker is told by its statement. -/
theorem role_eq (t : Tracker) (line : SourceLine) :
    t.role line = match line.statement with
      | none | some .blank => {}
      | some (.blockEnd e) => { pops := t.stack.head?.any fun frame ↦ e.block == frame.block }
      | some (.header h) =>
        { opens := h.opensBlock (t.enclosing == some .interfaceType) line.next, fills := true }
      | some (.region _) => { opens := true }
      | some (.control c) => { opens := !c.singleLine, fills := true, states := c.singleLine }
      | some (.branch _) => { branches := t.stack.head?.any fun frame ↦ frame.block.isControl }
      | some _ => { fills := true, states := true } := by
  simp only [role, Check.opens, opened?, pops, closed?, Check.branches, Check.fills, isSimple]
  cases line.statement with
  | none => simp
  | some statement =>
    cases statement with
    | header h =>
      dsimp only
      split <;> simp_all
    | control c =>
      dsimp only
      split <;> simp_all
    | _ => simp

theorem leavesBlock_eq_false {t : Tracker} {line : SourceLine} (h : (t.role line).states = false) :
    leavesBlock line = false := by
  rw [← Bool.not_eq_true]
  intro hleaves
  exact Bool.false_ne_true (h.symm.trans (isSimple_of_leavesBlock hleaves))

/-- What the tracker does at a line: the tracker after it, and what is reported. -/
inductive Turn (t : Tracker) (line : SourceLine) : Tracker × List Diagnostic → Prop
  /-- The innermost block is closed. -/
  | closes {frame : Frame} {rest : List Frame} (stack : t.stack = frame :: rest)
      (closed : closed? line = some frame.block) (role : t.role line = { pops := true }) :
      Turn t line ({ t with stack := rest }.setDead false, emptySegment frame)
  /-- A closing statement does not fit the innermost block. -/
  | misfits {block : Block} {ds : List Diagnostic} (closed : closed? line = some block)
      (other : t.stack.head?.map Frame.block ≠ some block)
      (codes : CodesIn ["unexpected-closing", "mismatched-block"] ds) (role : t.role line = {}) :
      Turn t line (t, ds)
  /-- The innermost block goes on with another branch. -/
  | branches {frame : Frame} {rest : List Frame} {b : Branch}
      (statement : line.statement = some (.branch b)) (stack : t.stack = frame :: rest)
      (control : frame.block.isControl) (role : t.role line = { branches := true }) :
      Turn t line
        ({ t with
            stack := { frame with
              segment := ⟨b.keyword, true, line, false, false⟩, isDead := false } :: rest },
          emptySegment frame)
  /-- A branch stands outside of control blocks. -/
  | passes {b : Branch} (statement : line.statement = some (.branch b))
      (outside : ∀ frame ∈ t.stack.head?, frame.block.isControl = false) (role : t.role line = {}) :
      Turn t line (t, [])
  /-- A marker opens a region. -/
  | opensRegion {p : PlacedName} (statement : line.statement = some (.region p))
      (role : t.role line = { opens := true }) : Turn t line (t.push .region line, [])
  /-- A header or the start of a control block opens a block. -/
  | opens {block : Block} (opened : opened? t.enclosing line = some block)
      (role : t.role line = { opens := true, fills := true }) :
      Turn t line (t.markContent.push block line, [])
  /-- A header opens no block. -/
  | declares (opened : opened? t.enclosing line = none) (role : t.role line = { fills := true }) :
      Turn t line (t.markContent, [])
  /-- A statement opens no block. -/
  | states (role : t.role line = { fills := true, states := true }) :
      Turn t line (t.simple line (leavesBlock line))
  /-- Nothing begins on the line. -/
  | idles (statement : line.statement = none ∨ line.statement = some .blank)
      (role : t.role line = {}) : Turn t line (t, [])

theorem turn_close (t : Tracker) {line : SourceLine} {e : BlockEnd}
    (hs : line.statement = some (.blockEnd e)) : t.Turn line (t.close line e) := by
  have hrole := t.role_eq line
  rw [hs] at hrole
  have hclosed : closed? line = some e.block := (closed?_eq_some_iff line e.block).2 ⟨e, hs, rfl⟩
  obtain ⟨_ | ⟨frame, rest⟩, dead⟩ := t
  · exact .misfits hclosed nofun (by simp [Finding.code]) hrole
  · dsimp only [List.head?_cons, Option.any_some] at hrole
    rw [close]
    dsimp only
    by_cases hblock : frame.block = e.block
    · rw [if_pos (beq_iff_eq.2 hblock)]
      rw [beq_iff_eq.2 hblock.symm] at hrole
      exact .closes rfl (hclosed.trans (congrArg some hblock.symm)) hrole
    · rw [if_neg (mt beq_iff_eq.1 hblock)]
      rw [beq_eq_false_iff_ne.2 (Ne.symm hblock)] at hrole
      exact .misfits hclosed (by simpa using hblock) (by simp [Finding.code]) hrole

theorem turn_branch (t : Tracker) {line : SourceLine} {b : Branch}
    (hs : line.statement = some (.branch b)) : t.Turn line (t.branch line b) := by
  have hrole := t.role_eq line
  rw [hs] at hrole
  obtain ⟨_ | ⟨frame, rest⟩, dead⟩ := t
  · exact .passes hs (fun _ hframe ↦ absurd hframe (Option.not_mem_none _)) hrole
  · dsimp only [List.head?_cons, Option.any_some] at hrole
    rw [branch]
    dsimp only
    cases hcontrol : frame.block.isControl with
    | true =>
      rw [if_pos rfl]
      rw [hcontrol] at hrole
      exact .branches hs rfl hcontrol hrole
    | false =>
      rw [if_neg Bool.false_ne_true]
      rw [hcontrol] at hrole
      exact .passes hs (by simpa using hcontrol) hrole

/-- Each line makes one of the turns. -/
theorem turn_step (t : Tracker) (line : SourceLine) : t.Turn line (t.step line) := by
  have hrole := t.role_eq line
  rw [step]
  cases hs : line.statement with
  | none =>
    rw [hs] at hrole
    exact .idles (.inl hs) hrole
  | some statement =>
    rw [hs] at hrole
    cases statement with
    | blank => exact .idles (.inr hs) hrole
    | blockEnd e => exact t.turn_close hs
    | header header =>
      have haround : t.markContent.enclosing = t.enclosing := by simp [enclosing_eq, blocks_eq]
      dsimp only at hrole ⊢
      rw [haround]
      cases hopens : header.opensBlock (t.enclosing == some .interfaceType) line.next with
      | true =>
        rw [hopens] at hrole
        exact .opens (by simp [opened?, hs, hopens]) hrole
      | false =>
        rw [hopens] at hrole
        exact .declares (by simp [opened?, hs, hopens]) hrole
    | region p => exact .opensRegion hs hrole
    | control c =>
      dsimp only at hrole ⊢
      cases hsingle : c.singleLine with
      | true =>
        have hleaves : leavesBlock line = false := by simp [leavesBlock, hs]
        rw [hsingle] at hrole
        rw [if_pos rfl, ← hleaves]
        exact .states hrole
      | false =>
        rw [hsingle] at hrole
        rw [if_neg Bool.false_ne_true]
        exact .opens (by simp [opened?, hs, hsingle]) hrole
    | branch b => exact t.turn_branch hs
    | plain =>
      have hleaves : leavesBlock line = Line.isTerminator (trim line.code) := by
        simp [leavesBlock, hs]
      dsimp only
      rw [← hleaves]
      exact .states hrole
    | imports | implements | declaration =>
      have hleaves : leavesBlock line = false := by simp [leavesBlock, hs]
      dsimp only
      rw [← hleaves]
      exact .states hrole

end Tracker

end Check

end VbOutline
