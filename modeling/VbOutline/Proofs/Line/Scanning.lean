import VbOutline.Line.Bracket
import VbOutline.Line.Comment
import VbOutline.Proofs.Text.Placement

/-!
# What the readers of a line leave over

A reader of a line takes something off its beginning and leaves a suffix, or cuts the line into
pieces. Here it is said of each of them what it leaves and where that stands: the code of a line
comes before its comment, the rest after modifiers or a bracketed group is a suffix, and the pieces
of a list stand at the offsets given with them.
-/

namespace VbOutline.Text

theorem map_snd_states {σ α : Type} (step : σ → α → σ) (start : σ) (xs : List α) :
    (states step start xs).map Prod.snd = xs := by
  induction xs generalizing start with
  | nil => rfl
  | cons x xs ih => rw [states_cons, List.map_cons, ih]

theorem mem_of_mem_states {σ α : Type} {step : σ → α → σ} {start : σ} {xs : List α} {p : σ × α}
    (h : p ∈ states step start xs) : p.2 ∈ xs := by
  rw [← map_snd_states step start xs]
  exact List.mem_map_of_mem h

theorem exists_mem_states {σ α : Type} (step : σ → α → σ) (start : σ) {xs : List α} {x : α}
    (h : x ∈ xs) : ∃ s, (s, x) ∈ states step start xs := by
  rw [← map_snd_states step start xs] at h
  obtain ⟨⟨s, _⟩, hs, rfl⟩ := List.mem_map.1 h
  exact ⟨s, hs⟩

theorem foldl_of_getElem?_states {σ α : Type} {step : σ → α → σ} {start : σ} {xs : List α} {i : Nat}
    {p : σ × α} (h : (states step start xs)[i]? = some p) : (xs.take i).foldl step start = p.1 := by
  induction xs generalizing start i with
  | nil => simp at h
  | cons x xs ih =>
    rw [states_cons] at h
    cases i with
    | zero =>
      obtain rfl : (start, x) = p := by simpa using h
      rfl
    | succ i =>
      rw [List.getElem?_cons_succ] at h
      exact ih h

theorem states_append {σ α : Type} (step : σ → α → σ) (start : σ) (front back : List α) :
    states step start (front ++ back) =
      states step start front ++ states step (front.foldl step start) back := by
  induction front generalizing start with
  | nil => rfl
  | cons x front ih => rw [List.cons_append, states_cons, states_cons, ih]; rfl

/-- What is taken of a scanned list is the scan of its elements. -/
theorem states_takeWhile {σ α : Type} (step : σ → α → σ) (start : σ) (p : σ × α → Bool) (xs : List α) :
    states step start (((states step start xs).takeWhile p).map Prod.snd) =
      (states step start xs).takeWhile p := by
  induction xs generalizing start with
  | nil => rfl
  | cons x xs ih =>
    rw [states_cons, List.takeWhile_cons]
    split
    · rw [List.map_cons, states_cons, ih]
    · rfl

theorem exists_append_of_mem_states {σ α : Type} {step : σ → α → σ} {start : σ} {xs : List α}
    {p : σ × α} (h : p ∈ states step start xs) :
    ∃ front back, xs = front ++ p.2 :: back ∧ p.1 = front.foldl step start := by
  induction xs generalizing start with
  | nil => simp at h
  | cons x xs ih =>
    rw [states_cons, List.mem_cons] at h
    obtain rfl | h := h
    · exact ⟨[], xs, rfl, rfl⟩
    · obtain ⟨front, back, rfl, hfold⟩ := ih h
      exact ⟨x :: front, back, rfl, hfold⟩

theorem mem_of_mapM_eq_some {α β : Type} {f : α → Option β} {xs : List α} {ys : List β}
    (h : xs.mapM f = some ys) {y : β} (hy : y ∈ ys) : ∃ x ∈ xs, f x = some y := by
  induction xs generalizing ys with
  | nil =>
    obtain rfl : [] = ys := by simpa using h
    cases hy
  | cons x xs ih =>
    simp only [List.mapM_cons, Option.bind_eq_bind, Option.bind_eq_some_iff, Option.pure_def,
      Option.some.injEq] at h
    obtain ⟨z, hz, zs, hzs, rfl⟩ := h
    obtain rfl | hy := List.mem_cons.1 hy
    · exact ⟨x, List.mem_cons_self, hz⟩
    · obtain ⟨w, hw, hfw⟩ := ih hzs hy
      exact ⟨w, List.mem_cons_of_mem x hw, hfw⟩

theorem length_of_mapM_eq_some {α β : Type} {f : α → Option β} {xs : List α} {ys : List β}
    (h : xs.mapM f = some ys) : ys.length = xs.length := by
  induction xs generalizing ys with
  | nil =>
    obtain rfl : [] = ys := by simpa using h
    rfl
  | cons x xs ih =>
    simp only [List.mapM_cons, Option.bind_eq_bind, Option.bind_eq_some_iff, Option.pure_def,
      Option.some.injEq] at h
    obtain ⟨y, -, more, hmore, rfl⟩ := h
    rw [List.length_cons, List.length_cons, ih hmore]

/-- If elements with different keys contribute items that carry their key, the items with the key of
one element are those that it contributes. -/
theorem filter_flatMap_of_mem {α β κ : Type} [BEq κ] [LawfulBEq κ] {f : α → κ} {g : α → List β}
    {key : β → κ} (hkey : ∀ x, ∀ y ∈ g x, key y = f x) {xs : List α}
    (h : xs.Pairwise fun a b ↦ f a ≠ f b) {x : α} (hx : x ∈ xs) :
    (xs.flatMap g).filter (fun y ↦ key y == f x) = g x := by
  have hother {ys : List α} (hys : ∀ y ∈ ys, f y ≠ f x) :
      (ys.flatMap g).filter (fun y ↦ key y == f x) = [] := by
    rw [List.filter_eq_nil_iff]
    intro z hz
    obtain ⟨y, hy, hz⟩ := List.mem_flatMap.1 hz
    rw [hkey y z hz, beq_iff_eq]
    exact hys y hy
  obtain ⟨front, back, rfl⟩ := List.append_of_mem hx
  rw [List.pairwise_append, List.pairwise_cons] at h
  have hfront := hother fun y hy ↦ h.2.2 y hy x List.mem_cons_self
  have hback := hother fun y hy ↦ Ne.symm (h.2.1.1 y hy)
  have hself : (g x).filter (fun y ↦ key y == f x) = g x := by
    rw [List.filter_eq_self]
    intro y hy
    rw [hkey x y hy, beq_self_eq_true]
  rw [List.flatMap_append, List.flatMap_cons, List.filter_append, List.filter_append, hfront, hback,
    hself, List.nil_append, List.append_nil]

theorem splitFirst?_eq_none {sep : Char} {s : Text} (h : splitFirst? sep s = none) : sep ∉ s := by
  unfold splitFirst? at h
  split at h
  · next hnil =>
    intro hmem
    have hall := List.dropWhile_eq_nil_iff.1 hnil sep hmem
    simp at hall
  · cases h

theorem splitFirst?_eq_some {sep : Char} {s before rest : Text}
    (h : splitFirst? sep s = some (before, rest)) : s = before ++ sep :: rest := by
  unfold splitFirst? at h
  split at h
  · cases h
  · next c tail htail =>
    have hhead := List.head?_dropWhile_not (· != sep) s
    rw [htail] at hhead
    simp only [Option.some.injEq, Prod.mk.injEq] at h
    obtain ⟨rfl, rfl⟩ := h
    obtain rfl : c = sep := by simpa using hhead
    rw [← htail, List.takeWhile_append_dropWhile]

theorem splitFirst?_eq_some_iff {sep : Char} {s before rest : Text} :
    splitFirst? sep s = some (before, rest) ↔ s = before ++ sep :: rest ∧ sep ∉ before := by
  constructor
  · intro h
    refine ⟨splitFirst?_eq_some h, fun hsep ↦ ?_⟩
    unfold splitFirst? at h
    split at h
    · cases h
    · obtain ⟨rfl, -⟩ := Prod.mk.inj (Option.some.inj h)
      simpa using List.mem_takeWhile_imp hsep
  · rintro ⟨rfl, hsep⟩
    have hbefore : ∀ c ∈ before, (c != sep) = true := by
      intro c hc
      rw [bne_iff_ne]
      rintro rfl
      exact hsep hc
    rw [splitFirst?, List.dropWhile_append_of_pos hbefore, List.takeWhile_append_of_pos hbefore]
    simp

theorem splitLast?_eq_some_iff {sep : Char} {s before rest : Text} :
    splitLast? sep s = some (before, rest) ↔ s = before ++ sep :: rest ∧ sep ∉ rest := by
  have hreverse : s = before ++ sep :: rest ↔ s.reverse = rest.reverse ++ sep :: before.reverse := by
    rw [← List.reverse_inj, List.reverse_append, List.reverse_cons, List.append_assoc,
      List.singleton_append]
  rw [hreverse, ← List.mem_reverse, ← splitFirst?_eq_some_iff, splitLast?, Option.map_eq_some_iff]
  constructor
  · rintro ⟨⟨after, front⟩, h, hpair⟩
    obtain ⟨rfl, rfl⟩ := Prod.mk.inj hpair
    rw [List.reverse_reverse, List.reverse_reverse, h]
  · intro h
    exact ⟨_, h, by simp⟩

end VbOutline.Text

namespace VbOutline.Line

open Text

theorem stripComment_isPrefix (line : Text) : stripComment line <+: line := by
  have h := (List.takeWhile_prefix (l := withQuotes line) fun p ↦ !beginsComment p).map Prod.snd
  rwa [withQuotes, map_snd_states] at h

theorem afterChunk_isSuffix (s : Text) : afterChunk s <:+ s := List.dropWhile_suffix _

theorem trimStart_afterChunk_isSuffix (s : Text) : trimStart (afterChunk s) <:+ s :=
  (trimStart_isSuffix _).trans (afterChunk_isSuffix s)

theorem takeModifiers_isSuffix (allowed : List String) (s : Text) :
    (takeModifiers allowed s).2 <:+ s := by
  fun_induction takeModifiers allowed s with
  | case1 s _ more ih => exact ih.trans (trimStart_afterChunk_isSuffix s)
  | case2 s _ => exact List.suffix_rfl

/-! ## Groups and assignments -/

theorem takeGroup?_eq_some {rest inner after : Text}
    (h : takeGroup? ('(' :: rest) = some (inner, after)) :
    ∃ c, rest = inner ++ c :: after := by
  rw [takeGroup?] at h
  split at h
  · cases h
  · next p tail htail =>
    simp only [Option.some.injEq, Prod.mk.injEq] at h
    obtain ⟨rfl, rfl⟩ := h
    refine ⟨p.2, ?_⟩
    rw [← List.map_cons, ← htail, ← List.map_append, List.takeWhile_append_dropWhile, withNesting,
      map_snd_states]

theorem beforeAssignment?_isPrefix {s head : Text} (h : beforeAssignment? s = some head) :
    head <+: s := by
  simp only [beforeAssignment?] at h
  split at h
  · obtain rfl := Option.some.inj h
    have hmap := (List.takeWhile_prefix (l := withNesting valueBrackets .outside s)
      fun p ↦ !(p.2 == '=' && p.1.isOutside)).map Prod.snd
    rwa [withNesting, map_snd_states] at hmap
  · cases h

/-- What is assigned to ends before an equals sign. -/
theorem beforeAssignment?_eq_some {s head : Text} (h : beforeAssignment? s = some head) :
    ∃ value, s = head ++ '=' :: value := by
  simp only [beforeAssignment?] at h
  split at h
  · next hany =>
    obtain rfl := Option.some.inj h
    have hsplit := List.takeWhile_append_dropWhile (l := withNesting valueBrackets .outside s)
      (p := fun p ↦ !(p.2 == '=' && p.1.isOutside))
    cases hdrop : (withNesting valueBrackets .outside s).dropWhile
        (fun p ↦ !(p.2 == '=' && p.1.isOutside)) with
    | nil =>
      obtain ⟨p, hp, hassignment⟩ := List.any_eq_true.1 hany
      have hall := List.dropWhile_eq_nil_iff.1 hdrop p hp
      rw [hassignment] at hall
      cases hall
    | cons p tail =>
      have hhead := List.head?_dropWhile_not (fun p : Nesting × Char ↦ !(p.2 == '=' && p.1.isOutside))
        (withNesting valueBrackets .outside s)
      rw [hdrop, List.head?_cons] at hhead
      simp only [Bool.not_eq_false', Bool.and_eq_true, beq_iff_eq] at hhead
      refine ⟨tail.map Prod.snd, ?_⟩
      have hmap := congrArg (List.map Prod.snd) hsplit
      rw [hdrop, List.map_append, List.map_cons, hhead.1, withNesting, map_snd_states] at hmap
      exact hmap.symm
  · cases h

/-! ## Pieces of a list -/

/-- Whether a scanned character is a comma between two pieces. -/
def separates (p : Nesting × Char) : Bool := p.2 == ',' && p.1.isOutside

/-- Puts scanned characters in front of the pieces that follow them. -/
def cut (ps : List (Nesting × Char)) (rest : List Text) : List Text :=
  ps.foldr (fun p rest ↦ if separates p then [] :: rest else consPiece p.2 rest) rest

theorem cut_cons (p : Nesting × Char) (ps : List (Nesting × Char)) (rest : List Text) :
    cut (p :: ps) rest =
      if separates p then [] :: cut ps rest else consPiece p.2 (cut ps rest) := rfl

theorem cut_append (ps qs : List (Nesting × Char)) (rest : List Text) :
    cut (ps ++ qs) rest = cut ps (cut qs rest) := List.foldr_append

theorem pieces_eq_cut (s : Text) : pieces s = cut (withNesting listBrackets .outside s) [[]] := rfl

theorem cut_ne_nil (ps : List (Nesting × Char)) : cut ps [[]] ≠ [] := by
  cases ps with
  | nil => exact List.cons_ne_nil [] []
  | cons p ps =>
    rw [cut_cons]
    split
    · exact List.cons_ne_nil [] _
    · cases cut ps [[]] with
      | nil => exact List.cons_ne_nil [p.2] []
      | cons piece rest => exact List.cons_ne_nil (p.2 :: piece) rest

/-- Joining the pieces with commas gives the text back. -/
theorem intercalate_cut (ps : List (Nesting × Char)) :
    [','].intercalate (cut ps [[]]) = ps.map Prod.snd := by
  induction ps with
  | nil => rfl
  | cons p ps ih =>
    rw [cut_cons, List.map_cons, ← ih]
    have hne := cut_ne_nil ps
    split
    · next hcomma =>
      rw [separates, Bool.and_eq_true, beq_iff_eq] at hcomma
      rw [List.intercalate_cons_of_ne_nil hne, hcomma.1]
      rfl
    · obtain ⟨piece, more, hcut⟩ := List.exists_cons_of_ne_nil hne
      rw [hcut, consPiece, List.intercalate_cons_cons_left]

theorem intercalate_pieces (s : Text) : [','].intercalate (pieces s) = s := by
  rw [pieces_eq_cut, intercalate_cut, withNesting, map_snd_states]

theorem standsAt_of_mem_withOffsets {start offset : Nat} {piece : Text} {cut : List Text}
    (h : (offset, piece) ∈ withOffsets start cut) :
    ∃ k, offset = start + k ∧ StandsAt ([','].intercalate cut) k piece := by
  induction cut generalizing start with
  | nil => cases h
  | cons first rest ih =>
    rw [withOffsets, List.mem_cons] at h
    obtain h | h := h
    · obtain ⟨rfl, rfl⟩ := Prod.mk.inj h
      refine ⟨0, rfl, .of_isPrefix ?_⟩
      cases rest with
      | nil => simp
      | cons second more => simp [List.append_assoc]
    · have hne : rest ≠ [] := by
        rintro rfl
        cases h
      obtain ⟨k, rfl, hk⟩ := ih h
      refine ⟨byteSize first + 1 + k, by omega, ?_⟩
      rw [List.intercalate_cons_of_ne_nil hne]
      refine StandsAt.trans ⟨first ++ [','], [], by simp, ?_⟩ hk
      rw [byteSize_append]
      rfl

/-- Every piece of a list stands at the offset given with it. -/
theorem standsAt_of_mem_splitTopLevel {s piece : Text} {offset : Nat}
    (h : (offset, piece) ∈ splitTopLevel s) : StandsAt s offset piece := by
  obtain ⟨k, rfl, hk⟩ := standsAt_of_mem_withOffsets h
  rwa [intercalate_pieces, ← Nat.zero_add k] at hk

end VbOutline.Line
