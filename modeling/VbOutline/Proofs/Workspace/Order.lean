import Mathlib.Data.List.Nodup
import VbOutline.Proofs.Text.Lines
import VbOutline.Proofs.Uri.Escapes
import VbOutline.Workspace.Loading

/-!
# Documents in the order of their paths

A walk visits the files of a workspace, and those that can be loaded become documents. The
documents are in the order of their paths, and no two have the same URI, if in no directory two
entries have the same name and every name is one that a path can lead to. A tree keeps this property
when a file is written or taken away. What a path leads to is then told by the steps on the way, so
the path of a document is the place at which the walk came to its file.
-/

namespace VbOutline

open Text

namespace Path

/-- A name that an entry of a directory can have. -/
structure IsName (name : Text) : Prop where
  active : isIdle name = false
  notUp : name ≠ ['.', '.']
  whole : '/' ∉ name

section

variable {names : List Text}

/-- The parts of a path from names that say something are the names. -/
theorem filter_splitAll_joinParts (h : ∀ n ∈ names, IsName n) :
    (splitAll '/' (joinParts names)).filter (fun part ↦ !isIdle part) = names := by
  cases names with
  | nil => rfl
  | cons first rest =>
    have hwhole : ∀ n ∈ first :: rest, '/' ∉ n := fun n hn ↦ (h n hn).whole
    rw [splitAll_eq_splitOn, joinParts,
      List.splitOn_intercalate '/' hwhole (List.cons_ne_nil first rest), List.filter_eq_self]
    intro n hn
    rw [(h n hn).active]
    rfl

theorem names_ofNames (h : ∀ n ∈ names, IsName n) : Path.names (ofNames names) = names := by
  have hparts : splitAll '/' (ofNames names) = [] :: splitAll '/' (joinParts names) :=
    splitAll_append '/' [] (joinParts names)
  have hbody : bodySteps (splitAll '/' (joinParts names)) = names.map .name := by
    rw [bodySteps, filter_splitAll_joinParts h]
    refine List.map_congr_left fun n hn ↦ ?_
    rw [stepOf, if_neg (mt beq_iff_eq.1 (h n hn).notUp)]
  have hsteps : steps (ofNames names) = .root :: names.map .name := by
    rw [steps, split, hparts, if_pos (show isAbsolute (ofNames names) from rfl)]
    exact congrArg (.root :: ·) hbody
  rw [Path.names, hsteps, List.filterMap_cons_none rfl, List.filterMap_map]
  exact List.filterMap_some

theorem isAbsolute_joinParts (h : ∀ n ∈ names, IsName n) :
    isAbsolute (joinParts names) = false := by
  cases names with
  | nil => rfl
  | cons first rest =>
    have hfirst := h first List.mem_cons_self
    obtain ⟨c, name, rfl⟩ := List.exists_cons_of_ne_nil (l := first) (by
      rintro rfl
      exact Bool.false_ne_true hfirst.active.symm)
    have hhead : (joinParts ((c :: name) :: rest)).head? = some c := by
      cases rest <;> simp [joinParts, List.intercalate]
    rw [isAbsolute, hhead]
    have hc : c ≠ '/' := fun hc ↦ hfirst.whole (hc ▸ List.mem_cons_self)
    simpa using hc

end

theorem nameLe_iff {a b : Text} : nameLe a b ↔ String.ofList a ≤ String.ofList b :=
  decide_eq_true_iff

theorem nameLe_antisymm {a b : Text} (hab : nameLe a b) (hba : nameLe b a) : a = b :=
  String.ofList_injective (String.le_antisymm (nameLe_iff.1 hab) (nameLe_iff.1 hba))

theorem namesLe_cons {x y : Text} {a b : List Text} :
    namesLe (x :: a) (y :: b) ↔ if x = y then namesLe a b else nameLe x y := by
  rw [namesLe]
  simp only [beq_iff_eq]

theorem namesLe_antisymm {a b : List Text} (hab : namesLe a b) (hba : namesLe b a) : a = b := by
  induction a generalizing b with
  | nil =>
    cases b with
    | nil => rfl
    | cons y b => cases hba
  | cons x a ih =>
    cases b with
    | nil => cases hab
    | cons y b =>
      rw [namesLe_cons] at hab hba
      by_cases hxy : x = y
      · subst hxy
        rw [if_pos rfl] at hab hba
        rw [ih hab hba]
      · rw [if_neg hxy] at hab
        rw [if_neg (Ne.symm hxy)] at hba
        exact absurd (nameLe_antisymm hab hba) hxy

theorem namesLe_total (a b : List Text) : namesLe a b || namesLe b a := by
  induction a generalizing b with
  | nil => rfl
  | cons x a ih =>
    cases b with
    | nil => rfl
    | cons y b =>
      rw [Bool.or_eq_true, namesLe_cons, namesLe_cons]
      by_cases hxy : x = y
      · rw [if_pos hxy, if_pos hxy.symm, ← Bool.or_eq_true]
        exact ih b
      · rw [if_neg hxy, if_neg (Ne.symm hxy), nameLe_iff, nameLe_iff]
        exact String.le_total _ _

theorem namesLe_trans {a b c : List Text} (hab : namesLe a b) (hbc : namesLe b c) :
    namesLe a c := by
  induction a generalizing b c with
  | nil => rfl
  | cons x a ih =>
    obtain _ | ⟨y, b⟩ := b
    · cases hab
    obtain _ | ⟨z, c⟩ := c
    · cases hbc
    rw [namesLe_cons] at hab hbc ⊢
    split at hab
    · next hxy =>
      subst hxy
      split at hbc
      · next hxz =>
        rw [if_pos hxz]
        exact ih hab hbc
      · next hxz => rwa [if_neg hxz]
    · next hxy =>
      split at hbc
      · next hyz => rwa [← hyz, if_neg hxy]
      · next hyz =>
        have hxz : x ≠ z := by
          rintro rfl
          exact hxy (nameLe_antisymm hab hbc)
        rw [if_neg hxz, nameLe_iff]
        exact String.le_trans (nameLe_iff.1 hab) (nameLe_iff.1 hbc)

theorem pairwise_mergeSort_namesLe (places : List (List Text)) :
    (places.mergeSort namesLe).Pairwise fun a b ↦ namesLe a b := by
  apply List.pairwise_mergeSort
  · exact fun _ _ _ ↦ namesLe_trans
  · exact namesLe_total

/-- The order below a place is the order of the rests. -/
theorem namesLe_append (place a b : List Text) :
    namesLe (place ++ a) (place ++ b) = namesLe a b := by
  induction place with
  | nil => rfl
  | cons n place ih =>
    rw [List.cons_append, List.cons_append, namesLe, if_pos (beq_self_eq_true n), ih]

end Path

/-! ## Trees with proper names -/

namespace FileTree

/-- In no directory two entries have the same name, and every name is one that an entry can have. -/
inductive WellFormed : FileTree → Prop
  | file (content : ByteArray) : WellFormed (.file content)
  | directory {entries : List (Text × FileTree)} (distinct : (entries.map Prod.fst).Nodup)
      (named : ∀ e ∈ entries, Path.IsName e.1) (inner : ∀ e ∈ entries, WellFormed e.2) :
      WellFormed (.directory entries)

namespace WellFormed

variable {t new : FileTree} {place : List Text}

theorem empty : WellFormed .empty :=
  .directory .nil (List.forall_mem_nil _) (List.forall_mem_nil _)

theorem entries (h : t.WellFormed) : WellFormed (.directory t.entries) := by
  cases h with
  | file content => exact empty
  | directory distinct named inner => exact .directory distinct named inner

theorem of_lookup? {name : Text} {inner : FileTree} (h : t.WellFormed)
    (hlookup : t.entries.lookup? name = some inner) : inner.WellFormed := by
  obtain _ | ⟨-, -, hinner⟩ := h.entries
  exact hinner _ (Entries.mem_of_lookup? hlookup)

theorem get? {found : FileTree} (h : t.WellFormed) (hget : t.get? place = some found) :
    found.WellFormed := by
  induction place generalizing t with
  | nil => rwa [← Option.some.inj hget]
  | cons name place ih =>
    obtain ⟨inner, hlookup, hget⟩ := Option.bind_eq_some_iff.1 hget
    exact ih (h.of_lookup? hlookup) hget

theorem putEntry (h : t.WellFormed) (hnew : new.WellFormed) {name : Text}
    (hname : Path.IsName name) : WellFormed (.directory (t.entries.put name new)) := by
  obtain _ | ⟨hdistinct, hnamed, hinner⟩ := h.entries
  refine .directory (Entries.nodup_put hdistinct name new) ?_ ?_
  · intro e he
    obtain he | rfl := Entries.mem_put he
    · exact hnamed e he
    · exact hname
  · intro e he
    obtain he | rfl := Entries.mem_put he
    · exact hinner e he
    · exact hnew

theorem put (h : t.WellFormed) (hnew : new.WellFormed) (hplace : ∀ n ∈ place, Path.IsName n) :
    (FileTree.put new t place).WellFormed := by
  induction place generalizing t with
  | nil => exact hnew
  | cons name place ih =>
    rw [List.forall_mem_cons] at hplace
    refine h.putEntry (ih ?_ hplace.2) hplace.1
    cases hlookup : t.entries.lookup? name with
    | none => exact empty
    | some inner => exact h.of_lookup? hlookup

theorem dropEntry (h : t.WellFormed) (name : Text) :
    WellFormed (.directory (t.entries.drop name)) := by
  obtain _ | ⟨hdistinct, hnamed, hinner⟩ := h.entries
  have hkept : (t.entries.drop name).Sublist t.entries := List.filter_sublist
  refine .directory (hdistinct.sublist (hkept.map Prod.fst)) ?_ ?_
  · exact fun e he ↦ hnamed e (hkept.subset he)
  · exact fun e he ↦ hinner e (hkept.subset he)

theorem remove (h : t.WellFormed) (hplace : ∀ n ∈ place, Path.IsName n) :
    (t.remove place).WellFormed := by
  fun_induction FileTree.remove t place with
  | case1 => exact empty
  | case2 t name => exact h.dropEntry name
  | case3 t name rest hrest inner hlookup ih =>
    rw [List.forall_mem_cons] at hplace
    exact h.putEntry (ih (h.of_lookup? hlookup) hplace.2) hplace.1
  | case4 => exact h

theorem makeDirectories {trail : List Text} (h : t.WellFormed)
    (hplace : ∀ n ∈ trail ++ place, Path.IsName n)
    (hmade : t.makeDirectories trail place = .ok new) : new.WellFormed := by
  induction place generalizing t trail with
  | nil =>
    cases hmade
    exact h
  | cons name place ih =>
    rw [List.append_cons] at hplace
    have hfront : ∀ n ∈ trail ++ [name], Path.IsName n := fun n hn ↦
      hplace n (List.mem_append_left place hn)
    rw [FileTree.makeDirectories] at hmade
    split at hmade
    · exact ih h hplace hmade
    · cases hmade
    · exact ih (h.put empty hfront) hplace hmade

theorem writeText (h : t.WellFormed) (hplace : ∀ n ∈ place, Path.IsName n) {text : Text}
    (hwrite : t.writeText place text = .ok new) : new.WellFormed := by
  rw [FileTree.writeText] at hwrite
  cases hmade : t.makeDirectories [] place.dropLast with
  | error e =>
    rw [hmade] at hwrite
    cases hwrite
  | ok made =>
    have hdirectories : ∀ n ∈ [] ++ place.dropLast, Path.IsName n := fun n hn ↦
      hplace n (List.dropLast_subset place hn)
    have hwell := h.makeDirectories hdirectories hmade
    rw [hmade] at hwrite
    dsimp only [bind, Except.bind] at hwrite
    split at hwrite
    · cases hwrite
    · cases hwrite
      exact hwell.put (.file _) hplace

end WellFormed

section

variable {t : FileTree} {trail parts more place : List Text}

theorem follow_append :
    t.follow trail (parts ++ more) =
      (t.follow trail parts).bind fun trail ↦ t.follow trail more := by
  induction parts generalizing trail with
  | nil => rfl
  | cons part parts ih =>
    rw [List.cons_append, follow, follow]
    cases t.get? trail.reverse with
    | none => rfl
    | some found =>
      cases found with
      | file content => rfl
      | directory es =>
        dsimp only
        repeat' split
        all_goals first | exact ih | rfl

/-- A path that does not step up leads to the place of its names, if it leads anywhere. -/
theorem follow_eq_ok (hparts : ∀ part ∈ parts, part ≠ ['.', '.'])
    (h : t.follow trail parts = .ok place) :
    place = (parts.filter fun part ↦ !Path.isIdle part).reverse ++ trail := by
  induction parts generalizing trail with
  | nil => rw [← Except.ok.inj h]; rfl
  | cons part parts ih =>
    rw [List.forall_mem_cons] at hparts
    rw [follow] at h
    split at h
    · cases h
    · cases h
    · split at h
      · next hidle =>
        rw [ih hparts.2 h, List.filter_cons_of_neg (by simp [hidle])]
      · next hactive =>
        rw [if_neg (mt beq_iff_eq.1 hparts.1)] at h
        split at h
        · cases h
        · split at h
          · rw [ih hparts.2 h, List.filter_cons_of_pos (by simpa using hactive),
              List.reverse_cons, List.append_assoc, List.singleton_append]
          · cases h

/-- What a path leads to has proper names. -/
theorem isName_of_follow (htrail : ∀ n ∈ trail, Path.IsName n) (hparts : ∀ part ∈ parts, '/' ∉ part)
    (h : t.follow trail parts = .ok place) : ∀ n ∈ place, Path.IsName n := by
  induction parts generalizing trail with
  | nil => rwa [← Except.ok.inj h]
  | cons part parts ih =>
    rw [List.forall_mem_cons] at hparts
    rw [follow] at h
    split at h
    · cases h
    · cases h
    · split at h
      · exact ih htrail hparts.2 h
      · next hactive =>
        split at h
        · exact ih (fun n hn ↦ htrail n (List.drop_subset 1 trail hn)) hparts.2 h
        · next hup =>
          split at h
          · cases h
          · split at h
            · refine ih (List.forall_mem_cons.2 ⟨⟨?_, ?_, hparts.1⟩, htrail⟩) hparts.2 h
              · simpa using hactive
              · simpa using hup
            · cases h

theorem follow_of_resolve {path : Text} (h : t.resolve path = .ok place) :
    t.follow [] ((splitAll '/' path).drop 1) = .ok place.reverse := by
  rw [resolve] at h
  split at h
  · cases h
  · cases hfollow : t.follow [] ((splitAll '/' path).drop 1) with
    | error e =>
      rw [hfollow] at h
      cases h
    | ok trail =>
      rw [hfollow] at h
      rw [← Except.ok.inj h, List.reverse_reverse]

theorem isName_of_resolve {path : Text} (h : t.resolve path = .ok place) :
    ∀ n ∈ place, Path.IsName n := by
  have hparts : ∀ part ∈ (splitAll '/' path).drop 1, '/' ∉ part := fun part hpart ↦
    not_mem_of_mem_splitAll (List.drop_subset 1 _ hpart)
  have hnames := isName_of_follow (List.forall_mem_nil _) hparts (follow_of_resolve h)
  exact fun n hn ↦ hnames n (List.mem_reverse.2 hn)

/-- The parts of a path below a root come after parts that lead to the place of the root. -/
theorem exists_parts_join {root path : Text} (hroot : root ≠ [])
    (hrelative : Path.isAbsolute path = false) (hplace : t.resolve root = .ok place) :
    ∃ parts, (splitAll '/' (Path.join root path)).drop 1 = parts ++ splitAll '/' path ∧
      t.follow [] parts = .ok place.reverse := by
  have hfollow := follow_of_resolve hplace
  have hpos (s : Text) : 1 ≤ (splitAll '/' s).length :=
    List.length_pos_iff.2 (splitAll_ne_nil '/' s)
  have hjoin : Path.join root path =
      if root.getLast? == some '/' then root ++ path else root ++ '/' :: path := by
    rw [Path.join, hrelative, List.isEmpty_eq_false_iff.2 hroot, Bool.or_false,
      if_neg Bool.false_ne_true]
  rw [hjoin]
  split
  · next hslash =>
    obtain ⟨front, rfl⟩ := List.getLast?_eq_some_iff.1 (beq_iff_eq.1 hslash)
    refine ⟨(splitAll '/' front).drop 1, ?_, ?_⟩
    · rw [List.append_assoc, List.singleton_append, splitAll_append,
        List.drop_append_of_le_length (hpos front)]
    · -- the slash at the end of the root adds a part that says nothing
      rw [splitAll_append, List.drop_append_of_le_length (hpos front), follow_append] at hfollow
      cases hfront : t.follow [] ((splitAll '/' front).drop 1) with
      | error e =>
        rw [hfront] at hfollow
        cases hfollow
      | ok trail =>
        rw [hfront] at hfollow
        have hlast : t.follow trail [[]] = .ok place.reverse := hfollow
        rw [follow_eq_ok (by simp) hlast]
        rfl
  · exact ⟨(splitAll '/' root).drop 1,
      by rw [splitAll_append, List.drop_append_of_le_length (hpos root)], hfollow⟩

/-- What a path below a root leads to is below the place of the root. -/
theorem resolve_join {root : Text} {found names : List Text} (hroot : root ≠ [])
    (hplace : t.resolve root = .ok place) (hnames : ∀ n ∈ names, Path.IsName n)
    (h : t.resolve (Path.join root (Path.joinParts names)) = .ok found) :
    found = place ++ names := by
  obtain ⟨parts, hparts, hlead⟩ := exists_parts_join hroot (Path.isAbsolute_joinParts hnames) hplace
  have hfollow := follow_of_resolve h
  rw [hparts, follow_append, hlead] at hfollow
  have hup : ∀ part ∈ splitAll '/' (Path.joinParts names), part ≠ ['.', '.'] := by
    rintro _ hpart rfl
    have hmem : ['.', '.'] ∈ names := by
      rw [← Path.filter_splitAll_joinParts hnames]
      exact List.mem_filter.2 ⟨hpart, rfl⟩
    exact (hnames _ hmem).notUp rfl
  have hfound := follow_eq_ok hup hfollow
  rw [Path.filter_splitAll_joinParts hnames, ← List.reverse_append] at hfound
  exact List.reverse_injective hfound

end

end FileTree

/-! ## The walk -/

namespace FileFilter

open VbOutline.Path

theorem walkEntries_eq (usesGitignore : Bool) (way : RulesOnTheWay) (place : List Text)
    (entries : List (Text × FileTree)) :
    walkEntries usesGitignore way place entries = entries.flatMap fun e ↦
      if leavesOut way.inOrder (place ++ [e.1]) e.2.isDirectory then []
      else walk usesGitignore way (place ++ [e.1]) e.2 := by
  induction entries with
  | nil => rw [walkEntries]; rfl
  | cons e entries ih => rw [walkEntries, ih, List.flatMap_cons]

/-- No file is visited twice, and the files visited have proper names. -/
theorem walk_spec {t : FileTree} (h : t.WellFormed) (usesGitignore : Bool) (way : RulesOnTheWay)
    (place : List Text) :
    (walk usesGitignore way place t).Nodup ∧
      ∀ visited ∈ walk usesGitignore way place t,
        ∃ names, visited = place ++ names ∧ ∀ n ∈ names, IsName n := by
  induction h generalizing way place with
  | file content =>
    rw [walk]
    refine ⟨List.nodup_singleton place, ?_⟩
    intro visited hvisited
    exact ⟨[], by rw [List.mem_singleton.1 hvisited, List.append_nil], List.forall_mem_nil _⟩
  | @directory entries distinct named inner ih =>
    rw [walk, walkEntries_eq]
    generalize way.enter usesGitignore place (.directory entries) = way
    -- what an entry brings is below the place of the entry
    have hbelow {e : Text × FileTree} (he : e ∈ entries) {visited : List Text}
        (hvisited : visited ∈ if leavesOut way.inOrder (place ++ [e.1]) e.2.isDirectory then []
          else walk usesGitignore way (place ++ [e.1]) e.2) :
        ∃ names, visited = place ++ e.1 :: names ∧ ∀ n ∈ e.1 :: names, IsName n := by
      rw [List.mem_ite_nil_left] at hvisited
      obtain ⟨names, rfl, hnames⟩ := (ih e he way (place ++ [e.1])).2 visited hvisited.2
      exact ⟨names, by rw [List.append_assoc, List.singleton_append],
        List.forall_mem_cons.2 ⟨named e he, hnames⟩⟩
    constructor
    · rw [List.nodup_flatMap]
      constructor
      · intro e he
        split
        · exact .nil
        · exact (ih e he way _).1
      · rw [List.Nodup, List.pairwise_map] at distinct
        refine distinct.imp_of_mem fun {e f} he hf hne visited hvisited hother ↦ ?_
        obtain ⟨names, rfl, -⟩ := hbelow he hvisited
        obtain ⟨others, hsame, -⟩ := hbelow hf hother
        exact hne (List.cons.inj (List.append_cancel_left hsame)).1
    · intro visited hvisited
      obtain ⟨e, he, hvisited⟩ := List.mem_flatMap.1 hvisited
      obtain ⟨names, hplace, hnames⟩ := hbelow he hvisited
      exact ⟨e.1 :: names, hplace, hnames⟩

/-- The source files have different places below the root and are in the order of these. -/
theorem discover_spec {f : FileFilter} {tree : FileTree} (h : tree.WellFormed) :
    f.discover tree = [] ∨ ∃ (root : List Text) (places : List (List Text)),
      tree.resolve f.root = .ok root ∧ f.discover tree = places.map f.pathOf ∧
      (∀ place ∈ places, ∀ n ∈ place, IsName n) ∧ places.Pairwise fun a b ↦ namesLe a b ∧ a ≠ b := by
  rw [discover]
  cases hroot : tree.resolve f.root with
  | error e => exact .inl rfl
  | ok root =>
    dsimp only
    cases hfound : tree.get? root with
    | none => exact .inl rfl
    | some found =>
      cases found with
      | file content => exact .inl rfl
      | directory entries =>
        obtain ⟨hdistinct, hbelow⟩ :=
          walk_spec (h.get? hfound) f.usesGitignore (f.rulesAbove tree root) root
        dsimp only
        generalize walk f.usesGitignore (f.rulesAbove tree root) root (.directory entries) = visited
          at hdistinct hbelow ⊢
        have hrests : (visited.map fun place ↦ place.drop root.length).Nodup := by
          refine hdistinct.map_on fun a ha b hb hab ↦ ?_
          obtain ⟨names, rfl, -⟩ := hbelow a ha
          obtain ⟨others, rfl, -⟩ := hbelow b hb
          rw [List.drop_left, List.drop_left] at hab
          rw [hab]
        refine .inr ⟨root, _, rfl, rfl, ?_, ?_⟩
        · intro place hplace
          rw [List.mem_mergeSort, List.mem_filter, List.mem_map] at hplace
          obtain ⟨⟨a, ha, rfl⟩, -⟩ := hplace
          obtain ⟨names, rfl, hnames⟩ := hbelow a ha
          rwa [List.drop_left]
        · refine (pairwise_mergeSort_namesLe _).and ?_
          exact (List.mergeSort_perm _ namesLe).nodup_iff.2 (hrests.filter _)

end FileFilter

theorem Document.path_ofFile (path text : Text) : (ofFile path text).path = path := by
  rw [Document.path, ofFile, String.toList_ofList, Uri.toPath_ofPath]

namespace Document

/-- The documents are those of files, in the order of the paths, no two with the same URI. -/
structure InOrder (documents : List Document) : Prop where
  distinct : (documents.map (·.uri)).Nodup
  sorted : documents.Pairwise fun d e ↦ Path.namesLe (Path.names d.path) (Path.names e.path)
  files : ∀ d ∈ documents, d.uri = String.ofList (Uri.ofPath (Path.ofNames (Path.names d.path)))

end Document

namespace Workspace

theorem exists_of_load {w : Workspace} {tree : FileTree} {path : Text} {d : Document}
    (h : w.load tree path = .ok d) :
    ∃ place text, tree.resolve path = .ok place ∧ d = .ofFile (Path.ofNames place) text := by
  rw [load] at h
  split at h
  · cases h
  · cases h
  · next place hplace =>
    dsimp only at h
    split at h
    · cases h
    · split at h
      · cases h
      · split at h
        · cases h
        · split at h
          · next text _ => exact ⟨place, text, hplace, (Except.ok.inj h).symm⟩
          · cases h

/-- The documents of a workspace are loaded in the order of their paths. -/
theorem inOrder_loadAll {w : Workspace} {tree : FileTree} (h : tree.WellFormed)
    (hroot : w.filter.root ≠ []) : Document.InOrder (w.loadAll tree) := by
  obtain hnone | ⟨root, places, hplace, hpaths, hnamed, hsorted⟩ := w.filter.discover_spec h
  · rw [loadAll, hnone]
    exact ⟨.nil, .nil, List.forall_mem_nil _⟩
  have hload {place : List Text} (hmem : place ∈ places) {d : Document}
      (hd : (w.load tree (w.filter.pathOf place)).toOption = some d) :
      Path.names d.path = root ++ place ∧
        d.uri = String.ofList (Uri.ofPath (Path.ofNames (root ++ place))) := by
    cases hload : w.load tree (w.filter.pathOf place) with
    | error e =>
      rw [hload] at hd
      cases hd
    | ok loaded =>
      rw [hload] at hd
      obtain rfl : loaded = d := Option.some.inj hd
      obtain ⟨found, text, hfound, rfl⟩ := exists_of_load hload
      obtain rfl := FileTree.resolve_join hroot hplace (hnamed place hmem) hfound
      have hnames : ∀ n ∈ root ++ place, Path.IsName n :=
        List.forall_mem_append.2 ⟨FileTree.isName_of_resolve hplace, hnamed place hmem⟩
      exact ⟨by rw [Document.path_ofFile, Path.names_ofNames hnames], rfl⟩
  rw [loadAll, hpaths, List.filterMap_map]
  refine ⟨?_, ?_, ?_⟩
  · rw [List.Nodup, List.pairwise_map, List.pairwise_filterMap]
    refine hsorted.imp_of_mem fun {a b} ha hb hab d hd e he huri ↦ hab.2 ?_
    have hpath : d.path = e.path := congrArg (fun uri : String ↦ Uri.toPath uri.toList) huri
    have hnames := (hload ha hd).1
    rw [hpath, (hload hb he).1] at hnames
    exact (List.append_cancel_left hnames).symm
  · rw [List.pairwise_filterMap]
    refine hsorted.imp_of_mem fun {a b} ha hb hab d hd e he ↦ ?_
    rw [(hload ha hd).1, (hload hb he).1, Path.namesLe_append]
    exact hab.1
  · intro d hd
    obtain ⟨place, hmem, hd⟩ := List.mem_filterMap.1 hd
    rw [(hload hmem hd).1, (hload hmem hd).2]

end Workspace

end VbOutline
