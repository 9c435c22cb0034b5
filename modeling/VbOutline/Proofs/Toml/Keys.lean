import VbOutline.Config.Loading
import VbOutline.Proofs.Toml.Merging

/-!
# Tables that are read have different keys

A draft of a document is changed by setting keys in one of its tables, and each change keeps the
keys of a table different. The values that are set come from the reader of values, whose tables in
braces are put together in the same way. So no key stands twice in a document that is read, nor in
the tables that a configuration is loaded from.
-/

namespace VbOutline

open Text

namespace Toml

/-- A value that is no table with a key twice. -/
def KeyedValue (v : Toml) : Prop := ∀ entries, v = table entries → Keyed entries

theorem keyedValue_of_not_isTable {v : Toml} (h : v.isTable = false) : KeyedValue v := by
  rintro entries rfl
  cases h

theorem keyedValue_table {entries : List (Text × Toml)} (h : Keyed entries) :
    KeyedValue (table entries) := by
  rintro _ ⟨⟩
  exact h

variable {entries : List (Text × Toml)} {key : Text} {v : Toml}

theorem Keyed.put (h : Keyed entries) (hv : KeyedValue v) : Keyed (Entries.put entries key v) := by
  induction h with
  | nil => exact .cons rfl hv .nil
  | @cons first old rest hfirst hold hrest _ ih =>
    rw [Entries.put]
    split
    · exact .cons hfirst hv hrest
    · next hne =>
      refine .cons ?_ hold ih
      rw [Entries.lookup?_put, if_neg, hfirst]
      rintro rfl
      exact hne (beq_self_eq_true _)

theorem Keyed.drop (h : Keyed entries) (key : Text) : Keyed (Entries.drop entries key) := by
  induction h with
  | nil => exact .nil
  | cons hfirst hold _ _ ih =>
    rw [Entries.drop, List.filter_cons]
    split
    · exact .cons (Entries.lookup?_drop_of_none hfirst) hold ih
    · exact ih

theorem lookup?_finishEntries (drafts : List (Text × Draft)) (key : Text) :
    Entries.lookup? (finishEntries drafts) key = (Entries.lookup? drafts key).map Draft.finish := by
  induction drafts with
  | nil => rfl
  | cons entry drafts ih =>
    obtain ⟨first, draft⟩ := entry
    rw [finishEntries, Entries.lookup?_cons, Entries.lookup?_cons, ih]
    split <;> rfl

theorem finishEntries_put (drafts : List (Text × Draft)) (key : Text) (draft : Draft) :
    finishEntries (Entries.put drafts key draft) =
      Entries.put (finishEntries drafts) key draft.finish := by
  induction drafts with
  | nil => rfl
  | cons entry drafts ih =>
    obtain ⟨first, old⟩ := entry
    rw [finishEntries, Entries.put, Entries.put]
    split
    · rfl
    · rw [finishEntries, ih]

theorem finishEntries_drop (drafts : List (Text × Draft)) (key : Text) :
    finishEntries (Entries.drop drafts key) = Entries.drop (finishEntries drafts) key := by
  induction drafts with
  | nil => rfl
  | cons entry drafts ih =>
    obtain ⟨first, old⟩ := entry
    rw [finishEntries, Entries.drop, Entries.drop, List.filter_cons, List.filter_cons]
    split
    · rw [finishEntries]
      exact congrArg _ ih
    · exact ih

namespace DraftTable

/-- The table is finished with different keys. -/
def Keyed (t : DraftTable) : Prop := Toml.Keyed (finishEntries t.entries)

variable {t changed : DraftTable} {draft : Draft} {change : DraftTable → Option DraftTable}

theorem keyed_empty (origin : Origin) : DraftTable.Keyed ⟨origin, []⟩ := Toml.Keyed.nil

theorem Keyed.put (h : t.Keyed) (hdraft : KeyedValue draft.finish) :
    Toml.Keyed (finishEntries (t.entries.put key draft)) := by
  rw [finishEntries_put]
  exact Toml.Keyed.put h hdraft

theorem Keyed.of_lookup? (h : t.Keyed) {origin : Origin} {entries : List (Text × Draft)}
    (hlookup : t.entries.lookup? key = some (.table origin entries)) :
    Toml.Keyed (finishEntries entries) := by
  have hfinished : Entries.lookup? (finishEntries t.entries) key =
      some (Toml.table (finishEntries entries)) := by
    rw [lookup?_finishEntries, hlookup]
    rfl
  exact Toml.Keyed.of_lookup? h hfinished

theorem Keyed.setNew (h : t.Keyed) (draft : Draft) (hdraft : KeyedValue draft.finish)
    (hset : DraftTable.setNew key draft t = some changed) : changed.Keyed := by
  unfold DraftTable.setNew at hset
  split at hset
  · obtain rfl := Option.some.inj hset
    exact h.put hdraft
  · cases hset

/-- A change of a table inside another one keeps the keys different. -/
theorem Keyed.modifyAt {isDotted : Bool} {path : List Text}
    (hchange : ∀ t changed, t.Keyed → change t = some changed → changed.Keyed) (h : t.Keyed)
    (hmodify : t.modifyAt isDotted change path = some changed) : changed.Keyed := by
  induction path generalizing t changed with
  | nil => exact hchange t changed h hmodify
  | cons key path ih =>
    rw [DraftTable.modifyAt] at hmodify
    split at hmodify
    · obtain ⟨inner, hinner, rfl⟩ := Option.map_eq_some_iff.1 hmodify
      exact h.put (keyedValue_table (ih (keyed_empty _) hinner))
    · next origin entries hlookup =>
      split at hmodify
      · cases hmodify
      · obtain ⟨inner, hinner, rfl⟩ := Option.map_eq_some_iff.1 hmodify
        exact h.put (keyedValue_table (ih (h.of_lookup? hlookup) hinner))
    · obtain ⟨inner, -, rfl⟩ := Option.map_eq_some_iff.1 hmodify
      exact h.put (keyedValue_of_not_isTable rfl)
    · cases hmodify

theorem Keyed.assign (h : t.Keyed) {path : List Text} (hv : KeyedValue v)
    (hassign : t.assign path v = some changed) : changed.Keyed := by
  refine h.modifyAt (fun t changed h hset ↦ ?_) hassign
  rw [Option.ite_none_left_eq_some] at hset
  exact h.setNew (.value v) hv hset.2

theorem Keyed.begin (h : t.Keyed) {path : List Text} (hbegin : t.begin path = some changed) :
    changed.Keyed := by
  refine h.modifyAt (fun t changed h hset ↦ ?_) hbegin
  split at hset
  · next entries hlookup =>
    obtain rfl := Option.some.inj hset
    have hdropped := Toml.Keyed.drop h (path.getLast?.getD [])
    rw [← finishEntries_drop] at hdropped
    rw [DraftTable.Keyed, finishEntries_put]
    exact hdropped.put (keyedValue_table (h.of_lookup? hlookup))
  · exact h.setNew (.table .header []) (keyedValue_table .nil) hset

theorem Keyed.beginElement (h : t.Keyed) {path : List Text}
    (hbegin : t.beginElement path = some changed) : changed.Keyed := by
  refine h.modifyAt (fun t changed h hset ↦ ?_) hbegin
  split at hset
  · obtain rfl := Option.some.inj hset
    exact h.put (keyedValue_of_not_isTable rfl)
  · exact h.setNew (.tables [[]]) (keyedValue_of_not_isTable rfl) hset

end DraftTable

/-! ## Values that are read -/

/-- What each step keeps holds after any number of steps, none of which fails. -/
theorem forall_mem_foldl_bind {σ α : Type} {P : σ → Prop} (step : σ → α → Option σ)
    {items : List α} {start reached : σ} (hstart : P start)
    (hstep : ∀ item ∈ items, ∀ s s', P s → step s item = some s' → P s')
    (hreached : items.foldl (fun s item ↦ s.bind fun s ↦ step s item) (some start) =
      some reached) : P reached := by
  revert reached
  refine List.foldlRecOn items _ (motive := fun s ↦ ∀ {t}, s = some t → P t) ?_ ?_
  · rintro _ ⟨⟩
    exact hstart
  · intro s hs item hitem s' hs'
    obtain ⟨before, hbefore, hafter⟩ := Option.bind_eq_some_iff.1 hs'
    exact hstep item hitem before s' (hs hbefore) hafter

theorem keyedValue_of_inlineTable? {pairs : List (List Text × Toml)}
    (hpairs : ∀ pair ∈ pairs, KeyedValue pair.2) (h : inlineTable? pairs = some v) :
    KeyedValue v := by
  obtain ⟨t, ht, rfl⟩ := Option.map_eq_some_iff.1 h
  apply keyedValue_table
  refine forall_mem_foldl_bind (fun t (path, value) ↦ t.assign path value)
    (P := DraftTable.Keyed) (DraftTable.keyed_empty .header) ?_ ht
  intro pair hpair t changed ht hassign
  exact ht.assign (hpairs pair hpair) hassign

theorem keyedValue_of_map {α : Type} {read : Option (α × Text)} {make : α → Toml} {rest : Text}
    (hmake : ∀ a, (make a).isTable = false)
    (h : (read.map fun (a, rest) ↦ (make a, rest)) = some (v, rest)) : KeyedValue v := by
  obtain ⟨⟨a, after⟩, -, ha⟩ := Option.map_eq_some_iff.1 h
  obtain ⟨rfl, -⟩ := Prod.mk.inj ha
  exact keyedValue_of_not_isTable (hmake a)

theorem keyedValue_of_scalar? {s rest : Text} (h : scalar? s = some (v, rest)) : KeyedValue v := by
  apply keyedValue_of_not_isTable
  unfold scalar? at h
  grind [isTable, Option.map_eq_some_iff]

/-- Values that are read have different keys in their tables, by induction on the fuel. Those in
braces are held until the brace is closed. -/
theorem keyedValue_of_read (fuel : Nat) :
    (∀ depth s v rest, value? fuel depth s = some (v, rest) → KeyedValue v) ∧
      ∀ depth read s pairs rest, (∀ pair ∈ read, KeyedValue pair.2) →
        pairs? fuel depth read s = some (pairs, rest) → ∀ pair ∈ pairs, KeyedValue pair.2 := by
  induction fuel with
  | zero =>
    constructor
    · intro depth s v rest h
      cases h
    · intro depth read s pairs rest hread h
      cases h
  | succ fuel ih =>
    obtain ⟨ihvalue, ihpairs⟩ := ih
    constructor
    · intro depth s v rest h
      unfold value? at h
      split at h
      · exact keyedValue_of_map (fun text ↦ rfl) h
      · exact keyedValue_of_map (fun text ↦ rfl) h
      · rw [Option.ite_none_right_eq_some] at h
        exact keyedValue_of_map (fun items ↦ rfl) h.2
      · rw [Option.ite_none_right_eq_some] at h
        obtain ⟨⟨pairs, after⟩, hpairs, h⟩ := Option.bind_eq_some_iff.1 h.2
        obtain ⟨inner, hinner, h⟩ := Option.bind_eq_some_iff.1 h
        obtain ⟨rfl, -⟩ := Prod.mk.inj (Option.some.inj h)
        exact keyedValue_of_inlineTable? (ihpairs _ [] _ _ _ (by simp) hpairs) hinner
      · exact keyedValue_of_scalar? h
    · intro depth read s pairs rest hread h
      unfold pairs? at h
      split at h
      · obtain ⟨rfl, -⟩ := Prod.mk.inj (Option.some.inj h)
        simp
      · obtain ⟨⟨path, afterPath⟩, -, h⟩ := Option.bind_eq_some_iff.1 h
        obtain ⟨afterSign, -, h⟩ := Option.bind_eq_some_iff.1 h
        obtain ⟨⟨value, afterValue⟩, hvalue, h⟩ := Option.bind_eq_some_iff.1 h
        have hmore : ∀ pair ∈ (path, value) :: read, KeyedValue pair.2 :=
          List.forall_mem_cons.2 ⟨ihvalue _ _ _ _ hvalue, hread⟩
        dsimp only at h
        split at h
        · exact ihpairs _ _ _ _ _ hmore h
        · obtain ⟨rfl, -⟩ := Prod.mk.inj (Option.some.inj h)
          simpa only [List.mem_reverse] using hmore
        · cases h

theorem keyedValue_of_value? {fuel depth : Nat} {s rest : Text}
    (h : value? fuel depth s = some (v, rest)) : KeyedValue v :=
  (keyedValue_of_read fuel).1 _ _ _ _ h

/-- The value of an assignment is no table with a key twice. -/
def Item.Keyed (item : Item) : Prop := ∀ path v, item = assignment path v → KeyedValue v

theorem Item.keyed_of_item? {fuel : Nat} {s rest : Text} {item : Item}
    (h : item? fuel s = some (item, rest)) : item.Keyed := by
  rintro path v rfl
  unfold item? at h
  split at h
  · obtain ⟨key, -, h⟩ := Option.bind_eq_some_iff.1 h
    simp [Option.bind_eq_some_iff] at h
  · obtain ⟨key, -, h⟩ := Option.bind_eq_some_iff.1 h
    simp [Option.bind_eq_some_iff] at h
  · obtain ⟨⟨path, afterPath⟩, -, h⟩ := Option.bind_eq_some_iff.1 h
    obtain ⟨afterSign, -, h⟩ := Option.bind_eq_some_iff.1 h
    obtain ⟨⟨value, afterValue⟩, hvalue, h⟩ := Option.bind_eq_some_iff.1 h
    obtain ⟨afterLine, -, h⟩ := Option.bind_eq_some_iff.1 h
    obtain ⟨hitem, -⟩ := Prod.mk.inj (Option.some.inj h)
    obtain ⟨rfl, rfl⟩ := Item.assignment.inj hitem
    exact keyedValue_of_value? hvalue

theorem Item.keyed_of_itemsFrom {fuel : Nat} {read items : List Item} {s : Text}
    (hread : ∀ item ∈ read, item.Keyed) (h : itemsFrom fuel read s = some items) :
    ∀ item ∈ items, item.Keyed := by
  induction fuel generalizing read s with
  | zero => cases h
  | succ fuel ih =>
    unfold itemsFrom at h
    dsimp only at h
    split at h
    · obtain rfl := Option.some.inj h
      simpa only [List.mem_reverse] using hread
    · split at h
      · exact ih hread h
      · obtain ⟨⟨item, rest⟩, hitem, h⟩ := Option.bind_eq_some_iff.1 h
        exact ih (List.forall_mem_cons.2 ⟨keyed_of_item? hitem, hread⟩) h

theorem Assembly.keyed_add {a added : Assembly} {item : Item} (hitem : item.Keyed)
    (ha : a.root.Keyed) (h : a.add item = some added) : added.root.Keyed := by
  cases item with
  | header path =>
    obtain ⟨root, hroot, rfl⟩ := Option.map_eq_some_iff.1 h
    exact ha.begin hroot
  | element path =>
    obtain ⟨root, hroot, rfl⟩ := Option.map_eq_some_iff.1 h
    exact ha.beginElement hroot
  | assignment path value =>
    obtain ⟨root, hroot, rfl⟩ := Option.map_eq_some_iff.1 h
    have hvalue := hitem path value rfl
    exact ha.modifyAt (fun t changed ht hassign ↦ ht.assign hvalue hassign) hroot

theorem keyed_of_assemble {items : List Item} (hitems : ∀ item ∈ items, item.Keyed)
    (h : assemble items = some entries) : Keyed entries := by
  obtain ⟨a, ha, rfl⟩ := Option.map_eq_some_iff.1 h
  refine forall_mem_foldl_bind Assembly.add (P := fun a ↦ a.root.Keyed)
    (DraftTable.keyed_empty .header) ?_ ha
  exact fun item hitem a added ↦ Assembly.keyed_add (hitems item hitem)

/-! ## Moments -/

variable {changed : List (Text × Toml)}

theorem lookup?_entriesWithMoments?_of_none (hnone : Entries.lookup? entries key = none)
    (h : entriesWithMoments? entries = some changed) : Entries.lookup? changed key = none := by
  induction entries generalizing changed with
  | nil =>
    obtain rfl := Option.some.inj h
    rfl
  | cons entry rest ih =>
    obtain ⟨first, value⟩ := entry
    unfold entriesWithMoments? at h
    obtain ⟨value, -, h⟩ := Option.bind_eq_some_iff.1 h
    obtain ⟨rest, hrest, h⟩ := Option.bind_eq_some_iff.1 h
    obtain rfl := Option.some.inj h
    rw [Entries.lookup?_cons] at hnone ⊢
    split at hnone
    · cases hnone
    · next hfirst =>
      rw [if_neg hfirst]
      exact ih hnone hrest

/-- A table that is not a moment comes from a table. -/
theorem exists_of_withMoments?_eq_table (h : withMoments? v = some (table changed)) :
    ∃ entries, v = table entries ∧ entriesWithMoments? entries = some changed := by
  unfold withMoments? at h
  split at h
  · simp at h
  · next key value rest =>
    split at h
    · cases value <;> simp [momentOf?] at h
    · refine ⟨_, rfl, ?_⟩
      rw [entriesWithMoments?]
      simpa [Option.bind_eq_some_iff] using h
  · next hentries =>
    obtain rfl := Option.some.inj h
    cases changed with
    | nil => exact ⟨[], rfl, rfl⟩
    | cons entry rest => cases hentries _ _ _ rfl

theorem Keyed.entriesWithMoments? (h : Keyed entries)
    (hchanged : Toml.entriesWithMoments? entries = some changed) : Keyed changed := by
  induction h generalizing changed with
  | nil =>
    obtain rfl := Option.some.inj hchanged
    exact .nil
  | @cons key value rest hkey hvalue _ ihvalue ih =>
    unfold Toml.entriesWithMoments? at hchanged
    obtain ⟨read, hread, hchanged⟩ := Option.bind_eq_some_iff.1 hchanged
    obtain ⟨others, hothers, hchanged⟩ := Option.bind_eq_some_iff.1 hchanged
    obtain rfl := Option.some.inj hchanged
    refine .cons (lookup?_entriesWithMoments?_of_none hkey hothers) ?_ (ih hothers)
    rintro inner rfl
    obtain ⟨before, hbefore, hinner⟩ := exists_of_withMoments?_eq_table hread
    exact ihvalue before hbefore hinner

/-- No key stands twice in a document that is read. -/
theorem keyed_of_parse? {s : Text} (h : parse? s = some entries) : Keyed entries := by
  obtain ⟨assembled, hassembled, hmoments⟩ := Option.bind_eq_some_iff.1 h
  obtain ⟨items, hitems, hassembled⟩ := Option.bind_eq_some_iff.1 hassembled
  have hkeyed : ∀ item ∈ items, item.Keyed := Item.keyed_of_itemsFrom (by simp) hitems
  exact (keyed_of_assemble hkeyed hassembled).entriesWithMoments? hmoments

end Toml

/-- No key stands twice in a table that a configuration is loaded from. -/
theorem Config.keyed_of_readTable {tree : FileTree} {path : Text} {t : Toml.Table}
    (h : readTable tree path = .ok t) : Toml.Keyed t := by
  unfold readTable at h
  split at h
  · split at h
    · cases h
    · split at h
      · next hparse =>
        obtain rfl := Except.ok.inj h
        exact Toml.keyed_of_parse? hparse
      · cases h
  · obtain rfl := Except.ok.inj h
    exact .nil

end VbOutline
