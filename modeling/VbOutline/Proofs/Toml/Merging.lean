import Mathlib.Data.List.Infix
import VbOutline.Toml.Value

/-!
# What a table over another one sets

A path of keys leads through tables. Where the upper table has a value that is no table, this value
holds, and nothing stands below it. Where the upper table says nothing on the whole way, the lower
table keeps what it has. Where both have tables, they are merged, so that laying the same table over
the result once more changes nothing.

All this needs that no key stands twice in the upper table. Tables that are read are of this kind.
-/

namespace VbOutline.Toml

open Text

/-- No key stands twice in the table or in a table inside it. -/
inductive Keyed : List (Text × Toml) → Prop where
  | nil : Keyed []
  | cons {key : Text} {value : Toml} {rest : List (Text × Toml)}
    (hkey : Entries.lookup? rest key = none)
    (hvalue : ∀ entries, value = table entries → Keyed entries) (hrest : Keyed rest) :
    Keyed ((key, value) :: rest)

def isTable : Toml → Bool
  | table _ => true
  | _ => false

theorem isTable_iff {v : Toml} : v.isTable ↔ ∃ entries, v = table entries := by
  cases v <;> simp [isTable]

variable {base upper : Table} {key : Text}

theorem Keyed.lookup?_of_mem (h : Keyed upper) {value : Toml} (hmem : (key, value) ∈ upper) :
    Entries.lookup? upper key = some value := by
  induction h with
  | nil => cases hmem
  | @cons first old rest hkey _ _ _ ih =>
    rw [Entries.lookup?_cons]
    obtain hhead | hmem := List.mem_cons.1 hmem
    · obtain ⟨rfl, rfl⟩ := Prod.mk.inj hhead
      rw [if_pos rfl]
    · have hrest := ih hmem
      rw [if_neg, hrest]
      rintro rfl
      rw [hkey] at hrest
      cases hrest

theorem Keyed.of_lookup? (h : Keyed upper) {inner : List (Text × Toml)}
    (hinner : Entries.lookup? upper key = some (table inner)) : Keyed inner := by
  induction h with
  | nil => cases hinner
  | cons hkey hvalue _ _ ih =>
    rw [Entries.lookup?_cons] at hinner
    split at hinner
    · exact hvalue inner (Option.some.inj hinner)
    · exact ih hinner

theorem overlay_of_not_isTable (below : Option Toml) {v : Toml} (h : v.isTable = false) :
    overlay below v = v := by
  cases v with
  | table entries => cases h
  | _ => rfl

theorem overlay_table_of_not_isTable {below : Option Toml} (h : ∀ v ∈ below, v.isTable = false)
    (entries : List (Text × Toml)) : overlay below (table entries) = table entries := by
  rw [overlay]
  rintro inner rfl
  cases h _ rfl

/-- A key has the value of the upper table, laid over the one below it, or else keeps its value. -/
theorem lookup?_merge (h : Keyed upper) (base : Table) (key : Text) :
    Entries.lookup? (merge base upper) key =
      match Entries.lookup? upper key with
      | some v => some (overlay (base.lookup? key) v)
      | none => base.lookup? key := by
  induction h generalizing base with
  | nil => rfl
  | @cons first value rest hfirst _ _ _ ih =>
    rw [merge, ih, Entries.lookup?_cons, Entries.lookup?_put]
    by_cases hkey : first = key
    · subst hkey
      simp [hfirst]
    · simp [hkey]

theorem at?_cons_of_none {path : List Text} (h : upper.lookup? key = none) :
    at? upper (key :: path) = none := by
  cases path with
  | nil => exact h
  | cons next path => simp [at?, h]

theorem at?_cons_of_table {inner : List (Text × Toml)} (h : upper.lookup? key = some (table inner))
    (path : List Text) : at? upper (key :: path) = at? inner path := by
  cases path with
  | nil => exact h
  | cons next path => simp [at?, h]

/-- Nothing stands below a value that is no table. -/
theorem at?_cons_of_not_isTable {v : Toml} (h : upper.lookup? key = some v) (hv : v.isTable = false)
    (path : List Text) : at? upper (key :: path) = if path = [] then some v else none := by
  cases path with
  | nil => exact h
  | cons next path =>
    cases v with
    | table entries => cases hv
    | _ => simp [at?, h]

theorem at?_cons_congr {t : Table} (h : t.lookup? key = upper.lookup? key) (path : List Text) :
    at? t (key :: path) = at? upper (key :: path) := by
  cases path with
  | nil => exact h
  | cons next path => simp only [at?, h]

/-- What stands at a path behind a first key, by what stands at the key. -/
theorem at?_cons_cases (upper : Table) (key : Text) :
    upper.lookup? key = none ∨ (∃ v, upper.lookup? key = some v ∧ v.isTable = false) ∨
      ∃ inner, upper.lookup? key = some (table inner) := by
  cases h : upper.lookup? key with
  | none => exact .inl rfl
  | some v =>
    cases hv : v.isTable with
    | false => exact .inr (.inl ⟨v, rfl, hv⟩)
    | true =>
      obtain ⟨inner, rfl⟩ := isTable_iff.1 hv
      exact .inr (.inr ⟨inner, rfl⟩)

/-- Nothing stands at a path that leads through a value that is no table. -/
theorem at?_eq_none_of_through {through path : List Text} {v : Toml}
    (h : at? upper through = some v) (hv : v.isTable = false) (hpath : through <+: path)
    (hne : through ≠ path) : at? upper path = none := by
  induction through generalizing upper path with
  | nil =>
    obtain rfl : table upper = v := Option.some.inj h
    cases hv
  | cons key through ih =>
    obtain ⟨more, rfl⟩ := hpath
    rw [List.cons_append] at hne ⊢
    have hmore : through ≠ through ++ more := fun heq ↦ hne (congrArg (key :: ·) heq)
    obtain hnone | ⟨w, hw, hwtable⟩ | ⟨inner, hinner⟩ := at?_cons_cases upper key
    · exact at?_cons_of_none hnone
    · have hmid : through ++ more ≠ [] := by
        intro hnil
        rw [hnil] at hmore
        exact hmore (List.append_eq_nil_iff.1 hnil).1
      rw [at?_cons_of_not_isTable hw hwtable, if_neg hmid]
    · rw [at?_cons_of_table hinner] at h ⊢
      exact ih h (List.prefix_append through more) hmore

/-! ## Merged tables -/

/-- At a key with a table above, the merged table has a table: the one above, merged with the one
below if that is a table too. -/
theorem lookup?_merge_table (h : Keyed upper) (base : Table) {inner : List (Text × Toml)}
    (hinner : upper.lookup? key = some (table inner)) :
    (∃ below, base.lookup? key = some (table below) ∧
        (merge base upper).lookup? key = some (table (merge below inner))) ∨
      (∀ v ∈ base.lookup? key, v.isTable = false) ∧
        (merge base upper).lookup? key = some (table inner) := by
  have hmerge := lookup?_merge h base key
  rw [hinner] at hmerge
  change _ = some (overlay (base.lookup? key) (table inner)) at hmerge
  obtain hnone | ⟨w, hw, hwtable⟩ | ⟨below, hbelow⟩ := at?_cons_cases base key
  · right
    rw [hnone] at hmerge ⊢
    exact ⟨by simp, hmerge⟩
  · right
    have hno : ∀ v ∈ base.lookup? key, v.isTable = false := by
      rw [hw]
      rintro _ ⟨⟩
      exact hwtable
    rw [overlay_table_of_not_isTable hno] at hmerge
    exact ⟨hno, hmerge⟩
  · left
    rw [hbelow] at hmerge
    exact ⟨below, hbelow, hmerge⟩

theorem lookup?_merge_of_none (h : Keyed upper) (hnone : upper.lookup? key = none) :
    (merge base upper).lookup? key = base.lookup? key := by
  rw [lookup?_merge h, hnone]

theorem lookup?_merge_of_not_isTable (h : Keyed upper) {v : Toml} (hv : upper.lookup? key = some v)
    (htable : v.isTable = false) : (merge base upper).lookup? key = some v := by
  rw [lookup?_merge h, hv]
  exact congrArg some (overlay_of_not_isTable _ htable)

/-- On a path through a value above that is no table, the merged table has what stands above. -/
theorem at?_merge_of_through (h : Keyed upper) (base : Table) {through path : List Text} {v : Toml}
    (hthrough : at? upper through = some v) (hv : v.isTable = false) (hpath : through <+: path) :
    at? (merge base upper) path = at? upper path := by
  induction through generalizing base upper path with
  | nil =>
    obtain rfl : table upper = v := Option.some.inj hthrough
    cases hv
  | cons key through ih =>
    obtain ⟨more, rfl⟩ := hpath
    rw [List.cons_append]
    obtain hnone | ⟨w, hw, hwtable⟩ | ⟨inner, hinner⟩ := at?_cons_cases upper key
    · rw [at?_cons_of_none hnone] at hthrough
      cases hthrough
    · exact at?_cons_congr ((lookup?_merge_of_not_isTable h hw hwtable).trans hw.symm) _
    · obtain ⟨below, -, hmerged⟩ | ⟨-, hmerged⟩ := lookup?_merge_table h base hinner
      · rw [at?_cons_of_table hinner] at hthrough ⊢
        rw [at?_cons_of_table hmerged]
        exact ih (h.of_lookup? hinner) below hthrough (List.prefix_append through more)
      · exact at?_cons_congr (hmerged.trans hinner.symm) _

/-- Where nothing stands above on the whole way, the merged table has what stands below. -/
theorem at?_merge_of_none (h : Keyed upper) (base : Table) {path : List Text}
    (hnone : at? upper path = none)
    (htables : ∀ through, through <+: path → through ≠ path → ∀ v ∈ at? upper through, v.isTable) :
    at? (merge base upper) path = at? base path := by
  induction path generalizing base upper with
  | nil => cases hnone
  | cons key path ih =>
    obtain hkey | ⟨w, hw, hwtable⟩ | ⟨inner, hinner⟩ := at?_cons_cases upper key
    · exact at?_cons_congr (lookup?_merge_of_none h hkey) path
    · -- a value that is no table stands at the first key, so the path ends there
      rw [at?_cons_of_not_isTable hw hwtable] at hnone
      split at hnone
      · cases hnone
      · next hne =>
        have hfirst : [key] <+: key :: path := ⟨path, rfl⟩
        have hproper : [key] ≠ key :: path := fun heq ↦ hne (List.cons.inj heq).2.symm
        rw [htables [key] hfirst hproper w hw] at hwtable
        cases hwtable
    · rw [at?_cons_of_table hinner] at hnone
      obtain ⟨below, hbelow, hmerged⟩ | ⟨hbelow, hmerged⟩ :=
        lookup?_merge_table h base hinner
      · rw [at?_cons_of_table hmerged, at?_cons_of_table hbelow]
        refine ih (h.of_lookup? hinner) below hnone fun through hthrough hne v hv ↦ ?_
        have hlonger : key :: through <+: key :: path := List.cons_prefix_cons.2 ⟨rfl, hthrough⟩
        have hproper : key :: through ≠ key :: path := fun heq ↦ hne (List.cons.inj heq).2
        apply htables (key :: through) hlonger hproper v
        rwa [at?_cons_of_table hinner]
      · rw [at?_cons_of_table hmerged, hnone]
        have hne : path ≠ [] := by
          rintro rfl
          cases hnone
        obtain hnothing | ⟨w, hw, hwtable⟩ | ⟨deeper, hdeeper⟩ := at?_cons_cases base key
        · exact (at?_cons_of_none hnothing).symm
        · rw [at?_cons_of_not_isTable hw hwtable, if_neg hne]
        · cases hbelow _ hdeeper

/-- Where a table stands above, the merged table has a table. -/
theorem at?_merge_of_table (h : Keyed upper) (base : Table) {path : List Text}
    {entries : List (Text × Toml)} (htable : at? upper path = some (table entries)) :
    ∃ merged, at? (merge base upper) path = some (table merged) := by
  induction path generalizing base upper with
  | nil => exact ⟨_, rfl⟩
  | cons key path ih =>
    obtain hkey | ⟨w, hw, hwtable⟩ | ⟨inner, hinner⟩ := at?_cons_cases upper key
    · rw [at?_cons_of_none hkey] at htable
      cases htable
    · rw [at?_cons_of_not_isTable hw hwtable, Option.ite_none_right_eq_some] at htable
      obtain rfl := Option.some.inj htable.2
      cases hwtable
    · rw [at?_cons_of_table hinner] at htable
      obtain ⟨below, -, hmerged⟩ | ⟨-, hmerged⟩ := lookup?_merge_table h base hinner
      · rw [at?_cons_of_table hmerged]
        exact ih (h.of_lookup? hinner) below htable
      · rw [at?_cons_of_table hmerged]
        exact ⟨entries, htable⟩

/-! ## Merging once more -/

/-- A table adds nothing to a table that has each of its values already. -/
theorem merge_eq_self {t : Table} {entries : List (Text × Toml)}
    (h : ∀ key value, (key, value) ∈ entries →
      ∃ w, t.lookup? key = some w ∧ overlay (some w) value = w) : merge t entries = t := by
  induction entries with
  | nil => rfl
  | cons entry rest ih =>
    obtain ⟨key, value⟩ := entry
    obtain ⟨w, hw, hsame⟩ := h key value List.mem_cons_self
    rw [merge, hw, hsame, Entries.put_of_lookup? hw]
    exact ih fun key value hmem ↦ h key value (List.mem_cons_of_mem _ hmem)

theorem overlay_none (value : Toml) : overlay none value = value := by
  cases hvalue : value.isTable with
  | false => exact overlay_of_not_isTable none hvalue
  | true =>
    obtain ⟨entries, rfl⟩ := isTable_iff.1 hvalue
    exact overlay_table_of_not_isTable (by simp) entries

/-- Laying the value over the result once more changes nothing. -/
def Settles (value : Toml) : Prop :=
  ∀ below, overlay (some (overlay below value)) value = overlay below value

theorem Keyed.merge_merge_of_settles (h : Keyed upper)
    (hsettles : ∀ key value, (key, value) ∈ upper → Settles value) (base : Table) :
    merge (merge base upper) upper = merge base upper := by
  apply merge_eq_self
  intro key value hmem
  have hlookup := lookup?_merge h base key
  rw [h.lookup?_of_mem hmem] at hlookup
  exact ⟨_, hlookup, hsettles key value hmem (base.lookup? key)⟩

theorem Keyed.merge_self_of_settles (h : Keyed upper)
    (hsettles : ∀ key value, (key, value) ∈ upper → Settles value) : merge upper upper = upper := by
  apply merge_eq_self
  intro key value hmem
  have hself := hsettles key value hmem none
  rw [overlay_none] at hself
  exact ⟨value, h.lookup?_of_mem hmem, hself⟩

/-- The values of a table settle, by induction on the tables inside it. -/
theorem Keyed.settles (h : Keyed upper) : ∀ key value, (key, value) ∈ upper → Settles value := by
  induction h with
  | nil =>
    intro key value hmem
    cases hmem
  | @cons first old rest _ hvalue _ ihvalue ihrest =>
    intro key value hmem below
    obtain hhead | hmem := List.mem_cons.1 hmem
    · obtain ⟨rfl, rfl⟩ := Prod.mk.inj hhead
      cases hold : value.isTable with
      | false => rw [overlay_of_not_isTable _ hold, overlay_of_not_isTable _ hold]
      | true =>
        obtain ⟨inner, rfl⟩ := isTable_iff.1 hold
        have hinner : Keyed inner := hvalue inner rfl
        have hsettles := ihvalue inner rfl
        by_cases htable : ∃ base, below = some (table base)
        · obtain ⟨base, rfl⟩ := htable
          exact congrArg table (hinner.merge_merge_of_settles hsettles base)
        · have hno : ∀ v ∈ below, v.isTable = false := by
            rintro v hv
            by_contra hv'
            obtain ⟨base, rfl⟩ := isTable_iff.1 (by simpa using hv')
            exact htable ⟨base, hv⟩
          rw [overlay_table_of_not_isTable hno]
          exact congrArg table (hinner.merge_self_of_settles hsettles)
    · exact ihrest key value hmem below

/-- The law of merging at every path of keys. Where the upper table has a value that is no table,
the result has this value, and nothing below it. Where the upper table has nothing and no such value
on the way, the result has what the lower table has. Where the upper table has a table, so has the
result. Merging the upper table once more changes nothing. -/
theorem at?_merge_law (base : Table) (h : Keyed upper) (path : List Text) :
    (∀ v ∈ at? upper path, v.isTable = false → at? (merge base upper) path = some v) ∧
      ((∃ through, through <+: path ∧ through ≠ path ∧
          ∃ v ∈ at? upper through, v.isTable = false) → at? (merge base upper) path = none) ∧
      (at? upper path = none → (∀ through, through <+: path → through ≠ path →
          ∀ v ∈ at? upper through, v.isTable) → at? (merge base upper) path = at? base path) ∧
      ((∃ v ∈ at? upper path, v.isTable) → ∃ v ∈ at? (merge base upper) path, v.isTable) ∧
      merge (merge base upper) upper = merge base upper := by
  refine ⟨fun v hv htable ↦ ?_, ?_, at?_merge_of_none h base, ?_,
    h.merge_merge_of_settles h.settles base⟩
  · rw [at?_merge_of_through h base hv htable List.prefix_rfl, hv]
  · rintro ⟨through, hpath, hne, v, hv, htable⟩
    rw [at?_merge_of_through h base hv htable hpath, at?_eq_none_of_through hv htable hpath hne]
  · rintro ⟨v, hv, htable⟩
    obtain ⟨entries, rfl⟩ := isTable_iff.1 htable
    obtain ⟨merged, hmerged⟩ := at?_merge_of_table h base hv
    exact ⟨table merged, hmerged, rfl⟩

/-- A number is replaced by a table, a table by a number, and in two tables the keys are merged. -/
theorem at?_merge_law_replaced :
    let base : Table := [("a".toList, integer 1), ("b".toList, table [("x".toList, integer 2)]),
      ("c".toList, table [("x".toList, integer 3), ("y".toList, integer 4)])]
    let upper : Table := [("c".toList, table [("y".toList, integer 5)]), ("b".toList, integer 6),
      ("a".toList, table [("x".toList, integer 7)])]
    Keyed upper ∧
      at? (merge base upper) ["c".toList, "y".toList] = some (integer 5) ∧
      at? (merge base upper) ["b".toList, "x".toList] = none ∧
      at? (merge base upper) ["c".toList, "x".toList] = some (integer 3) ∧
      ∃ v ∈ at? (merge base upper) ["a".toList], v.isTable := by
  intro base upper
  have hone (name : String) (n : Int) : Keyed [(name.toList, integer n)] :=
    .cons rfl (fun _ h ↦ by cases h) .nil
  have hupper : Keyed upper := by
    refine .cons rfl ?_ (.cons rfl ?_ (.cons rfl ?_ .nil))
    · rintro _ ⟨⟩
      exact hone "y" 5
    · rintro _ ⟨⟩
    · rintro _ ⟨⟩
      exact hone "x" 7
  refine ⟨hupper, (at?_merge_law base hupper _).1 _ rfl rfl, (at?_merge_law base hupper _).2.1 ?_,
    ?_, (at?_merge_law base hupper _).2.2.2.1 ⟨_, rfl, rfl⟩⟩
  · exact ⟨["b".toList], ⟨["x".toList], rfl⟩, by decide, _, rfl, rfl⟩
  · refine (at?_merge_law base hupper ["c".toList, "x".toList]).2.2.1 rfl fun through hpath hne ↦ ?_
    rw [← List.mem_inits] at hpath
    simp only [List.inits, List.map_cons, List.map_nil, List.mem_cons, List.not_mem_nil,
      or_false] at hpath
    obtain rfl | rfl | rfl := hpath
    · rintro _ ⟨⟩
      rfl
    · rintro _ ⟨⟩
      rfl
    · exact absurd rfl hne

end VbOutline.Toml
