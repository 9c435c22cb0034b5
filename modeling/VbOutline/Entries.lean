import VbOutline.Text.Basic

/-!
# Named entries

A list of values under names. The first value under a name counts, and setting a value replaces it
where it stands or adds it at the end, so that no name gets a second value.
-/

namespace VbOutline

abbrev Entries (α : Type) := List (Text × α)

namespace Entries

variable {α : Type}

def lookup? (es : Entries α) (name : Text) : Option α :=
  match es with
  | [] => none
  | (n, value) :: rest => if n == name then some value else lookup? rest name

/-- Sets the value under a name. -/
def put (es : Entries α) (name : Text) (value : α) : Entries α :=
  match es with
  | [] => [(name, value)]
  | (n, old) :: rest => if n == name then (n, value) :: rest else (n, old) :: put rest name value

def drop (es : Entries α) (name : Text) : Entries α := es.filter fun e ↦ e.1 != name

theorem lookup?_cons (name key : Text) (value : α) (es : Entries α) :
    lookup? ((key, value) :: es) name = if key = name then some value else lookup? es name := by
  simp only [lookup?, beq_iff_eq]

theorem lookup?_put (es : Entries α) (key name : Text) (value : α) :
    (es.put key value).lookup? name = if key = name then some value else es.lookup? name := by
  induction es with
  | nil => rw [put, lookup?_cons]
  | cons entry es ih =>
    obtain ⟨first, old⟩ := entry
    rw [put]
    split
    · next hfirst =>
      obtain rfl := beq_iff_eq.1 hfirst
      rw [lookup?_cons, lookup?_cons]
      split <;> rfl
    · next hfirst =>
      rw [beq_iff_eq] at hfirst
      rw [lookup?_cons, lookup?_cons, ih]
      split
      · next hname => rw [if_neg fun hkey ↦ hfirst (hname.trans hkey.symm)]
      · rfl

/-- Setting a key to the value that it has changes nothing. -/
theorem put_of_lookup? {es : Entries α} {key : Text} {value : α} (h : es.lookup? key = some value) :
    es.put key value = es := by
  induction es with
  | nil => cases h
  | cons entry es ih =>
    obtain ⟨first, old⟩ := entry
    rw [put]
    split
    · next hfirst =>
      rw [lookup?, if_pos hfirst] at h
      rw [Option.some.inj h]
    · next hfirst =>
      rw [lookup?, if_neg hfirst] at h
      rw [ih h]

theorem mem_of_lookup? {es : Entries α} {name : Text} {value : α}
    (h : es.lookup? name = some value) : (name, value) ∈ es := by
  induction es with
  | nil => cases h
  | cons entry es ih =>
    obtain ⟨first, old⟩ := entry
    rw [lookup?_cons] at h
    split at h
    · next hfirst =>
      rw [hfirst, Option.some.inj h]
      exact List.mem_cons_self
    · exact List.mem_cons_of_mem _ (ih h)

theorem mem_put {es : Entries α} {name : Text} {value : α} {entry : Text × α}
    (h : entry ∈ es.put name value) : entry ∈ es ∨ entry = (name, value) := by
  induction es with
  | nil => exact .inr (List.mem_singleton.1 h)
  | cons first es ih =>
    rw [put] at h
    split at h
    · next hfirst =>
      rw [beq_iff_eq.1 hfirst, List.mem_cons] at h
      exact h.symm.imp_left (List.mem_cons_of_mem first)
    · obtain rfl | h := List.mem_cons.1 h
      · exact .inl List.mem_cons_self
      · exact (ih h).imp_left (List.mem_cons_of_mem first)

/-- No name gets a second value. -/
theorem nodup_put {es : Entries α} (h : (es.map Prod.fst).Nodup) (name : Text) (value : α) :
    ((es.put name value).map Prod.fst).Nodup := by
  induction es with
  | nil => simp [put]
  | cons first es ih =>
    obtain ⟨hfirst, h⟩ := List.nodup_cons.1 h
    rw [put]
    split
    · exact List.nodup_cons.2 ⟨hfirst, h⟩
    · next hother =>
      refine List.nodup_cons.2 ⟨fun hmem ↦ ?_, ih h⟩
      obtain ⟨entry, hentry, heq⟩ := List.mem_map.1 hmem
      obtain hentry | rfl := mem_put hentry
      · exact hfirst (heq ▸ List.mem_map_of_mem hentry)
      · exact hother (beq_iff_eq.2 heq.symm)

/-- A name that is not there is not there either when another one is dropped. -/
theorem lookup?_drop_of_none {es : Entries α} {key name : Text} (h : es.lookup? name = none) :
    (es.drop key).lookup? name = none := by
  induction es with
  | nil => rfl
  | cons entry es ih =>
    obtain ⟨first, old⟩ := entry
    rw [lookup?_cons] at h
    split at h
    · cases h
    · next hfirst =>
      rw [drop, List.filter_cons]
      split
      · rw [lookup?_cons, if_neg hfirst]
        exact ih h
      · exact ih h

end Entries

end VbOutline
