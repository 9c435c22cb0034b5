import Mathlib.Data.List.Nodup
import VbOutline.Debounce

/-!
# Interleaved use of a debouncer

Several callers share a debouncer with the tasks that they spawn. A caller draws the generation of its
job before it has the table for itself, so jobs may enter the table in another order than that of their
generations. A task that was replaced or cancelled need not be stopped and may still wake up. What
happens in one piece is one step here, and the steps of all callers and tasks come in any order.

Whatever that order is, a task that wakes up finds its own job in the table or none at all.
-/

namespace VbOutline

namespace Debouncer

variable {α : Type}

/-! ## The table -/

theorem mem_without {d : Debouncer α} {key : String} {w : WaitingJob α} :
    w ∈ (d.without key).waiting ↔ w ∈ d.waiting ∧ w.key ≠ key := by
  simp [without]

theorem mem_enter {d : Debouncer α} {w v : WaitingJob α} :
    v ∈ (d.enter w).waiting ↔ (v ∈ d.waiting ∧ v.key ≠ w.key) ∨ v = w := by
  rw [enter, List.mem_append, mem_without, List.mem_singleton]

/-- The table has at most one job for each key. -/
def Single (d : Debouncer α) : Prop := (d.waiting.map (·.key)).Nodup

theorem Single.eq {d : Debouncer α} (h : d.Single) {v w : WaitingJob α} (hv : v ∈ d.waiting)
    (hw : w ∈ d.waiting) (hkey : v.key = w.key) : v = w :=
  List.inj_on_of_nodup_map h hv hw hkey

theorem Single.without {d : Debouncer α} (h : d.Single) (key : String) : (d.without key).Single :=
  h.sublist (List.filter_sublist.map _)

theorem Single.enter {d : Debouncer α} (h : d.Single) (w : WaitingJob α) : (d.enter w).Single := by
  unfold Single Debouncer.enter
  rw [List.map_append, List.map_singleton, List.nodup_append_comm, List.singleton_append,
    List.nodup_cons]
  refine ⟨?_, h.without w.key⟩
  rw [List.mem_map]
  rintro ⟨v, hv, hkey⟩
  exact (mem_without.1 hv).2 hkey

theorem Single.get?_of_mem {d : Debouncer α} (h : d.Single) {w : WaitingJob α} (hw : w ∈ d.waiting) :
    d.get? w.key = some w := by
  cases hfound : d.get? w.key with
  | none =>
    have hnone := List.find?_eq_none.1 hfound w hw
    simp at hnone
  | some v =>
    have hkey : v.key = w.key := by simpa using List.find?_some hfound
    rw [h.eq (List.mem_of_find?_eq_some hfound) hw hkey]

theorem Single.perm_without {d : Debouncer α} (h : d.Single) {w : WaitingJob α}
    (hw : w ∈ d.waiting) : d.waiting.Perm (w :: (d.without w.key).waiting) := by
  have hself : w ∉ (d.without w.key).waiting := fun hmem ↦ (mem_without.1 hmem).2 rfl
  rw [List.perm_ext_iff_of_nodup h.of_map (List.nodup_cons.2 ⟨hself, (h.without w.key).of_map⟩)]
  intro v
  rw [List.mem_cons, mem_without]
  constructor
  · intro hv
    by_cases hkey : v.key = w.key
    · exact .inl (h.eq hv hw hkey)
    · exact .inr ⟨hv, hkey⟩
  · rintro (rfl | ⟨hv, _⟩)
    · exact hw
    · exact hv

/-- A job that wakes up and runs is one of the table. -/
theorem wake_cases (d : Debouncer α) (key : String) (generation : Nat) :
    (∃ w ∈ d.waiting, w.key = key ∧ w.generation = generation ∧
      d.wake key generation = (d.without key, some w)) ∨
    d.wake key generation = (d, none) := by
  unfold wake
  cases hfound : d.get? key with
  | none => exact .inr rfl
  | some w =>
    by_cases hgeneration : w.generation = generation
    · have hkey : w.key = key := by simpa using List.find?_some hfound
      refine .inl ⟨w, List.mem_of_find?_eq_some hfound, hkey, hgeneration, ?_⟩
      simp [hgeneration]
    · simp [hgeneration]

theorem Single.wake_of_mem {d : Debouncer α} (h : d.Single) {w : WaitingJob α} (hw : w ∈ d.waiting) :
    d.wake w.key w.generation = (d.without w.key, some w) := by
  simp [wake, h.get?_of_mem hw]

/-! ## Callers and tasks -/

/-- A call that has drawn the generation of its job and waits for the table. -/
structure Call (α : Type) where
  key : String
  generation : Nat
  delay : Nat
  job : α

/-- The job of a call that has the table for itself at a given time. -/
def Call.waitingJob (c : Call α) (now : Nat) : WaitingJob α :=
  ⟨c.key, c.generation, now + c.delay, c.job⟩

theorem waiting_enter_waitingJob (d : Debouncer α) (c : Call α) (now : Nat) :
    (d.enter (c.waitingJob now)).waiting = (d.without c.key).waiting ++ [c.waitingJob now] := rfl

/-- A debouncer with those who share it. -/
structure Shared (α : Type) where
  table : Debouncer α
  now : Nat
  calls : List (Call α)
  /-- The tasks that have not woken up yet, whether or not their jobs are still in the table. -/
  tasks : List (WaitingJob α)

inductive Event (α : Type) where
  | draw (key : String) (delay : Nat) (job : α)
  | enter (call : Call α)
  | cancel (key : String)
  | wake (task : WaitingJob α)
  | pass (time : Nat)

namespace Shared

def start : Shared α := ⟨.start, 0, [], []⟩

/-- What can happen in one piece. -/
inductive Step : Shared α → Event α → Shared α → Prop where
  | draw (s : Shared α) (key : String) (delay : Nat) (job : α) :
      Step s (.draw key delay job)
        { s with table := s.table.draw.2, calls := ⟨key, s.table.draw.1, delay, job⟩ :: s.calls }
  | enter (s : Shared α) (c : Call α) (rest : List (Call α)) (hcall : s.calls.Perm (c :: rest)) :
      Step s (.enter c)
        { s with table := s.table.enter (c.waitingJob s.now), calls := rest,
                 tasks := c.waitingJob s.now :: s.tasks }
  | cancel (s : Shared α) (key : String) :
      Step s (.cancel key) { s with table := (s.table.cancel key).1 }
  | wake (s : Shared α) (t : WaitingJob α) (rest : List (WaitingJob α))
      (htask : s.tasks.Perm (t :: rest)) (hdue : t.due ≤ s.now) :
      Step s (.wake t) { s with table := (s.table.wake t.key t.generation).1, tasks := rest }
  | pass (s : Shared α) (time : Nat) : Step s (.pass time) { s with now := s.now + time }

/-- The generations of the jobs that have not entered the table or whose tasks have not woken up. -/
def generations (s : Shared α) : List Nat :=
  s.calls.map (·.generation) ++ s.tasks.map (·.generation)

/-- What holds in whatever order the steps come. -/
structure Consistent (s : Shared α) : Prop where
  single : s.table.Single
  nodup : s.generations.Nodup
  drawn : ∀ g ∈ s.generations, g < s.table.nextGeneration
  spawned : s.table.waiting ⊆ s.tasks

theorem consistent_start : (start : Shared α).Consistent where
  single := List.nodup_nil
  nodup := List.nodup_nil
  drawn := fun _ h ↦ absurd h List.not_mem_nil
  spawned := List.Subset.refl _

theorem generation_eq {s : Shared α} (h : s.Consistent) {t u : WaitingJob α} (ht : t ∈ s.tasks)
    (hu : u ∈ s.tasks) (hgeneration : t.generation = u.generation) : t = u :=
  List.inj_on_of_nodup_map (List.nodup_append.1 h.nodup).2.1 ht hu hgeneration

/-- A task that wakes up finds its own job or none. -/
theorem Consistent.wake_task {s : Shared α} (h : s.Consistent) {t : WaitingJob α}
    (ht : t ∈ s.tasks) :
    (t ∈ s.table.waiting ∧ s.table.wake t.key t.generation = (s.table.without t.key, some t)) ∨
    (t ∉ s.table.waiting ∧ s.table.wake t.key t.generation = (s.table, none)) := by
  by_cases hwaiting : t ∈ s.table.waiting
  · exact .inl ⟨hwaiting, h.single.wake_of_mem hwaiting⟩
  · refine .inr ⟨hwaiting, ?_⟩
    obtain ⟨w, hw, _, hgeneration, _⟩ | hnone := s.table.wake_cases t.key t.generation
    · have heq : w = t := generation_eq h (h.spawned hw) ht hgeneration
      exact absurd (heq ▸ hw) hwaiting
    · exact hnone

/-- Each step keeps the table and its tasks consistent. -/
theorem Consistent.step {s s' : Shared α} (h : s.Consistent) {e : Event α} (hstep : Step s e s') :
    s'.Consistent := by
  cases hstep with
  | draw key delay job =>
    refine ⟨h.single, List.nodup_cons.2 ⟨?_, h.nodup⟩, ?_, h.spawned⟩
    · intro hmem
      exact Nat.lt_irrefl _ (h.drawn _ hmem)
    · intro g hg
      obtain rfl | hg := List.mem_cons.1 hg
      · exact Nat.lt_succ_self _
      · exact Nat.lt_succ_of_lt (h.drawn g hg)
  | enter c rest hcall =>
    have hperm : s.generations.Perm
        (rest.map (·.generation) ++ c.generation :: s.tasks.map (·.generation)) :=
      ((hcall.map (·.generation)).append_right _).trans List.perm_middle.symm
    refine ⟨h.single.enter _, hperm.nodup h.nodup, fun g hg ↦ h.drawn g (hperm.mem_iff.2 hg), ?_⟩
    intro w hw
    obtain ⟨hw, _⟩ | rfl := mem_enter.1 hw
    · exact List.mem_cons_of_mem _ (h.spawned hw)
    · exact List.mem_cons_self
  | cancel key =>
    exact ⟨h.single.without key, h.nodup, h.drawn,
      fun w hw ↦ h.spawned (mem_without.1 hw).1⟩
  | wake t rest htask hdue =>
    have hperm : s.generations.Perm
        (t.generation :: (s.calls.map (·.generation) ++ rest.map (·.generation))) :=
      ((htask.map (·.generation)).append_left _).trans List.perm_middle
    have hnodup := (List.nodup_cons.1 (hperm.nodup h.nodup)).2
    have hdrawn (g : Nat) (hg : g ∈ s.calls.map (·.generation) ++ rest.map (·.generation)) :
        g < s.table.nextGeneration :=
      h.drawn g (hperm.mem_iff.2 (List.mem_cons_of_mem _ hg))
    -- No job that stays in the table is that of `t`, so the task of each is among the others.
    have hrest {w : WaitingJob α} (hw : w ∈ s.table.waiting) (hne : w ≠ t) : w ∈ rest :=
      (List.mem_cons.1 (htask.mem_iff.1 (h.spawned hw))).resolve_left hne
    obtain ⟨_, hwake⟩ | ⟨hwaiting, hwake⟩ := h.wake_task (htask.mem_iff.2 List.mem_cons_self)
    · rw [hwake]
      refine ⟨h.single.without t.key, hnodup, hdrawn, ?_⟩
      intro w hw
      obtain ⟨hw, hkey⟩ := mem_without.1 hw
      exact hrest hw fun heq ↦ hkey (heq ▸ rfl)
    · rw [hwake]
      refine ⟨h.single, hnodup, hdrawn, ?_⟩
      intro w hw
      exact hrest hw fun heq ↦ hwaiting (heq ▸ hw)
  | pass time => exact ⟨h.single, h.nodup, h.drawn, h.spawned⟩

end Shared

end Debouncer

end VbOutline
