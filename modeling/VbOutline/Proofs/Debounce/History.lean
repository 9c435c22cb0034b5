import Mathlib.Algebra.GroupWithZero.Nat
import VbOutline.Proofs.Debounce.Interleaving

/-!
# What has happened to a debouncer

The table of a shared debouncer says what has happened so far: it holds a job exactly if the job has
entered the table and, since then, no other job has entered under its key, the key has not been
cancelled, and the task of the job has not woken up. So a job runs only if nobody came in between, it
runs at most once, and one that was cancelled never runs. This holds in whatever order the steps of
callers and tasks come, although generations are drawn in another order than that in which jobs enter
the table, and although no task is ever stopped.

A generation is smaller than the number of those drawn so far, so fewer than 2 ^ 64 calls are told
apart by words of 64 bits as well.
-/

namespace VbOutline

namespace Debouncer

variable {α : Type}

theorem get?_without_of_ne (d : Debouncer α) {key other : String} (h : other ≠ key) :
    (d.without other).get? key = d.get? key := by
  rw [get?, without, List.find?_filter]
  congr 1
  funext w
  by_cases hkey : w.key = key
  · simp [hkey, h.symm]
  · simp [hkey]

theorem get?_enter_of_ne (d : Debouncer α) {w : WaitingJob α} {key : String} (h : w.key ≠ key) :
    (d.enter w).get? key = d.get? key := by
  have hnew : [w].find? (fun v ↦ v.key == key) = none := by simp [h]
  rw [← d.get?_without_of_ne h, get?, enter, List.find?_append, hnew, Option.or_none]
  rfl

theorem cancel_eq_true_iff (d : Debouncer α) (key : String) :
    (d.cancel key).2 = true ↔ ∃ w ∈ d.waiting, w.key = key := by
  simp [cancel, get?]

namespace Event

/-- The key whose entry in the table the event is about. -/
def key? : Event α → Option String
  | .enter call => some call.key
  | .cancel key => some key
  | .wake task => some task.key
  | .draw .. | .pass _ => none

def isDraw : Event α → Bool
  | .draw .. => true
  | _ => false

/-- The time that goes by. -/
def time : Event α → Nat
  | .pass time => time
  | _ => 0

/-- After the event a job no longer waits: another one has entered in its place, it has been cancelled,
or its task has woken up. -/
def Ends (w : WaitingJob α) : Event α → Prop
  | .enter call => call.key = w.key
  | .cancel key => key = w.key
  | .wake task => task = w
  | .draw .. | .pass _ => False

end Event

/-- The time after the events. -/
def elapsed (events : List (Event α)) : Nat := (events.map Event.time).sum

/-- How many calls have drawn a generation. -/
def draws (events : List (Event α)) : Nat := events.countP Event.isDraw

/-- The job has entered the table, and nothing that came later has ended its waiting. -/
def LastEntered (events : List (Event α)) (w : WaitingJob α) : Prop :=
  ∃ before c after, events = before ++ .enter c :: after ∧ w = c.waitingJob (elapsed before) ∧
    ∀ e ∈ after, ¬ e.Ends w

/-- One more event: the last job to enter stays so until its waiting ends, or it enters just now. -/
theorem lastEntered_concat {events : List (Event α)} {e : Event α} {w : WaitingJob α} :
    LastEntered (events ++ [e]) w ↔ (LastEntered events w ∧ ¬ e.Ends w) ∨
      ∃ c, e = .enter c ∧ w = c.waitingJob (elapsed events) := by
  constructor
  · rintro ⟨before, c, after, hsplit, hw, hafter⟩
    obtain rfl | ⟨after, last, rfl⟩ := List.eq_nil_or_concat' after
    · obtain ⟨rfl, rfl⟩ : events = before ∧ e = .enter c := by simpa using hsplit
      exact .inr ⟨c, rfl, hw⟩
    · rw [← List.cons_append, ← List.append_assoc] at hsplit
      obtain ⟨rfl, hlast⟩ := List.append_inj' hsplit rfl
      obtain rfl : e = last := List.singleton_inj.1 hlast
      rw [List.forall_mem_append, List.forall_mem_singleton] at hafter
      exact .inl ⟨⟨before, c, after, rfl, hw, hafter.1⟩, hafter.2⟩
  · rintro (⟨⟨before, c, after, rfl, hw, hafter⟩, hends⟩ | ⟨c, rfl, hw⟩)
    · refine ⟨before, c, after ++ [e], by simp, hw, ?_⟩
      rw [List.forall_mem_append, List.forall_mem_singleton]
      exact ⟨hafter, hends⟩
    · exact ⟨events, c, [], rfl, hw, List.forall_mem_nil _⟩

namespace Shared

/-- The job that an event lets run. -/
def started (s : Shared α) : Event α → Option (WaitingJob α)
  | .wake task => (s.table.wake task.key task.generation).2
  | _ => none

/-- A run from `first` on, with what happens and the jobs that run, each in its order. -/
inductive Run (first : Shared α) : List (Event α) → List (WaitingJob α) → Shared α → Prop where
  | nil : Run first [] [] first
  | concat {events : List (Event α)} {ran : List (WaitingJob α)} {s s' : Shared α} {e : Event α}
      (hrun : Run first events ran s) (hstep : Step s e s') :
      Run first (events ++ [e]) (ran ++ (s.started e).toList) s'

/-- A step on one key leaves the entries of the other keys as they are. -/
theorem Step.get?_of_key?_ne {s s' : Shared α} {e : Event α} (hstep : Step s e s') {key : String}
    (h : e.key? ≠ some key) : s'.table.get? key = s.table.get? key := by
  have hne {other : String} (hother : some other ≠ some key) : other ≠ key := fun heq ↦
    hother (congrArg some heq)
  cases hstep with
  | draw key delay job => rfl
  | enter c rest hcall => exact s.table.get?_enter_of_ne (w := c.waitingJob s.now) (hne h)
  | cancel other => exact s.table.get?_without_of_ne (hne h)
  | wake t rest htask hdue =>
    obtain ⟨_, _, _, _, hwake⟩ | hwake := s.table.wake_cases t.key t.generation
    · rw [hwake]
      exact s.table.get?_without_of_ne (hne h)
    · rw [hwake]
  | pass time => rfl

/-- The jobs of the table after a step are those of before whose waiting has not ended, and the one
that enters. -/
theorem Step.mem_waiting {s s' : Shared α} {e : Event α} (hstep : Step s e s') (h : s.Consistent)
    {w : WaitingJob α} : w ∈ s'.table.waiting ↔ (w ∈ s.table.waiting ∧ ¬ e.Ends w) ∨
      ∃ c, e = .enter c ∧ w = c.waitingJob s.now := by
  cases hstep with
  | draw key delay job => simp [Event.Ends, Debouncer.draw]
  | enter c rest hcall =>
    rw [mem_enter]
    simp [Event.Ends, Call.waitingJob, eq_comm]
  | cancel key =>
    simp only [Debouncer.cancel, mem_without, Event.Ends, reduceCtorEq, false_and, exists_false,
      or_false, ne_comm, ne_eq]
  | wake t rest htask hdue =>
    simp only [Event.Ends, reduceCtorEq, false_and, exists_false, or_false]
    -- The task takes its own job out of the table, or the job is no longer there.
    obtain ⟨hwaiting, hwake⟩ | ⟨hwaiting, hwake⟩ := h.wake_task (htask.mem_iff.2 List.mem_cons_self)
    · rw [hwake, mem_without]
      refine and_congr_right fun hw ↦ ⟨fun hkey heq ↦ hkey (heq ▸ rfl), fun hne hkey ↦ ?_⟩
      exact hne (h.single.eq hwaiting hw hkey.symm)
    · rw [hwake]
      exact ⟨fun hw ↦ ⟨hw, fun heq ↦ hwaiting (heq ▸ hw)⟩, And.left⟩
  | pass time => simp [Event.Ends]

/-- What runs is the job of the task that wakes up, and it was waiting until then. -/
theorem Step.of_started {s s' : Shared α} {e : Event α} (hstep : Step s e s') (h : s.Consistent)
    {w : WaitingJob α} (hw : s.started e = some w) : e = .wake w ∧ w ∈ s.table.waiting := by
  cases hstep with
  | wake t rest htask hdue =>
    obtain ⟨hwaiting, hwake⟩ | ⟨_, hwake⟩ := h.wake_task (htask.mem_iff.2 List.mem_cons_self)
    · rw [started, hwake] at hw
      cases hw
      exact ⟨rfl, hwaiting⟩
    · rw [started, hwake] at hw
      cases hw
  | draw key delay job => cases hw
  | enter c rest hcall => cases hw
  | cancel key => cases hw
  | pass time => cases hw

theorem Step.now_eq {s s' : Shared α} {e : Event α} (hstep : Step s e s') :
    s'.now = s.now + e.time := by
  cases hstep <;> rfl

theorem Step.nextGeneration_eq {s s' : Shared α} {e : Event α} (hstep : Step s e s') :
    s'.table.nextGeneration = s.table.nextGeneration + [e].countP Event.isDraw := by
  cases hstep with
  | wake t rest htask hdue =>
    obtain ⟨_, _, _, _, hwake⟩ | hwake := s.table.wake_cases t.key t.generation <;>
    · rw [hwake]
      rfl
  | draw key delay job => rfl
  | enter c rest hcall => rfl
  | cancel key => rfl
  | pass time => rfl

theorem Run.consistent {first s : Shared α} {events : List (Event α)} {ran : List (WaitingJob α)}
    (hrun : Run first events ran s) (h : first.Consistent) : s.Consistent := by
  induction hrun with
  | nil => exact h
  | concat _ hstep ih => exact ih.step hstep

theorem Run.now_eq {s : Shared α} {events : List (Event α)} {ran : List (WaitingJob α)}
    (hrun : Run .start events ran s) : s.now = elapsed events := by
  induction hrun with
  | nil => rfl
  | concat _ hstep ih => rw [hstep.now_eq, ih, elapsed, elapsed, List.map_append, List.sum_append]; rfl

theorem Run.nextGeneration_eq {s : Shared α} {events : List (Event α)} {ran : List (WaitingJob α)}
    (hrun : Run .start events ran s) : s.table.nextGeneration = draws events := by
  induction hrun with
  | nil => rfl
  | concat _ hstep ih => rw [hstep.nextGeneration_eq, ih, draws, draws, List.countP_append]

theorem Run.mem_waiting_iff {s : Shared α} {events : List (Event α)} {ran : List (WaitingJob α)}
    (hrun : Run .start events ran s) {w : WaitingJob α} :
    w ∈ s.table.waiting ↔ LastEntered events w := by
  induction hrun with
  | nil =>
    refine ⟨fun hw ↦ absurd hw List.not_mem_nil, ?_⟩
    rintro ⟨before, c, after, hsplit, _⟩
    simp at hsplit
  | concat hrun hstep ih =>
    -- One more event changes the table and the history in the same way.
    rw [hstep.mem_waiting (hrun.consistent consistent_start), lastEntered_concat, ih, hrun.now_eq]

/-- A job that ran was the last to enter under its key when its task woke up. -/
theorem Run.lastEntered_of_mem_ran {s : Shared α} {events : List (Event α)}
    {ran : List (WaitingJob α)} (hrun : Run .start events ran s) {w : WaitingJob α} (hw : w ∈ ran) :
    ∃ before after, events = before ++ .wake w :: after ∧ LastEntered before w := by
  induction hrun with
  | nil => exact absurd hw List.not_mem_nil
  | @concat events ran s _ e hrun hstep ih =>
    obtain hw | hw := List.mem_append.1 hw
    · obtain ⟨before, after, rfl, hlast⟩ := ih hw
      exact ⟨before, after ++ [e], by simp, hlast⟩
    · obtain ⟨rfl, hwaiting⟩ :=
        hstep.of_started (hrun.consistent consistent_start) (Option.mem_toList.1 hw)
      exact ⟨events, [], rfl, hrun.mem_waiting_iff.1 hwaiting⟩

/-! ## Jobs that are gone -/

/-- The job of that generation has entered the table and is no longer there. -/
structure Gone (s : Shared α) (generation : Nat) : Prop where
  drawn : generation < s.table.nextGeneration
  entered : ∀ c ∈ s.calls, c.generation ≠ generation
  left : ∀ w ∈ s.table.waiting, w.generation ≠ generation

/-- What is gone stays so: only a call that has drawn its generation can enter a job. -/
theorem Gone.step {s s' : Shared α} {g : Nat} (h : s.Gone g) {e : Event α} (hstep : Step s e s') :
    s'.Gone g := by
  cases hstep with
  | draw key delay job =>
    refine ⟨Nat.lt_succ_of_lt h.drawn, ?_, h.left⟩
    rw [List.forall_mem_cons]
    exact ⟨Nat.ne_of_gt h.drawn, h.entered⟩
  | enter c rest hcall =>
    refine ⟨h.drawn, fun d hd ↦ h.entered d (hcall.mem_iff.2 (List.mem_cons_of_mem c hd)), ?_⟩
    intro w hw
    obtain ⟨hw, _⟩ | rfl := mem_enter.1 hw
    · exact h.left w hw
    · exact h.entered c (hcall.mem_iff.2 List.mem_cons_self)
  | cancel key => exact ⟨h.drawn, h.entered, fun w hw ↦ h.left w (mem_without.1 hw).1⟩
  | wake t rest htask hdue =>
    obtain ⟨_, _, _, _, hwake⟩ | hwake := s.table.wake_cases t.key t.generation
    · rw [hwake]
      exact ⟨h.drawn, h.entered, fun w hw ↦ h.left w (mem_without.1 hw).1⟩
    · rw [hwake]
      exact ⟨h.drawn, h.entered, h.left⟩
  | pass time => exact ⟨h.drawn, h.entered, h.left⟩

theorem Consistent.generation_ne_of_mem_calls {s : Shared α} (h : s.Consistent) {c : Call α}
    (hc : c ∈ s.calls) {t : WaitingJob α} (ht : t ∈ s.tasks) : c.generation ≠ t.generation :=
  (List.nodup_append.1 h.nodup).2.2 _ (List.mem_map_of_mem hc) _ (List.mem_map_of_mem ht)

/-- A job is gone once its waiting has ended, in whatever way. -/
theorem Step.gone_of_ends {s s' : Shared α} {e : Event α} (hstep : Step s e s') (h : s.Consistent)
    {w : WaitingJob α} (hw : w ∈ s.table.waiting) (hends : e.Ends w) : s'.Gone w.generation := by
  have htask : w ∈ s.tasks := h.spawned hw
  have hdrawn : w.generation < s.table.nextGeneration :=
    h.drawn _ (List.mem_append_right _ (List.mem_map_of_mem htask))
  have hentered : ∀ c ∈ s.calls, c.generation ≠ w.generation := fun c hc ↦
    h.generation_ne_of_mem_calls hc htask
  refine ⟨Nat.lt_of_lt_of_le hdrawn (hstep.nextGeneration_eq ▸ Nat.le_add_right _ _), ?_, ?_⟩
  · cases hstep with
    | enter c rest hcall => exact fun d hd ↦ hentered d (hcall.mem_iff.2 (List.mem_cons_of_mem c hd))
    | cancel key => exact hentered
    | wake t rest _ _ => exact hentered
    | draw key delay job => exact hends.elim
    | pass time => exact hends.elim
  · intro v hv hgeneration
    obtain ⟨hv, hstays⟩ | ⟨c, rfl, rfl⟩ := (hstep.mem_waiting h).1 hv
    · rw [generation_eq h (h.spawned hv) htask hgeneration] at hstays
      exact hstays hends
    · cases hstep with
      | enter c rest hcall => exact hentered c (hcall.mem_iff.2 List.mem_cons_self) hgeneration

theorem Gone.not_started {s s' : Shared α} {g : Nat} (h : s.Gone g) (hconsistent : s.Consistent)
    {e : Event α} (hstep : Step s e s') {w : WaitingJob α} (hw : w ∈ (s.started e).toList) :
    w.generation ≠ g :=
  h.left w (hstep.of_started hconsistent (Option.mem_toList.1 hw)).2

theorem Run.not_ran_of_gone {first s : Shared α} {events : List (Event α)}
    {ran : List (WaitingJob α)} (hrun : Run first events ran s) (hconsistent : first.Consistent)
    {g : Nat} (h : first.Gone g) : s.Gone g ∧ ∀ w ∈ ran, w.generation ≠ g := by
  induction hrun with
  | nil => exact ⟨h, List.forall_mem_nil _⟩
  | concat hrun hstep ih =>
    refine ⟨ih.1.step hstep, ?_⟩
    rw [List.forall_mem_append]
    exact ⟨ih.2, fun w hw ↦ ih.1.not_started (hrun.consistent hconsistent) hstep hw⟩

/-- No job runs twice, and those that ran are gone. -/
theorem Run.nodup_ran {s : Shared α} {events : List (Event α)} {ran : List (WaitingJob α)}
    (hrun : Run .start events ran s) :
    (ran.map (·.generation)).Nodup ∧ ∀ w ∈ ran, s.Gone w.generation := by
  induction hrun with
  | nil => exact ⟨List.nodup_nil, List.forall_mem_nil _⟩
  | @concat events ran s s' e hrun hstep ih =>
    have hconsistent := hrun.consistent consistent_start
    have hgone : ∀ w ∈ ran, s'.Gone w.generation := fun w hw ↦ (ih.2 w hw).step hstep
    cases hstarted : s.started e with
    | none =>
      rw [Option.toList_none, List.append_nil]
      exact ⟨ih.1, hgone⟩
    | some t =>
      obtain ⟨rfl, hwaiting⟩ := hstep.of_started hconsistent hstarted
      rw [Option.toList_some, List.forall_mem_append, List.forall_mem_singleton, List.map_append,
        List.map_singleton, List.nodup_append_comm, List.singleton_append, List.nodup_cons]
      refine ⟨⟨?_, ih.1⟩, hgone, hstep.gone_of_ends hconsistent hwaiting rfl⟩
      intro hmem
      obtain ⟨w, hw, hgeneration⟩ := List.mem_map.1 hmem
      exact (ih.2 w hw).left t hwaiting hgeneration.symm

/-! ## Any interleaving -/

/-- Whatever the order of the steps, the table holds for each key at most one job, that which was last
to enter and has neither been cancelled nor woken up since; a job runs at most once, and only if it was
that job until its task woke up; cancelling tells whether a job was waiting, and this job then never
runs; a step on one key leaves the entries of the others as they are; and every generation is smaller
than the number of draws. -/
theorem debounced {events : List (Event α)} {ran : List (WaitingJob α)} {s : Shared α}
    (hrun : Run .start events ran s) :
    ((s.table.waiting.map (·.key)).Nodup ∧
      ∀ w, w ∈ s.table.waiting ↔ LastEntered events w) ∧
    ((ran.map (·.generation)).Nodup ∧
      ∀ w ∈ ran, ∃ before after, events = before ++ .wake w :: after ∧ LastEntered before w) ∧
    ((∀ key, (s.table.cancel key).2 = true ↔ ∃ w ∈ s.table.waiting, w.key = key) ∧
      ∀ w ∈ s.table.waiting, ∀ s' later more final, Step s (.cancel w.key) s' →
        Run s' later more final → ∀ v ∈ ran ++ more, v.generation ≠ w.generation) ∧
    (∀ e s', Step s e s' → ∀ key, e.key? ≠ some key → s'.table.get? key = s.table.get? key) ∧
    ∀ g ∈ s.generations, g < draws events := by
  have hconsistent := hrun.consistent consistent_start
  obtain ⟨hnodup, hgone⟩ := hrun.nodup_ran
  refine ⟨⟨hconsistent.single, fun w ↦ hrun.mem_waiting_iff⟩,
    ⟨hnodup, fun w hw ↦ hrun.lastEntered_of_mem_ran hw⟩, ⟨s.table.cancel_eq_true_iff, ?_⟩,
    fun e s' hstep key hkey ↦ hstep.get?_of_key?_ne hkey, ?_⟩
  · intro w hw s' later more final hcancel hlater
    rw [List.forall_mem_append]
    refine ⟨fun v hv hgeneration ↦ (hgone v hv).left w hw hgeneration.symm, ?_⟩
    have hcancelled : s'.Gone w.generation := hcancel.gone_of_ends hconsistent hw rfl
    exact (hlater.not_ran_of_gone (hconsistent.step hcancel) hcancelled).2
  · intro g hg
    rw [← hrun.nextGeneration_eq]
    exact hconsistent.drawn g hg

/-- Two calls for one key enter the table in the order opposite to that of their generations. -/
def crossed : List (Event String) :=
  [.draw "a" 10 "early", .draw "a" 10 "late", .enter ⟨"a", 1, 10, "late"⟩,
    .enter ⟨"a", 0, 10, "early"⟩, .pass 10, .wake ⟨"a", 1, 10, "late"⟩, .wake ⟨"a", 0, 10, "early"⟩]

theorem debounced_crossed :
    ∃ s, Run .start crossed [⟨"a", 0, 10, "early"⟩] s ∧
      (∀ w, w ∈ s.table.waiting ↔ LastEntered crossed w) ∧
      ∃ before after, crossed = before ++ .wake ⟨"a", 0, 10, "early"⟩ :: after ∧
        LastEntered before ⟨"a", 0, 10, "early"⟩ := by
  have hdrawn : Run .start (crossed.take 2) []
      ⟨⟨2, []⟩, 0, [⟨"a", 1, 10, "late"⟩, ⟨"a", 0, 10, "early"⟩], []⟩ :=
    (Run.nil.concat (.draw _ "a" 10 "early")).concat (.draw _ "a" 10 "late")
  have hlate : Run .start (crossed.take 3) []
      ⟨⟨2, [⟨"a", 1, 10, "late"⟩]⟩, 0, [⟨"a", 0, 10, "early"⟩], [⟨"a", 1, 10, "late"⟩]⟩ :=
    hdrawn.concat (.enter _ ⟨"a", 1, 10, "late"⟩ _ (.refl _))
  have hearly : Run .start (crossed.take 4) [] ⟨⟨2, [⟨"a", 0, 10, "early"⟩]⟩, 0, [],
      [⟨"a", 0, 10, "early"⟩, ⟨"a", 1, 10, "late"⟩]⟩ :=
    hlate.concat (.enter _ ⟨"a", 0, 10, "early"⟩ _ (.refl _))
  have hpassed := hearly.concat (.pass _ 10)
  have hnone : Run .start (crossed.take 6) []
      ⟨⟨2, [⟨"a", 0, 10, "early"⟩]⟩, 10, [], [⟨"a", 0, 10, "early"⟩]⟩ :=
    hpassed.concat (.wake _ ⟨"a", 1, 10, "late"⟩ _ (.swap _ _ _) (Nat.le_refl _))
  have hrun : Run .start crossed [⟨"a", 0, 10, "early"⟩] ⟨⟨2, []⟩, 10, [], []⟩ :=
    hnone.concat (.wake _ ⟨"a", 0, 10, "early"⟩ _ (.refl _) (Nat.le_refl _))
  obtain ⟨⟨_, hwaiting⟩, ⟨_, hran⟩, _⟩ := debounced hrun
  exact ⟨_, hrun, hwaiting, hran _ List.mem_cons_self⟩

end Shared

end Debouncer

end VbOutline
