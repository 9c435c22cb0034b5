import VbOutline.Proofs.Publisher.Interleaving

/-!
# What will be published last

If a job is validated and sent in one step when it is due, then what has been sent and the jobs that
wait tell what the last publication for a document is going to be. Changing and closing the document
set it, and neither operations on other documents nor the passing of time change it. Once no job
waits, it is the last publication that was sent.
-/

namespace VbOutline

namespace Debouncer

variable {α : Type} {d : Debouncer α}

/-! ## Waking up several jobs -/

theorem Single.wake (h : d.Single) (key : String) (generation : Nat) :
    (d.wake key generation).1.Single ∧
      ((d.wake key generation).2.toList ++ (d.wake key generation).1.waiting).Perm d.waiting := by
  obtain ⟨w, hw, rfl, _, hwake⟩ | hwake := d.wake_cases key generation
  · rw [hwake]
    exact ⟨h.without w.key, (h.perm_without hw).symm⟩
  · rw [hwake]
    exact ⟨h, .refl _⟩

/-- Each job that waited has run or still waits. -/
theorem Single.wakeAll (h : d.Single) (due : List (WaitingJob α)) :
    (d.wakeAll due).1.Single ∧
      ((d.wakeAll due).2 ++ (d.wakeAll due).1.waiting).Perm d.waiting := by
  induction due generalizing d with
  | nil => exact ⟨h, .refl _⟩
  | cons w due ih =>
    obtain ⟨hwoken, hone⟩ := h.wake w.key w.generation
    obtain ⟨hsingle, hmore⟩ := ih hwoken
    refine ⟨hsingle, ?_⟩
    rw [Debouncer.wakeAll, List.append_assoc]
    exact (hmore.append_left _).trans hone

theorem Single.waiting_wakeAll_subset (h : d.Single) (due : List (WaitingJob α)) :
    (d.wakeAll due).1.waiting ⊆ d.waiting := fun _ hw ↦
  (h.wakeAll due).2.mem_iff.1 (List.mem_append_right _ hw)

theorem Single.not_mem_wakeAll (h : d.Single) {due : List (WaitingJob α)} {w : WaitingJob α}
    (hw : w ∈ due) : w ∉ (d.wakeAll due).1.waiting := by
  induction due generalizing d with
  | nil => exact absurd hw List.not_mem_nil
  | cons v due ih =>
    have hwoken := (h.wake v.key v.generation).1
    rw [Debouncer.wakeAll]
    obtain rfl | hw := List.mem_cons.1 hw
    · intro hleft
      have hmem := hwoken.waiting_wakeAll_subset due hleft
      by_cases hwaiting : w ∈ d.waiting
      · rw [h.wake_of_mem hwaiting] at hmem
        exact (mem_without.1 hmem).2 rfl
      · exact hwaiting ((h.wake w.key w.generation).2.mem_iff.1 (List.mem_append_right _ hmem))
    · exact ih hwoken hw

/-- Only jobs that are not due still wait. -/
theorem Single.mem_run (h : d.Single) {now : Nat} {w : WaitingJob α}
    (hw : w ∈ (d.run now).1.waiting) : w ∈ d.waiting ∧ now < w.due := by
  have hwaiting := h.waiting_wakeAll_subset _ hw
  refine ⟨hwaiting, Nat.lt_of_not_le fun hdue ↦ h.not_mem_wakeAll ?_ hw⟩
  simpa [dueJobs] using ⟨hwaiting, hdue⟩

end Debouncer

namespace Publisher

open Session Debouncer

/-! ## The outlook for a document -/

/-- What the waiting jobs are going to publish. -/
def coming (p : Publisher) : List Publication := p.jobs.waiting.map (publish p.options)

/-- What the last publication for a document is going to be, given what has been sent. -/
def outlook? (p : Publisher) (sent : List Publication) (uri : String) : Option Publication :=
  (about uri (sent ++ p.coming)).getLast?

variable (p : Publisher) (sent : List Publication)

theorem outlook?_of_pending (h : p.pending = 0) (uri : String) :
    p.outlook? sent uri = (about uri sent).getLast? := by
  have hwaiting : p.jobs.waiting = [] := List.length_eq_zero_iff.1 h
  rw [outlook?, coming, hwaiting, List.map_nil, List.append_nil]

theorem coming_change (now : Nat) (uri : String) (r : Revision) :
    (p.change now uri r).coming =
      (p.jobs.without uri).waiting.map (publish p.options) ++
        [⟨uri, Check.validate p.options r.text r.others⟩] :=
  List.map_append

theorem outlook?_change (now : Nat) (uri : String) (r : Revision) :
    (p.change now uri r).outlook? sent uri =
      some ⟨uri, Check.validate p.options r.text r.others⟩ := by
  have hself := about_cons_self ⟨uri, Check.validate p.options r.text r.others⟩ []
  rw [outlook?, coming_change, about_append, about_append, about_publish_without, List.nil_append,
    hself]
  exact List.getLast?_concat

theorem outlook?_change_of_ne (now : Nat) {uri key : String} (h : uri ≠ key) (r : Revision) :
    (p.change now uri r).outlook? sent key = p.outlook? sent key := by
  have hother := about_cons_of_ne (p := ⟨uri, Check.validate p.options r.text r.others⟩) h []
  rw [outlook?, coming_change, about_append, about_append, about_publish_without_of_ne _ _ _ h,
    hother, outlook?, about_append]
  exact congrArg List.getLast? (congrArg (about key sent ++ ·) (List.append_nil _))

theorem outlook?_close (uri : String) :
    (p.close uri).1.outlook? (sent ++ [(p.close uri).2]) uri = some ⟨uri, []⟩ := by
  have hself : about uri [⟨uri, []⟩] = [⟨uri, []⟩] := about_cons_self ⟨uri, []⟩ []
  change (about uri (sent ++ [⟨uri, []⟩] ++ (p.jobs.without uri).waiting.map _)).getLast? = _
  rw [about_append, about_append, about_publish_without, List.append_nil, hself]
  exact List.getLast?_concat

theorem outlook?_close_of_ne {uri key : String} (h : uri ≠ key) :
    (p.close uri).1.outlook? (sent ++ [(p.close uri).2]) key = p.outlook? sent key := by
  have hother : about key [⟨uri, []⟩] = [] := about_cons_of_ne (p := ⟨uri, []⟩) h []
  change (about key (sent ++ [⟨uri, []⟩] ++ (p.jobs.without uri).waiting.map _)).getLast? = _
  rw [about_append, about_append, about_publish_without_of_ne _ _ _ h, hother, List.append_nil,
    outlook?, about_append]
  rfl

variable {p}

/-- No document has two jobs. -/
theorem length_about_coming (h : p.jobs.Single) (uri : String) :
    (about uri p.coming).length ≤ 1 := by
  have hcount := List.nodup_iff_count_le_one.1 h uri
  rw [List.count, List.countP_map] at hcount
  rw [coming, about_publish, List.length_map, ← List.countP_eq_length_filter]
  exact hcount

/-- The passing of time changes no outlook. -/
theorem outlook?_run (h : p.jobs.Single) (now : Nat) (uri : String) :
    (p.run now).1.outlook? (sent ++ (p.run now).2) uri = p.outlook? sent uri := by
  have hperm : ((p.run now).2 ++ (p.run now).1.coming).Perm p.coming := by
    have hjobs := (h.wakeAll (p.jobs.dueJobs now)).2.map (publish p.options)
    rwa [List.map_append] at hjobs
  have habout : (about uri ((p.run now).2 ++ (p.run now).1.coming)).Perm (about uri p.coming) :=
    hperm.filter _
  -- A list of at most one publication has only one order.
  have hsame : about uri ((p.run now).2 ++ (p.run now).1.coming) = about uri p.coming := by
    obtain hlength | hlength := Nat.le_one_iff_eq_zero_or_eq_one.1 (length_about_coming h uri)
    · rw [List.length_eq_zero_iff.1 hlength] at habout ⊢
      exact habout.eq_nil
    · obtain ⟨q, hq⟩ := List.length_eq_one_iff.1 hlength
      rw [hq] at habout ⊢
      exact habout.eq_singleton
  rw [outlook?, outlook?, List.append_assoc, about_append uri sent, about_append uri sent, hsame]

end Publisher

end VbOutline
