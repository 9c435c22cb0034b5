import VbOutline.Proofs.Check.Balance
import VbOutline.Proofs.Debounce.Interleaving
import VbOutline.Publisher

/-!
# Interleaved changes and closings of documents

The callers of a publisher share its table with the tasks that validate documents. A task leaves the
table before it validates, and a caller that closes a document leaves the table before it sends the
empty list, so between leaving and sending anything else can happen. A job that has left the table is
no longer replaced or cancelled.

For each document an account is kept of what has been sent and of what is still to come. Only an
operation on the document changes the account. After the last operation on a document exactly this is
sent for it, in some order: what the operation asks for, and what was already on its way. Hence once
all is quiet, the last publication for a document is that of the last operation on it, unless one that
was on its way then has been sent later still.
-/

namespace VbOutline

open Debouncer

/-- A publisher with the callers and tasks that share its table, and the channel that it sends to. -/
structure Session where
  options : Check.Options
  delay : Nat
  jobs : Shared Revision
  /-- The publications of those who have left the table and have not sent yet. -/
  inFlight : List Publication
  sent : List Publication

namespace Session

def start (options : Check.Options) (delay : Nat) : Session := ⟨options, delay, .start, [], []⟩

def publisher (s : Session) : Publisher := ⟨s.options, s.delay, s.jobs.table⟩

/-- What a task is going to send when it wakes up. -/
def startedBy (s : Session) (t : WaitingJob Revision) : List Publication :=
  if (s.jobs.table.wake t.key t.generation).2.isSome then [Publisher.publish s.options t] else []

inductive Action where
  | draw (uri : String) (r : Revision)
  | change (uri : String) (r : Revision)
  | close (uri : String)
  | wake (task : WaitingJob Revision)
  | send (p : Publication)
  | pass (time : Nat)

/-- What an operation on a document asks for. A change counts from when its job enters the table. -/
def Action.asks? (options : Check.Options) : Action → Option Publication
  | .change uri r => some ⟨uri, Check.validate options r.text r.others⟩
  | .close uri => some ⟨uri, []⟩
  | _ => none

/-- What can happen in one piece. -/
inductive Step : Session → Action → Session → Prop where
  | draw (s : Session) (uri : String) (r : Revision) (jobs : Shared Revision)
      (h : s.jobs.Step (.draw uri s.delay r) jobs) : Step s (.draw uri r) { s with jobs }
  | change (s : Session) (c : Call Revision) (jobs : Shared Revision)
      (h : s.jobs.Step (.enter c) jobs) : Step s (.change c.key c.job) { s with jobs }
  | close (s : Session) (uri : String) (jobs : Shared Revision) (h : s.jobs.Step (.cancel uri) jobs) :
      Step s (.close uri) { s with jobs, inFlight := (s.publisher.close uri).2 :: s.inFlight }
  | wake (s : Session) (t : WaitingJob Revision) (jobs : Shared Revision)
      (h : s.jobs.Step (.wake t) jobs) :
      Step s (.wake t) { s with jobs, inFlight := s.startedBy t ++ s.inFlight }
  | send (s : Session) (p : Publication) (rest : List Publication)
      (h : s.inFlight.Perm (p :: rest)) :
      Step s (.send p) { s with inFlight := rest, sent := s.sent ++ [p] }
  | pass (s : Session) (time : Nat) (jobs : Shared Revision) (h : s.jobs.Step (.pass time) jobs) :
      Step s (.pass time) { s with jobs }

inductive Run : Session → List Action → Session → Prop where
  | nil (s : Session) : Run s [] s
  | cons {s s₁ s₂ : Session} {a : Action} {actions : List Action} (hstep : Step s a s₁)
      (hrun : Run s₁ actions s₂) : Run s (a :: actions) s₂

/-- No job waits or runs, and no caller has still to send. -/
def Quiet (s : Session) : Prop := s.publisher.pending = 0 ∧ s.inFlight = []

def about (uri : String) (publications : List Publication) : List Publication :=
  publications.filter fun p ↦ p.uri == uri

/-- The last publication for a document. -/
def last? (s : Session) (uri : String) : Option Publication := (about uri s.sent).getLast?

theorem Step.consistent {s s' : Session} {a : Action} (hstep : Step s a s')
    (h : s.jobs.Consistent) : s'.jobs.Consistent := by
  cases hstep with
  | draw uri r jobs hjobs => exact h.step hjobs
  | change c jobs hjobs => exact h.step hjobs
  | close uri jobs hjobs => exact h.step hjobs
  | wake t jobs hjobs => exact h.step hjobs
  | send p rest hp => exact h
  | pass time jobs hjobs => exact h.step hjobs

theorem Step.options_eq {s s' : Session} {a : Action} (hstep : Step s a s') :
    s'.options = s.options := by
  cases hstep <;> rfl

theorem Run.consistent {s s' : Session} {actions : List Action} (hrun : Run s actions s')
    (h : s.jobs.Consistent) : s'.jobs.Consistent := by
  induction hrun with
  | nil s => exact h
  | cons hstep _ ih => exact ih (hstep.consistent h)

theorem Run.options_eq {s s' : Session} {actions : List Action} (hrun : Run s actions s') :
    s'.options = s.options := by
  induction hrun with
  | nil s => rfl
  | cons hstep _ ih => rw [ih, hstep.options_eq]

/-- What the publisher does in one go is a run in which nobody else takes a step. -/
theorem run_change (s : Session) (uri : String) (r : Revision) :
    ∃ s', Run s [.draw uri r, .change uri r] s' ∧
      s'.publisher = s.publisher.change s.jobs.now uri r ∧
      s'.inFlight = s.inFlight ∧ s'.sent = s.sent := by
  let c : Call Revision := ⟨uri, s.jobs.table.nextGeneration, s.delay, r⟩
  have hdraw := Step.draw s uri r _ (.draw _ _ _ _)
  exact ⟨_, .cons hdraw (.cons (.change _ c _ (.enter _ c s.jobs.calls (.refl _))) (.nil _)),
    rfl, rfl, rfl⟩

theorem run_close (s : Session) (uri : String) :
    ∃ s', Run s [.close uri, .send (s.publisher.close uri).2] s' ∧
      s'.publisher = (s.publisher.close uri).1 ∧
      s'.inFlight = s.inFlight ∧ s'.sent = s.sent ++ [(s.publisher.close uri).2] := by
  have hclose := Step.close s uri _ (.cancel _ _)
  exact ⟨_, .cons hclose (.cons (.send _ _ s.inFlight (.refl _)) (.nil _)), rfl, rfl, rfl⟩

/-- A task wakes up and sends what it finds before anyone else takes a step. -/
theorem run_wake {s : Session} (h : s.jobs.Consistent) {t : WaitingJob Revision}
    {rest : List (WaitingJob Revision)} (htask : s.jobs.tasks.Perm (t :: rest))
    (hdue : t.due ≤ s.jobs.now) :
    ∃ actions, Run s actions
      { s with
        jobs := { s.jobs with table := (s.jobs.table.wake t.key t.generation).1, tasks := rest }
        sent := s.sent ++ (s.jobs.table.wake t.key t.generation).2.toList.map
          (Publisher.publish s.options) } := by
  have hstep := Step.wake s t _ (.wake _ t rest htask hdue)
  obtain ⟨_, hwake⟩ | ⟨_, hwake⟩ := h.wake_task (htask.mem_iff.2 List.mem_cons_self)
  · refine ⟨[.wake t, .send (Publisher.publish s.options t)], .cons hstep (.cons ?_ (.nil _))⟩
    rw [startedBy, hwake]
    exact .send _ _ s.inFlight (.refl _)
  · refine ⟨[.wake t], .cons hstep ?_⟩
    rw [startedBy, hwake, Option.toList_none, List.map_nil, List.append_nil]
    exact .nil _

theorem Run.append {s s₁ s₂ : Session} {actions more : List Action} (hrun : Run s actions s₁)
    (hmore : Run s₁ more s₂) : Run s (actions ++ more) s₂ := by
  induction hrun with
  | nil s => exact hmore
  | cons hstep _ ih => exact .cons hstep (ih hmore)

theorem run_wakeAll {due : List (WaitingJob Revision)} (hnodup : due.Nodup) {s : Session}
    (h : s.jobs.Consistent) (htasks : due ⊆ s.jobs.tasks) (hdue : ∀ t ∈ due, t.due ≤ s.jobs.now) :
    ∃ actions s', Run s actions s' ∧
      s'.publisher = { s.publisher with jobs := (s.jobs.table.wakeAll due).1 } ∧
      s'.inFlight = s.inFlight ∧
      s'.sent = s.sent ++ (s.jobs.table.wakeAll due).2.map (Publisher.publish s.options) := by
  induction due generalizing s with
  | nil => exact ⟨[], s, .nil s, rfl, rfl, (List.append_nil _).symm⟩
  | cons t due ih =>
    rw [List.nodup_cons] at hnodup
    rw [List.cons_subset] at htasks
    rw [List.forall_mem_cons] at hdue
    obtain ⟨front, back, hsplit⟩ := List.append_of_mem htasks.1
    have hperm : s.jobs.tasks.Perm (t :: (front ++ back)) := hsplit ▸ List.perm_middle
    obtain ⟨actions, hrun⟩ := run_wake h hperm hdue.1
    -- The other tasks are still there: none of them is the one that woke up.
    have hothers : due ⊆ front ++ back := fun u hu ↦
      (List.mem_cons.1 (hperm.mem_iff.1 (htasks.2 hu))).resolve_left fun heq ↦ hnodup.1 (heq ▸ hu)
    obtain ⟨more, s', hmore, hpublisher, hflight, hsent⟩ :=
      ih hnodup.2 (hrun.consistent h) hothers hdue.2
    refine ⟨actions ++ more, s', hrun.append hmore, hpublisher, hflight, ?_⟩
    rw [hsent, wakeAll, List.map_append, List.append_assoc]

/-- What is due can be validated in one go. -/
theorem run_due {s : Session} (h : s.jobs.Consistent) :
    ∃ actions s', Run s actions s' ∧
      s'.publisher = (s.publisher.run s.jobs.now).1 ∧ s'.inFlight = s.inFlight ∧
      s'.sent = s.sent ++ (s.publisher.run s.jobs.now).2 := by
  have hmem {t : WaitingJob Revision} (ht : t ∈ s.jobs.table.dueJobs s.jobs.now) :
      t ∈ s.jobs.table.waiting ∧ t.due ≤ s.jobs.now := by
    simpa [dueJobs] using ht
  have hnodup : (s.jobs.table.dueJobs s.jobs.now).Nodup :=
    (List.mergeSort_perm _ _).nodup_iff.2 (h.single.of_map.filter _)
  exact run_wakeAll hnodup h (fun t ht ↦ h.spawned (hmem ht).1) fun t ht ↦ (hmem ht).2

/-! ## The account of a document -/

/-- What will be sent if no further operation takes place. -/
def coming (s : Session) : List Publication :=
  s.inFlight ++ s.jobs.table.waiting.map (Publisher.publish s.options)

theorem Quiet.coming_eq {s : Session} (h : s.Quiet) : s.coming = [] := by
  have hwaiting : s.jobs.table.waiting = [] := List.length_eq_zero_iff.1 h.1
  rw [coming, h.2, hwaiting]
  rfl

section

variable (uri : String)

@[simp]
theorem about_append (ps qs : List Publication) : about uri (ps ++ qs) = about uri ps ++ about uri qs :=
  List.filter_append ps qs

theorem about_cons_self (p : Publication) (ps : List Publication) :
    about p.uri (p :: ps) = p :: about p.uri ps :=
  List.filter_cons_of_pos (by simp)

theorem about_cons_of_ne {uri : String} {p : Publication} (h : p.uri ≠ uri) (ps : List Publication) :
    about uri (p :: ps) = about uri ps :=
  List.filter_cons_of_neg (by simpa using h)

theorem about_publish (options : Check.Options) (jobs : List (WaitingJob Revision)) :
    about uri (jobs.map (Publisher.publish options)) =
      (jobs.filter fun w ↦ w.key == uri).map (Publisher.publish options) := by
  rw [about, List.filter_map]
  rfl

/-- Nothing is to come from the table for a document whose job has been dropped. -/
theorem about_publish_without (options : Check.Options) (d : Debouncer Revision) :
    about uri ((d.without uri).waiting.map (Publisher.publish options)) = [] := by
  rw [about_publish, List.map_eq_nil_iff, List.filter_eq_nil_iff]
  intro w hw
  simpa using (mem_without.1 hw).2

/-- Dropping the job of one document leaves the others as they are. -/
theorem about_publish_without_of_ne (options : Check.Options) (d : Debouncer Revision) {key : String}
    (h : key ≠ uri) : about uri ((d.without key).waiting.map (Publisher.publish options)) =
      about uri (d.waiting.map (Publisher.publish options)) := by
  rw [about_publish, about_publish, Debouncer.without, List.filter_filter]
  congr 1
  apply List.filter_congr
  intro w _
  by_cases hkey : w.key = uri
  · simp [hkey, h.symm]
  · simp [hkey]

end

/-- An operation asks for one publication in place of what waits. -/
theorem Step.coming_of_asks {s s' : Session} {a : Action} (hstep : Step s a s') {p : Publication}
    (hasks : a.asks? s.options = some p) :
    s'.sent = s.sent ∧ (about p.uri s'.coming).Perm (p :: about p.uri s.inFlight) := by
  cases hstep with
  | change c jobs hjobs =>
    cases hjobs with
    | enter c rest hcall =>
      cases hasks
      refine ⟨rfl, ?_⟩
      have hnew : Publisher.publish s.options (c.waitingJob s.jobs.now) =
          ⟨c.key, Check.validate s.options c.job.text c.job.others⟩ := rfl
      rw [coming, waiting_enter_waitingJob, List.map_append, about_append, about_append,
        about_publish_without, List.nil_append, List.map_singleton, hnew, about_cons_self]
      exact List.perm_append_singleton _ _
  | close uri jobs hjobs =>
    cases hjobs with
    | cancel uri =>
      cases hasks
      refine ⟨rfl, ?_⟩
      change (about uri ((⟨uri, []⟩ :: s.inFlight) ++
        (s.jobs.table.without uri).waiting.map (Publisher.publish s.options))).Perm _
      rw [about_append, about_publish_without, List.append_nil]
      exact .of_eq (about_cons_self ⟨uri, []⟩ s.inFlight)
  | draw uri r jobs hjobs => cases hasks
  | wake t jobs hjobs => cases hasks
  | send p rest hp => cases hasks
  | pass time jobs hjobs => cases hasks

/-- A task that runs takes its publication along. -/
theorem coming_wake {s : Session} (h : s.jobs.Consistent) {t : WaitingJob Revision}
    {jobs : Shared Revision} (hjobs : s.jobs.Step (.wake t) jobs) :
    s.coming.Perm
      (s.startedBy t ++ s.inFlight ++ jobs.table.waiting.map (Publisher.publish s.options)) := by
  cases hjobs with
  | wake t rest htask hdue =>
    obtain ⟨hwaiting, hwake⟩ | ⟨_, hwake⟩ := h.wake_task (htask.mem_iff.2 List.mem_cons_self)
    · simp only [startedBy, hwake]
      have hperm := (h.single.perm_without hwaiting).map (Publisher.publish s.options)
      exact (hperm.append_left s.inFlight).trans List.perm_middle
    · simp only [startedBy, hwake]
      exact .refl _

/-- Whatever is no operation on a document leaves the account of the document as it is. -/
theorem Step.coming_of_other {s s' : Session} {a : Action} (hstep : Step s a s')
    (h : s.jobs.Consistent) {uri : String}
    (hother : ∀ p, a.asks? s.options = some p → p.uri ≠ uri) :
    ∃ new, s'.sent = s.sent ++ new ∧ (about uri s.coming).Perm (about uri (new ++ s'.coming)) := by
  cases hstep with
  | draw key r jobs hjobs =>
    cases hjobs with
    | draw => exact ⟨[], (List.append_nil _).symm, .refl _⟩
  | change c jobs hjobs =>
    cases hjobs with
    | enter c rest hcall =>
      have hne : c.key ≠ uri := hother _ rfl
      refine ⟨[], (List.append_nil _).symm, .of_eq ?_⟩
      have hnew : about uri [Publisher.publish s.options (c.waitingJob s.jobs.now)] = [] :=
        about_cons_of_ne hne []
      rw [List.nil_append, coming, coming, waiting_enter_waitingJob, List.map_append, about_append,
        about_append, about_append, about_publish_without_of_ne _ _ _ hne, List.map_singleton, hnew,
        List.append_nil]
  | close key jobs hjobs =>
    cases hjobs with
    | cancel key =>
      have hne : key ≠ uri := hother _ rfl
      refine ⟨[], (List.append_nil _).symm, .of_eq ?_⟩
      change _ = about uri ((⟨key, []⟩ :: s.inFlight) ++
        (s.jobs.table.without key).waiting.map (Publisher.publish s.options))
      rw [coming, about_append, about_append, about_publish_without_of_ne _ _ _ hne,
        about_cons_of_ne hne]
  | wake t jobs hjobs =>
    exact ⟨[], (List.append_nil _).symm, (coming_wake h hjobs).filter _⟩
  | send p rest hp =>
    exact ⟨[p], rfl, (hp.append_right _).filter _⟩
  | pass time jobs hjobs =>
    cases hjobs with
    | pass => exact ⟨[], (List.append_nil _).symm, .refl _⟩

/-- The account of a document balances along a run without an operation on it. -/
theorem Run.coming_of_other {s s' : Session} {actions : List Action} (hrun : Run s actions s')
    (h : s.jobs.Consistent) {uri : String}
    (hother : ∀ a ∈ actions, ∀ p, a.asks? s.options = some p → p.uri ≠ uri) :
    ∃ new, s'.sent = s.sent ++ new ∧ (about uri s.coming).Perm (about uri (new ++ s'.coming)) := by
  induction hrun with
  | nil s => exact ⟨[], (List.append_nil _).symm, .refl _⟩
  | @cons s s₁ s₂ a actions hstep _ ih =>
    rw [List.forall_mem_cons] at hother
    obtain ⟨new, hsent, hperm⟩ := hstep.coming_of_other h hother.1
    rw [← hstep.options_eq] at hother
    obtain ⟨later, hlater, hrest⟩ := ih (hstep.consistent h) hother.2
    refine ⟨new ++ later, ?_, ?_⟩
    · rw [hlater, hsent, List.append_assoc]
    · rw [List.append_assoc, about_append]
      rw [about_append] at hperm
      exact hperm.trans (hrest.append_left _)

/-! ## The last publication -/

/-- Once all is quiet after the last operation on a document, what has been sent for the document since
then is what the operation asks for and what was on its way before, in some order. The last publication
is one of these, and it is that of the operation if nothing for the document was on its way. -/
theorem last_of_quiet {options : Check.Options} {delay : Nat} {before after : List Action}
    {a : Action} {s s' final : Session} {p : Publication}
    (hbefore : Run (start options delay) before s) (hstep : Step s a s') (hafter : Run s' after final)
    (hasks : a.asks? options = some p)
    (hlast : ∀ b ∈ after, ∀ q, b.asks? options = some q → q.uri ≠ p.uri) (hquiet : final.Quiet) :
    (∃ later, final.sent = s.sent ++ later ∧
      (about p.uri later).Perm (p :: about p.uri s.inFlight)) ∧
    (∃ q, final.last? p.uri = some q ∧ (q = p ∨ q ∈ s.inFlight)) ∧
    ((∀ q ∈ s.inFlight, q.uri ≠ p.uri) → final.last? p.uri = some p) := by
  have hconsistent := hbefore.consistent Shared.consistent_start
  have hoptions : s.options = options := hbefore.options_eq
  subst hoptions
  obtain ⟨hsent, hasked⟩ := hstep.coming_of_asks hasks
  rw [← hstep.options_eq] at hlast
  obtain ⟨later, hlater, hperm⟩ := hafter.coming_of_other (hstep.consistent hconsistent) hlast
  rw [hquiet.coming_eq, List.append_nil] at hperm
  rw [hsent] at hlater
  have hexact : (about p.uri later).Perm (p :: about p.uri s.inFlight) := hperm.symm.trans hasked
  have hne : about p.uri later ≠ [] := by
    intro hnil
    rw [hnil] at hexact
    exact List.cons_ne_nil _ _ hexact.nil_eq.symm
  have hfinal : final.last? p.uri = some ((about p.uri later).getLast hne) := by
    rw [last?, hlater, about_append, List.getLast?_append_of_ne_nil _ hne,
      List.getLast?_eq_some_getLast]
  have hmem := hexact.mem_iff.1 (List.getLast_mem hne)
  refine ⟨⟨later, hlater, hexact⟩, ⟨_, hfinal, ?_⟩, ?_⟩
  · exact (List.mem_cons.1 hmem).imp_right List.mem_of_mem_filter
  · intro hnone
    have hempty : about p.uri s.inFlight = [] := by
      rw [about, List.filter_eq_nil_iff]
      intro q hq
      simpa using hnone q hq
    rw [hempty, List.mem_singleton] at hmem
    rw [hfinal, hmem]

/-- A class that is not closed. -/
def openClass : Revision := ⟨"Class A".toList, []⟩

def closedClass : Revision := ⟨"Class A\nEnd Class".toList, []⟩

/-- A change waits, and the change that will replace it has drawn its generation. -/
def replacing : Session :=
  ⟨⟨120, []⟩, 10, ⟨⟨2, [⟨"a", 0, 10, openClass⟩]⟩, 0, [⟨"a", 1, 10, closedClass⟩],
    [⟨"a", 0, 10, openClass⟩]⟩, [], []⟩

def replaced : Session :=
  ⟨⟨120, []⟩, 10, ⟨⟨2, [⟨"a", 1, 10, closedClass⟩]⟩, 0, [],
    [⟨"a", 1, 10, closedClass⟩, ⟨"a", 0, 10, openClass⟩]⟩, [], []⟩

theorem last_of_quiet_replaced :
    Run (start ⟨120, []⟩ 10) [.draw "a" openClass, .change "a" openClass, .draw "a" closedClass]
      replacing ∧
    Step replacing (.change "a" closedClass) replaced ∧
    ∃ final,
      Run replaced [.pass 10, .wake ⟨"a", 0, 10, openClass⟩, .wake ⟨"a", 1, 10, closedClass⟩,
        .send ⟨"a", Check.validate ⟨120, []⟩ closedClass.text []⟩] final ∧
      final.Quiet ∧ final.last? "a" = some ⟨"a", Check.validate ⟨120, []⟩ closedClass.text []⟩ := by
  have hbefore : Run (start ⟨120, []⟩ 10)
      [.draw "a" openClass, .change "a" openClass, .draw "a" closedClass] replacing := by
    refine .cons (.draw _ _ _ _ (.draw _ _ _ _)) ?_
    refine .cons (.change _ ⟨"a", 0, 10, openClass⟩ _ (.enter _ _ [] (.refl _))) ?_
    refine .cons (.draw _ _ _ _ (.draw _ _ _ _)) ?_
    exact .nil _
  have hstep : Step replacing (.change "a" closedClass) replaced :=
    .change replacing ⟨"a", 1, 10, closedClass⟩ _ (.enter _ _ [] (.refl _))
  have hafter : Run replaced [.pass 10, .wake ⟨"a", 0, 10, openClass⟩,
      .wake ⟨"a", 1, 10, closedClass⟩, .send ⟨"a", Check.validate ⟨120, []⟩ closedClass.text []⟩]
      ⟨⟨120, []⟩, 10, ⟨⟨2, []⟩, 10, [], []⟩, [],
        [⟨"a", Check.validate ⟨120, []⟩ closedClass.text []⟩]⟩ := by
    refine .cons (.pass _ _ _ (.pass _ _)) ?_
    refine .cons (.wake _ _ _ (.wake _ _ [⟨"a", 1, 10, closedClass⟩] (.swap _ _ _) (Nat.le_refl _))) ?_
    refine .cons (.wake _ _ _ (.wake _ _ [] (.refl _) (Nat.le_refl _))) ?_
    refine .cons (.send _ _ [] (.refl _)) ?_
    exact .nil _
  refine ⟨hbefore, hstep, _, hafter, ⟨rfl, rfl⟩, ?_⟩
  obtain ⟨_, _, hlast⟩ := last_of_quiet hbefore hstep hafter rfl (by simp [Action.asks?]) ⟨rfl, rfl⟩
  exact hlast (List.forall_mem_nil _)

/-- A document that is closed while its validation runs. -/
def closedWhileRunning : List Action :=
  [.draw "a" openClass, .change "a" openClass, .pass 10, .wake ⟨"a", 0, 10, openClass⟩, .close "a",
    .send ⟨"a", []⟩, .send ⟨"a", Check.validate ⟨120, []⟩ openClass.text []⟩]

/-- The validation that runs sends what it finds after the empty list. -/
theorem last_closedWhileRunning :
    ∃ final, Run (start ⟨120, []⟩ 10) closedWhileRunning final ∧ final.Quiet ∧
      final.last? "a" = some ⟨"a", Check.validate ⟨120, []⟩ openClass.text []⟩ ∧
      Check.validate ⟨120, []⟩ openClass.text [] ≠ [] := by
  refine ⟨⟨⟨120, []⟩, 10, ⟨⟨1, []⟩, 10, [], []⟩, [],
    [⟨"a", []⟩, ⟨"a", Check.validate ⟨120, []⟩ openClass.text []⟩]⟩, ?_, ⟨rfl, rfl⟩, rfl, ?_⟩
  · refine .cons (.draw _ _ _ _ (.draw _ _ _ _)) ?_
    refine .cons (.change _ ⟨"a", 0, 10, openClass⟩ _ (.enter _ _ [] (.refl _))) ?_
    refine .cons (.pass _ _ _ (.pass _ _)) ?_
    refine .cons (.wake _ _ _ (.wake _ _ [] (.refl _) (Nat.le_refl _))) ?_
    refine .cons (.close _ _ _ (.cancel _ _)) ?_
    refine .cons (.send _ _ [_] (.refl _)) ?_
    refine .cons (.send _ _ [] (.refl _)) ?_
    exact .nil _
  · intro hnone
    have hbalanced := (Check.no_balanceCodes_iff 120 openClass.text []).1
      (by rw [hnone]; exact List.forall_mem_nil _)
    revert hbalanced
    decide +kernel

end Session

end VbOutline
