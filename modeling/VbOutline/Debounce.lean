/-!
# Debouncing

A debouncer holds at most one waiting job for each key. Scheduling a job replaces the one that
waits under its key. Each job has a generation of its own, and a job that wakes up runs only if it
is still the one in the table, so a job that was replaced or cancelled never runs, whether or not its
timer could be stopped.

The operations are those that happen in one piece: drawing a generation, entering a job into the
table, cancelling, and waking up. Times are in milliseconds.
-/

namespace VbOutline

/-- A job that waits for its time. -/
structure WaitingJob (α : Type) where
  key : String
  generation : Nat
  /-- When the job wakes up. -/
  due : Nat
  job : α
  deriving Repr

structure Debouncer (α : Type) where
  nextGeneration : Nat
  waiting : List (WaitingJob α)
  deriving Repr

namespace Debouncer

variable {α : Type}

def start : Debouncer α := ⟨0, []⟩

def get? (d : Debouncer α) (key : String) : Option (WaitingJob α) :=
  d.waiting.find? fun w ↦ w.key == key

def without (d : Debouncer α) (key : String) : Debouncer α :=
  { d with waiting := d.waiting.filter fun w ↦ w.key != key }

/-- Draws the generation of a new job. -/
def draw (d : Debouncer α) : Nat × Debouncer α :=
  (d.nextGeneration, { d with nextGeneration := d.nextGeneration + 1 })

/-- Enters a job in place of the one that waits under its key. -/
def enter (d : Debouncer α) (w : WaitingJob α) : Debouncer α :=
  let rest := d.without w.key
  { rest with waiting := rest.waiting ++ [w] }

def schedule (d : Debouncer α) (key : String) (due : Nat) (job : α) : Debouncer α :=
  let (generation, d) := d.draw
  d.enter ⟨key, generation, due, job⟩

/-- Drops the job that waits under a key, and tells whether there was one. -/
def cancel (d : Debouncer α) (key : String) : Debouncer α × Bool :=
  (d.without key, (d.get? key).isSome)

/-- A job wakes up: if it is still in the table it leaves the table and runs. -/
def wake (d : Debouncer α) (key : String) (generation : Nat) :
    Debouncer α × Option (WaitingJob α) :=
  match d.get? key with
  | some w => if w.generation == generation then (d.without key, some w) else (d, none)
  | none => (d, none)

/-- The jobs that are due, in the order of their times. -/
def dueJobs (d : Debouncer α) (now : Nat) : List (WaitingJob α) :=
  (d.waiting.filter fun w ↦ w.due ≤ now).mergeSort fun a b ↦ a.due ≤ b.due

/-- Wakes up the given jobs one after the other and collects those that run. -/
def wakeAll (d : Debouncer α) : List (WaitingJob α) → Debouncer α × List (WaitingJob α)
  | [] => (d, [])
  | w :: rest =>
    let woken := d.wake w.key w.generation
    let more := woken.1.wakeAll rest
    (more.1, woken.2.toList ++ more.2)

/-- Lets all jobs run that are due. -/
def run (d : Debouncer α) (now : Nat) : Debouncer α × List (WaitingJob α) :=
  d.wakeAll (d.dueJobs now)

/-- When the next job is due. -/
def nextDue? (d : Debouncer α) : Option Nat := (d.waiting.map (·.due)).min?

end Debouncer

end VbOutline
