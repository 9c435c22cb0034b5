import VbOutline.Check
import VbOutline.Debounce

/-!
# Publishing diagnostics

Each change of a document schedules its validation; of several changes within the delay only the
last one is validated. Closing a document drops its validation and publishes an empty list at once.
-/

namespace VbOutline

open Text

/-- The diagnostics of a document; an empty list clears earlier ones. -/
structure Publication where
  uri : String
  diagnostics : List Diagnostic
  deriving DecidableEq, Repr

/-- A text to be validated beside the outlines of other documents. -/
structure Revision where
  text : Text
  others : List DocumentOutline
  deriving Repr

structure Publisher where
  options : Check.Options
  delay : Nat
  jobs : Debouncer Revision
  deriving Repr

namespace Publisher

def start (options : Check.Options) (delay : Nat) : Publisher := ⟨options, delay, .start⟩

def change (p : Publisher) (now : Nat) (uri : String) (r : Revision) : Publisher :=
  { p with jobs := p.jobs.schedule uri (now + p.delay) r }

def close (p : Publisher) (uri : String) : Publisher × Publication :=
  ({ p with jobs := (p.jobs.cancel uri).1 }, ⟨uri, []⟩)

def publish (options : Check.Options) (w : WaitingJob Revision) : Publication :=
  ⟨w.key, Check.validate options w.job.text w.job.others⟩

/-- Validates what is due. -/
def run (p : Publisher) (now : Nat) : Publisher × List Publication :=
  let ran := p.jobs.run now
  ({ p with jobs := ran.1 }, ran.2.map (publish p.options))

def pending (p : Publisher) : Nat := p.jobs.waiting.length

end Publisher

end VbOutline
