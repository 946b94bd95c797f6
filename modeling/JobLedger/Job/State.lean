import JobLedger.Text.Blank
/-!
# Job states

The lifecycle of a job: accepted, then running, then one of four terminal states. A job that completes
straight from accepted counts as having run.
-/
namespace JobLedger

/-- Where a job stands in its lifecycle. -/
inductive JobState where
  | accepted
  | running
  | succeeded
  | failed
  | cancelled
  | timedOut
deriving DecidableEq, Repr, Inhabited

namespace JobState

def all : List JobState := [.accepted, .running, .succeeded, .failed, .cancelled, .timedOut]

def isTerminal : JobState → Bool
  | .accepted | .running => false
  | .succeeded | .failed | .cancelled | .timedOut => true

/-- Whether a job may go from one state to another. Running again is how progress is recorded. -/
def canBecome (s next : JobState) : Bool := !s.isTerminal && next != .accepted

def name : JobState → String
  | .accepted => "accepted"
  | .running => "running"
  | .succeeded => "succeeded"
  | .failed => "failed"
  | .cancelled => "cancelled"
  | .timedOut => "timed_out"

/-- The name of a state in texts for developers. -/
def title : JobState → String
  | .accepted => "Accepted"
  | .running => "Running"
  | .succeeded => "Succeeded"
  | .failed => "Failed"
  | .cancelled => "Cancelled"
  | .timedOut => "TimedOut"

def named? (s : String) : Option JobState := all.find? fun x => x.name == s

/-- The state of a name in any letter case. -/
def spelled? (s : String) : Option JobState := all.find? fun x => Text.sameAsciiCase x.name s

@[simp] theorem mem_all (s : JobState) : s ∈ all := by cases s <;> decide

theorem canBecome_iff {s next : JobState} :
    s.canBecome next = true ↔ s.isTerminal = false ∧ next ≠ .accepted := by
  simp [canBecome]

end JobState

end JobLedger
