import JobLedger.Job.View
import JobLedger.Lifecycle.Context
/-!
# Job managers

What a service offers to its callers: jobs are created, looked up, listed and cancelled. A manager tracks
the jobs that it created, so that a cancellation reaches work that runs in its own process at once.
-/
namespace JobLedger

/-- A coordinator of jobs. -/
structure Manager where
  number : Nat
  instanceId : InstanceId
  pollInterval : Span
deriving DecidableEq, Repr

namespace Manager

/-- How long clients wait between two looks at a job, unless configured. -/
def defaultPollInterval : Span := .ofSeconds 5

@[simp] theorem seconds_defaultPollInterval : defaultPollInterval.seconds = 5 := rfl

/-- Create a job: its record is stored, then its context is tracked. -/
def create (m : Manager) (id : JobId) (request : NewJob) :
    Action (Except JobError (JobRecord × JobContext)) := do
  let record := JobRecord.accepted id request m.instanceId (← Action.clock)
  match ← Action.call (.create record) with
  | .error e => return .error e.toJobError
  | .ok r => return .ok (r, ⟨← Action.track m.number r.id, r.id⟩)

def getStatus (id : JobId) : Action (Except JobError JobRecord) := do
  match ← Action.call (.get id) with
  | .error e => return .error e.toJobError
  | .ok none => return .error (.notFound id)
  | .ok (some r) => return .ok r

def statusView (m : Manager) (id : JobId) : Action (Except JobError JobStatusView) := do
  return (← getStatus id).map fun r => JobStatusView.ofRecord r m.pollInterval

/-- Cancel an open job: signal the work that this manager tracks, then record it. -/
def cancel (m : Manager) (id : JobId) : Action (Except JobError JobRecord) := do
  match ← getStatus id with
  | .error e => return .error e
  | .ok r =>
    if r.isTerminal then return .error (.conflict id r.state)
    else
      let _ ← Action.signal m.number id
      match r.markCancelled (← Action.clock) with
      | .error e => return .error e
      | .ok next => return (← Action.call (.update next)).mapError StoreError.toJobError

def list (q : ListQuery) : Action (Except JobError (List JobRecord)) := do
  return (← Action.call (.list q)).mapError StoreError.toJobError

def completeTracking (m : Manager) (id : JobId) : Action Bool := Action.untrack m.number id

def debugText (m : Manager) (tracked : Nat) : String :=
  "JobManager \x7b instance_id: InstanceId(" ++ Text.quoted m.instanceId.name ++
    "), poll_interval: " ++ m.pollInterval.text ++ ", tracked: " ++ Decimal.text tracked ++ " \x7d"

end Manager

end JobLedger
