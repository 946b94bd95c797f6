import JobLedger.Job.Error
import JobLedger.Json.Reader
import JobLedger.Time.Instant
/-!
# Job records

The stored state of one job, and the marks that move it through its lifecycle. A mark fails on a record that
has ended and then changes nothing.
-/
namespace JobLedger

/-- What a caller asks for to have a job created. -/
structure NewJob where
  name : String
  timeoutSeconds : UInt64
  createdBy : Option String := none
  correlationId : Option String := none
deriving DecidableEq

/-- The stored state of one job. -/
structure JobRecord where
  id : JobId
  name : String
  state : JobState
  percentComplete : UInt8
  createdAt : Instant
  lastUpdatedAt : Instant
  completedAt : Option Instant
  resultPayload : Option Json
  errorMessage : Option String
  errorDetail : Option String
  owningInstanceId : InstanceId
  timeoutSeconds : UInt64
  cancellationRequested : Bool
  createdBy : Option String
  correlationId : Option String

namespace JobRecord

def accepted (id : JobId) (request : NewJob) (owner : InstanceId) (now : Instant) : JobRecord where
  id := id
  name := request.name
  state := .accepted
  percentComplete := 0
  createdAt := now
  lastUpdatedAt := now
  completedAt := none
  resultPayload := none
  errorMessage := none
  errorDetail := none
  owningInstanceId := owner
  timeoutSeconds := request.timeoutSeconds
  cancellationRequested := false
  createdBy := request.createdBy
  correlationId := request.correlationId

def isTerminal (r : JobRecord) : Bool := r.state.isTerminal

def maxSpanSeconds : Nat := 9223372036854775

/-- The nanoseconds of a timeout. One too long to be a span counts as the longest span. -/
def timeoutNanos (seconds : UInt64) : Nat :=
  let seconds := min seconds.toNat (Nat.pow 2 63 - 1)
  if seconds ≤ maxSpanSeconds then seconds * 1000000000 else 9223372036854775807 * 1000000

/-- The end of the time allowed for a job, at most the last instant. -/
def deadline (r : JobRecord) : Instant :=
  (r.createdAt.plusNanos? (timeoutNanos r.timeoutSeconds)).getD .last

/-- Whether the job is open and past its deadline. -/
def isExpired (r : JobRecord) (now : Instant) : Bool := !r.isTerminal && r.deadline.before now

def result {α : Type} (reader : Json.Reader α) (r : JobRecord) : Except JobError (Option α) :=
  match r.resultPayload with
  | none => .ok none
  | some v =>
    match reader.ofJson? v with
    | some a => .ok (some a)
    | none => .error (.invalidPayload .result)

/-- The record moved to another state at a time. -/
def transition (r : JobRecord) (next : JobState) (now : Instant) : Except JobError JobRecord :=
  if r.state.canBecome next then
    .ok { r with
      state := next
      lastUpdatedAt := now
      completedAt := if next.isTerminal then some now else r.completedAt }
  else .error (.conflict r.id r.state)

def clampPercent (percent : Int) : UInt8 := UInt8.ofNat (max 0 (min percent 100)).toNat

def markRunning (r : JobRecord) (percent : Int) (now : Instant) : Except JobError JobRecord :=
  (r.transition .running now).map fun r => { r with percentComplete := clampPercent percent }

def markSucceeded (r : JobRecord) (payload : Json) (now : Instant) : Except JobError JobRecord :=
  (r.transition .succeeded now).map fun r =>
    { r with
      percentComplete := 100
      resultPayload := some payload
      errorMessage := none
      errorDetail := none }

def markFailed (r : JobRecord) (message : String) (detail : Option String) (now : Instant) :
    Except JobError JobRecord :=
  (r.transition .failed now).map fun r =>
    { r with resultPayload := none, errorMessage := some message, errorDetail := detail }

def markCancelled (r : JobRecord) (now : Instant) : Except JobError JobRecord :=
  (r.transition .cancelled now).map fun r =>
    { r with cancellationRequested := true, resultPayload := none }

def markTimedOut (r : JobRecord) (message : String) (now : Instant) : Except JobError JobRecord :=
  (r.transition .timedOut now).map fun r =>
    { r with resultPayload := none, errorMessage := some message, errorDetail := none }

/-- A move of a record through its lifecycle. -/
inductive Mark where
  | running (percent : Int)
  | succeeded (payload : Json)
  | failed (message : String) (detail : Option String)
  | cancelled
  | timedOut (message : String)

def mark (r : JobRecord) (m : Mark) (now : Instant) : Except JobError JobRecord :=
  match m with
  | .running percent => r.markRunning percent now
  | .succeeded payload => r.markSucceeded payload now
  | .failed message detail => r.markFailed message detail now
  | .cancelled => r.markCancelled now
  | .timedOut message => r.markTimedOut message now

theorem transition_of_terminal {r : JobRecord} (h : r.isTerminal = true) (next : JobState)
    (now : Instant) : r.transition next now = .error (.conflict r.id r.state) := by
  simp [transition, JobState.canBecome, show r.state.isTerminal = true from h]

end JobRecord

end JobLedger
