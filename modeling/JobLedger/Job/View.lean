import JobLedger.Job.Record
/-!
# Views of a job

What a client is told: the acknowledgement of a submission against an endpoint, and the status of a job.
Result and error show only in the states that have them, a hint to ask again only while the job is open.
-/
namespace JobLedger

/-- What a dispatcher declares for an operation that runs as a job. -/
structure EndpointDeclaration where
  name : String
  timeoutSeconds : UInt64
  allowCancellation : Bool := true
  estimatedDurationSeconds : UInt64 := 0
deriving DecidableEq

def EndpointDeclaration.newJob (e : EndpointDeclaration) : NewJob where
  name := e.name
  timeoutSeconds := e.timeoutSeconds

structure JobAcknowledgement where
  id : JobId
  name : String
  state : JobState
  statusCheckLocator : String
  cancelLocator : Option String
  estimatedDurationSeconds : UInt64
  createdAt : Instant
deriving DecidableEq

/-- The acknowledgement of a record. An endpoint without cancellation drops the place to cancel. -/
def JobAcknowledgement.ofRecord (r : JobRecord) (e : EndpointDeclaration) (statusLocator : String)
    (cancelLocator : Option String) : JobAcknowledgement where
  id := r.id
  name := r.name
  state := r.state
  statusCheckLocator := statusLocator
  cancelLocator := if e.allowCancellation then cancelLocator else none
  estimatedDurationSeconds := e.estimatedDurationSeconds
  createdAt := r.createdAt

/-- The status of a job for a client. -/
structure JobStatusView where
  id : JobId
  name : String
  state : JobState
  percentComplete : UInt8
  createdAt : Instant
  lastUpdatedAt : Instant
  completedAt : Option Instant
  cancellationRequested : Bool
  retryAfterSeconds : Option UInt64
  result : Option Json
  errorMessage : Option String
  errorDetail : Option String

def JobStatusView.ofRecord (r : JobRecord) (pollInterval : Span) : JobStatusView where
  id := r.id
  name := r.name
  state := r.state
  percentComplete := r.percentComplete
  createdAt := r.createdAt
  lastUpdatedAt := r.lastUpdatedAt
  completedAt := r.completedAt
  cancellationRequested := r.cancellationRequested
  retryAfterSeconds :=
    if r.isTerminal then none else some (UInt64.ofNat (max pollInterval.seconds 1))
  result := if r.state = .succeeded then r.resultPayload else none
  errorMessage := if r.state = .failed ∨ r.state = .timedOut then r.errorMessage else none
  errorDetail := if r.state = .failed ∨ r.state = .timedOut then r.errorDetail else none

end JobLedger
