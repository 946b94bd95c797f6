import JobLedger.Lifecycle.Request
/-!
# Execution contexts

What the work of a job may do to its record. A record that is gone or has ended is left alone: work that was
overtaken by a cancellation or a timeout is not told of it as an error.
-/
namespace JobLedger

/-- The handle that the work of a job is given. -/
structure JobContext where
  number : Nat
  job : JobId
deriving DecidableEq, Repr

namespace JobContext

def load (c : JobContext) : Action (Except JobError (Option JobRecord)) := do
  return (← Action.call (.get c.job)).mapError StoreError.toJobError

/-- Put a record into the store. A record that is gone or has ended meanwhile counts as written. -/
def write (r : JobRecord) : Action (Except JobError Unit) := do
  match ← Action.call (.update r) with
  | .ok _ | .error (.notFound _) | .error (.alreadyTerminal _ _) => return .ok ()
  | .error e => return .error e.toJobError

/-- Report how far the work has come, in percent. -/
def reportProgress (c : JobContext) (percent : Int) : Action (Except JobError Unit) := do
  match ← c.load with
  | .error e => return .error e
  | .ok none => return .ok ()
  | .ok (some r) =>
    if r.isTerminal then return .ok ()
    else
      match r.markRunning percent (← Action.clock) with
      | .error e => return .error e
      | .ok next => write next

/-- Record the outcome of the job. -/
def finish (c : JobContext) (m : JobRecord.Mark) : Action (Except JobError Unit) := do
  match ← c.load with
  | .error e => return .error e
  | .ok none =>
    Action.complete c.number
    return .ok ()
  | .ok (some r) =>
    if r.isTerminal then
      Action.complete c.number
      return .ok ()
    else
      match r.mark m (← Action.clock) with
      | .error e => return .error e
      | .ok next =>
        match ← write next with
        | .error e => return .error e
        | .ok () =>
          Action.complete c.number
          return .ok ()

def setResult (c : JobContext) (payload : Json) : Action (Except JobError Unit) :=
  c.finish (.succeeded payload)

def setFailed (c : JobContext) (message : String) (detail : Option String) :
    Action (Except JobError Unit) := c.finish (.failed message detail)

/-- A result that has no JSON form is refused before the store is asked. -/
def setUnserializable (reason : String) : Action (Except JobError Unit) :=
  return .error (.invalidPayload (.unserializable reason))

def debugText (c : JobContext) (cancelled completed : Bool) : String :=
  "ExecutionContext \x7b job_id: JobId(" ++ c.job.text ++ "), cancelled: " ++
    Text.truth cancelled ++ ", completed: " ++ Text.truth completed ++ " \x7d"

end JobContext

/-- A signal derived from that of a context: it has fired once either has. -/
structure ChildSignal where
  context : Nat
  cancelled : Bool
deriving DecidableEq, Repr

def ChildSignal.hasFired (s : ChildSignal) (parent : Bool) : Bool := s.cancelled || parent

end JobLedger
