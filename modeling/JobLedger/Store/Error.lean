import JobLedger.Job.Error
/-!
# Store errors

What a status store answers in place of a result, and what each of these means to a caller.
-/
namespace JobLedger

/-- An error of a status store. -/
inductive StoreError where
  | duplicateId (id : JobId)
  | notFound (id : JobId)
  /-- The record has ended, in the state. -/
  | alreadyTerminal (id : JobId) (state : JobState)
  | unavailable (cause : Outage)
  /-- What the backend holds is no record. -/
  | serialization (cause : Malformation)
deriving DecidableEq, Repr

namespace StoreError

def message : StoreError → String
  | .duplicateId id => "job already exists: " ++ id.text
  | .notFound id => "job not found: " ++ id.text
  | .alreadyTerminal id state => "job " ++ id.text ++ " is already " ++ state.name
  | .unavailable cause => "backend unavailable: " ++ cause.text
  | .serialization cause => "serialization error: " ++ cause.text

/-- What the error means to a caller. -/
def toJobError : StoreError → JobError
  | .duplicateId id => .duplicateId id
  | .notFound id => .notFound id
  | .alreadyTerminal id state => .conflict id state
  | .unavailable cause => .storeUnavailable cause
  | .serialization cause => .invalidPayload cause

end StoreError

end JobLedger
