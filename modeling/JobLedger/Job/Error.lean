import JobLedger.Decimal.Digits
import JobLedger.Job.Id
import JobLedger.Job.State
import JobLedger.Text.Position
import JobLedger.Text.Quoted
/-!
# Errors of the job lifecycle

What can go wrong for a caller, by cause, with one wording for each. Only an unreachable store is worth
another try.
-/
namespace JobLedger

/-- Why a store could not be reached. -/
inductive Outage where
  /-- In the words of whoever noticed it. -/
  | reported (reason : String)
  /-- A command of the key-value server failed. -/
  | keyValue
  | database (operation message : String)
  | poolClosed (operation : String)
  /-- No connection came free, or up, in time. -/
  | poolTimedOut (operation : String)
  | connection (operation : String)
deriving DecidableEq, Repr

def Outage.text : Outage → String
  | .reported reason => reason
  | .keyValue => "redis error: " ++ Text.foreignWords
  | .database operation message => "database error in " ++ operation ++ ": " ++ message
  | .poolClosed operation => "connection pool closed in " ++ operation
  | .poolTimedOut operation => "connection pool timed out in " ++ operation
  | .connection operation => "sqlx error in " ++ operation ++ ": " ++ Text.foreignWords

/-- What is wrong with a payload, an identifier or a stored record. -/
inductive Malformation where
  | reported (reason : String)
  /-- A text that is no record. -/
  | document
  | column
  | row
  | state (name : String)
  /-- A stored name that is no state. -/
  | storedState (name : String)
  | percent (value : Int)
  | timeout (seconds : Int)
  | jobId (spelling : String)
  /-- A result of another type than asked for. -/
  | result
  | unserializable (reason : String)
deriving DecidableEq, Repr

def Malformation.text : Malformation → String
  | .reported reason => reason
  | .document => Text.foreignWords
  | .column => Text.foreignWords
  | .row => "failed to decode job row: " ++ Text.foreignWords
  | .state name => "unknown job state: " ++ name
  | .storedState name => "invalid payload: unknown job state: " ++ name
  | .percent value => "percent_complete out of range: " ++ Decimal.signedText value
  | .timeout seconds => "negative timeout_seconds: " ++ Decimal.signedText seconds
  | .jobId spelling => "invalid job id `" ++ spelling ++ "`: " ++ Text.foreignWords
  | .result => "result payload: " ++ Text.foreignWords
  | .unserializable reason => "result serialization failed: " ++ Text.withPosition reason

/-- What is wrong with the configuration. -/
inductive Misconfiguration where
  | reported (reason : String)
  /-- A setting that the chosen store needs. -/
  | missing (key store : String)
  | notANumber (key value : String)
  | unknownStore (name : String)
  | storeNotBuilt
  | storeDisabled
  | sweepInterval
deriving DecidableEq, Repr

def Misconfiguration.text : Misconfiguration → String
  | .reported reason => reason
  | .missing key store => key ++ " must be set for the " ++ store ++ " store"
  | .notANumber key value => key ++ " must be a valid number, got `" ++ value ++ "`"
  | .unknownStore name =>
    "unknown LONGRUN_STORE `" ++ name ++ "` (expected memory, postgres or redis)"
  | .storeNotBuilt => "LONGRUN_STORE=redis requires the `redis` feature"
  | .storeDisabled => "redis store selected but the `redis` feature is disabled"
  | .sweepInterval => "LONGRUN_SWEEP_INTERVAL_SECS must be at least 1"

/-- An error of the job lifecycle. -/
inductive JobError where
  | notFound (id : JobId)
  /-- The state of the record does not allow the operation. -/
  | conflict (id : JobId) (state : JobState)
  | duplicateId (id : JobId)
  | storeUnavailable (cause : Outage)
  | workFailure (message : String) (detail : Option String)
  | configuration (cause : Misconfiguration)
  | invalidPayload (cause : Malformation)
deriving DecidableEq, Repr

namespace JobError

def message : JobError → String
  | .notFound id => "job not found: " ++ id.text
  | .conflict id state => "job " ++ id.text ++ " is already " ++ state.name
  | .duplicateId id => "job already exists: " ++ id.text
  | .storeUnavailable cause => "status store unavailable: " ++ cause.text
  | .workFailure message _ => "work failed: " ++ message
  | .configuration cause => "configuration error: " ++ cause.text
  | .invalidPayload cause => "invalid payload: " ++ cause.text

/-- Whether the same operation may succeed later. -/
def isTransient : JobError → Bool
  | .storeUnavailable _ => true
  | _ => false

/-- The text of an error for developers. -/
def debugText : JobError → String
  | .notFound id => "NotFound(JobId(" ++ id.text ++ "))"
  | .conflict id state =>
    "Conflict \x7b id: JobId(" ++ id.text ++ "), state: " ++ state.title ++ " \x7d"
  | .duplicateId id => "DuplicateId(JobId(" ++ id.text ++ "))"
  | .storeUnavailable cause => "StoreUnavailable(" ++ Text.quoted cause.text ++ ")"
  | .workFailure message detail =>
    "WorkFailure \x7b message: " ++ Text.quoted message ++ ", detail: " ++ Text.quotedOption detail ++
      " \x7d"
  | .configuration cause => "Configuration(" ++ Text.quoted cause.text ++ ")"
  | .invalidPayload cause => "InvalidPayload(" ++ Text.quoted cause.text ++ ")"

end JobError

/-- The state of a name in any letter case. -/
def JobState.parse (s : String) : Except JobError JobState :=
  match JobState.spelled? s with
  | some state => .ok state
  | none => .error (.invalidPayload (.state s))

/-- The job identifier that a text spells between white space. -/
def JobId.parse (s : String) : Except JobError JobId :=
  match JobId.ofText? (Text.trim s) with
  | some id => .ok id
  | none => .error (.invalidPayload (.jobId s))

end JobLedger
