import JobLedger.Postgres.Value
import JobLedger.Store.Error
import JobLedger.Job.Record
/-!
# Rows

The row of a job: its columns are read first, all of them, and only then are state, percentage and timeout
judged. A state is stored under its name but read in any letter case.
-/
namespace JobLedger.Postgres

/-- The columns of a row, by name. -/
abbrev Row : Type := List (String × Value)

namespace Row

/-- A column that must have a value. -/
def required {α : Type} (read : Value → Option α) (name : String) (r : Row) : Option α :=
  (r.lookup name).bind read

/-- A column that must be there but may have no value. -/
def nullable {α : Type} (read : Value → Option α) (name : String) (r : Row) : Option (Option α) :=
  match r.lookup name with
  | none => none
  | some .null => some none
  | some v => (read v).map some

end Row

/-- The row of a job as it is stored. -/
structure JobRow where
  id : JobId
  name : String
  state : String
  percentComplete : Int
  createdAt : Instant
  lastUpdatedAt : Instant
  completedAt : Option Instant
  resultPayload : Option Json
  errorMessage : Option String
  errorDetail : Option String
  owningInstanceId : String
  timeoutSeconds : Int
  cancellationRequested : Bool
  createdBy : Option String
  correlationId : Option String

namespace JobRow

def columns : List String :=
  ["id", "name", "state", "percent_complete", "created_at", "last_updated_at", "completed_at",
    "result_payload", "error_message", "error_detail", "owning_instance_id", "timeout_seconds",
    "cancellation_requested", "created_by", "correlation_id"]

def maxTimeout : Nat := Nat.pow 2 63 - 1

def ofRecord (r : JobRecord) : JobRow where
  id := r.id
  name := r.name
  state := r.state.name
  percentComplete := r.percentComplete.toNat
  createdAt := r.createdAt
  lastUpdatedAt := r.lastUpdatedAt
  completedAt := r.completedAt
  resultPayload := r.resultPayload
  errorMessage := r.errorMessage
  errorDetail := r.errorDetail
  owningInstanceId := r.owningInstanceId.name
  timeoutSeconds := min r.timeoutSeconds.toNat maxTimeout
  cancellationRequested := r.cancellationRequested
  createdBy := r.createdBy
  correlationId := r.correlationId

def values (r : JobRow) : List (ColumnType × Value) :=
  [(.uuid, .uuid r.id), (.text, .text r.name), (.text, .text r.state),
    (.int2, .int2 r.percentComplete), (.timestamptz, .timestamptz r.createdAt),
    (.timestamptz, .timestamptz r.lastUpdatedAt),
    (.timestamptz, .ofOption .timestamptz r.completedAt),
    (.jsonb, .ofOption .jsonb r.resultPayload), (.text, .ofOption .text r.errorMessage),
    (.text, .ofOption .text r.errorDetail), (.text, .text r.owningInstanceId),
    (.int8, .int8 r.timeoutSeconds), (.bool, .bool r.cancellationRequested),
    (.text, .ofOption .text r.createdBy), (.text, .ofOption .text r.correlationId)]

def toRow (r : JobRow) : Row := columns.zip (r.values.map Prod.snd)

/-- The row of a job that has all columns in their types. -/
def ofRow? (r : Row) : Option JobRow := do
  return {
    id := ← r.required Value.uuid? "id"
    name := ← r.required Value.text? "name"
    state := ← r.required Value.text? "state"
    percentComplete := ← r.required Value.int2? "percent_complete"
    createdAt := ← r.required Value.timestamptz? "created_at"
    lastUpdatedAt := ← r.required Value.timestamptz? "last_updated_at"
    completedAt := ← r.nullable Value.timestamptz? "completed_at"
    resultPayload := ← r.nullable Value.jsonb? "result_payload"
    errorMessage := ← r.nullable Value.text? "error_message"
    errorDetail := ← r.nullable Value.text? "error_detail"
    owningInstanceId := ← r.required Value.text? "owning_instance_id"
    timeoutSeconds := ← r.required Value.int8? "timeout_seconds"
    cancellationRequested := ← r.required Value.bool? "cancellation_requested"
    createdBy := ← r.nullable Value.text? "created_by"
    correlationId := ← r.nullable Value.text? "correlation_id" }

/-- The record that a row stands for, if its state, percentage and timeout are those of a record. -/
def toRecord (r : JobRow) : Except StoreError JobRecord :=
  match JobState.spelled? r.state with
  | none => .error (.serialization (.storedState r.state))
  | some state =>
    if ¬(0 ≤ r.percentComplete ∧ r.percentComplete ≤ 100) then
      .error (.serialization (.percent r.percentComplete))
    else if r.timeoutSeconds < 0 then .error (.serialization (.timeout r.timeoutSeconds))
    else .ok {
      id := r.id
      name := r.name
      state := state
      percentComplete := UInt8.ofNat r.percentComplete.toNat
      createdAt := r.createdAt
      lastUpdatedAt := r.lastUpdatedAt
      completedAt := r.completedAt
      resultPayload := r.resultPayload
      errorMessage := r.errorMessage
      errorDetail := r.errorDetail
      owningInstanceId := ⟨r.owningInstanceId⟩
      timeoutSeconds := UInt64.ofNat r.timeoutSeconds.toNat
      cancellationRequested := r.cancellationRequested
      createdBy := r.createdBy
      correlationId := r.correlationId }

def decode (r : Row) : Except StoreError JobRecord :=
  match ofRow? r with
  | some row => row.toRecord
  | none => .error (.serialization .row)

end JobRow

end JobLedger.Postgres
