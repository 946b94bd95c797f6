import JobLedger.Job.Query
import JobLedger.Job.View
import JobLedger.Time.Text
/-!
# JSON forms

How the types of the job lifecycle are written as JSON and read back. Absent values are null in records,
requests and queries, and left out of acknowledgements and views.
-/
namespace JobLedger

open Json (Reader int nat orNull optionalMember)
open Json.Reader (required omittable members? natural spelled choice)

def Json.Reader.word64 : Reader UInt64 := fun room d =>
  (natural UInt64.size room d).map UInt64.ofNat

def Json.Reader.word32 : Reader UInt32 := fun room d =>
  (natural UInt32.size room d).map UInt32.ofNat

def Json.Reader.word8 : Reader UInt8 := fun room d => (natural UInt8.size room d).map UInt8.ofNat

open Json.Reader (word64 word32 word8)

namespace JobId

def toJson (id : JobId) : Json := .string id.text

def reader : Reader JobId := spelled ofText?

end JobId

namespace InstanceId

def toJson (i : InstanceId) : Json := .string i.name

def reader : Reader InstanceId := fun room d => (Json.Reader.string room d).map InstanceId.mk

end InstanceId

namespace JobState

def toJson (s : JobState) : Json := .string s.name

def reader : Reader JobState := choice named?

end JobState

namespace Instant

def toJson (t : Instant) : Json := .string t.text

def reader : Reader Instant := spelled ofText?

end Instant

namespace JobRecord

def memberNames : List String :=
  ["id", "name", "state", "percent_complete", "created_at", "last_updated_at", "completed_at",
    "result_payload", "error_message", "error_detail", "owning_instance_id", "timeout_seconds",
    "cancellation_requested", "created_by", "correlation_id"]

def toJson (r : JobRecord) : Json := .object
  [("id", r.id.toJson), ("name", .string r.name), ("state", r.state.toJson),
    ("percent_complete", nat r.percentComplete.toNat), ("created_at", r.createdAt.toJson),
    ("last_updated_at", r.lastUpdatedAt.toJson),
    ("completed_at", orNull Instant.toJson r.completedAt),
    ("result_payload", orNull (fun v => v) r.resultPayload),
    ("error_message", orNull .string r.errorMessage),
    ("error_detail", orNull .string r.errorDetail),
    ("owning_instance_id", r.owningInstanceId.toJson),
    ("timeout_seconds", nat r.timeoutSeconds.toNat),
    ("cancellation_requested", .bool r.cancellationRequested),
    ("created_by", orNull .string r.createdBy),
    ("correlation_id", orNull .string r.correlationId)]

def reader : Reader JobRecord := fun room d => do
  match ← members? memberNames room d with
  | (room, [id, name, state, percent, created, updated, completed, result, message, detail, owner,
      timeout, cancellation, by_, correlation]) =>
    return {
      id := ← required JobId.reader room id
      name := ← required Reader.string room name
      state := ← required JobState.reader room state
      percentComplete := ← required word8 room percent
      createdAt := ← required Instant.reader room created
      lastUpdatedAt := ← required Instant.reader room updated
      completedAt := ← omittable Instant.reader room completed
      resultPayload := ← omittable Reader.json room result
      errorMessage := ← omittable Reader.string room message
      errorDetail := ← omittable Reader.string room detail
      owningInstanceId := ← required InstanceId.reader room owner
      timeoutSeconds := ← required word64 room timeout
      cancellationRequested := ← required Reader.bool room cancellation
      createdBy := ← omittable Reader.string room by_
      correlationId := ← omittable Reader.string room correlation }
  | _ => none

/-- The text under which a record is stored. -/
def encode (r : JobRecord) : String := r.toJson.text

/-- The record of a stored text. -/
def decode? (s : String) : Option JobRecord := reader.ofText? s

end JobRecord

namespace NewJob

def memberNames : List String := ["name", "timeout_seconds", "created_by", "correlation_id"]

def toJson (n : NewJob) : Json := .object
  [("name", .string n.name), ("timeout_seconds", nat n.timeoutSeconds.toNat),
    ("created_by", orNull .string n.createdBy), ("correlation_id", orNull .string n.correlationId)]

def reader : Reader NewJob := fun room d => do
  match ← members? memberNames room d with
  | (room, [name, timeout, by_, correlation]) =>
    return {
      name := ← required Reader.string room name
      timeoutSeconds := ← required word64 room timeout
      createdBy := ← omittable Reader.string room by_
      correlationId := ← omittable Reader.string room correlation }
  | _ => none

end NewJob

namespace ListQuery

def memberNames : List String := ["name", "state", "page", "page_size"]

def toJson (q : ListQuery) : Json := .object
  [("name", orNull .string q.name), ("state", orNull JobState.toJson q.state),
    ("page", nat q.page.toNat), ("page_size", nat q.pageSize.toNat)]

def reader : Reader ListQuery := fun room d => do
  match ← members? memberNames room d with
  | (room, [name, state, page, size]) =>
    return {
      name := ← omittable Reader.string room name
      state := ← omittable JobState.reader room state
      page := ← required word32 room page
      pageSize := ← required word32 room size }
  | _ => none

end ListQuery

namespace EndpointDeclaration

def memberNames : List String :=
  ["name", "timeout_seconds", "allow_cancellation", "estimated_duration_seconds"]

def toJson (e : EndpointDeclaration) : Json := .object
  [("name", .string e.name), ("timeout_seconds", nat e.timeoutSeconds.toNat),
    ("allow_cancellation", .bool e.allowCancellation),
    ("estimated_duration_seconds", nat e.estimatedDurationSeconds.toNat)]

def reader : Reader EndpointDeclaration := fun room d => do
  match ← members? memberNames room d with
  | (room, [name, timeout, allow, estimate]) =>
    return {
      name := ← required Reader.string room name
      timeoutSeconds := ← required word64 room timeout
      allowCancellation := ← required Reader.bool room allow
      estimatedDurationSeconds := ← required word64 room estimate }
  | _ => none

end EndpointDeclaration

namespace JobAcknowledgement

def memberNames : List String :=
  ["id", "name", "state", "status_check_locator", "cancel_locator", "estimated_duration_seconds",
    "created_at"]

def toJson (a : JobAcknowledgement) : Json := .object <|
  [("id", a.id.toJson), ("name", .string a.name), ("state", a.state.toJson),
    ("status_check_locator", .string a.statusCheckLocator)] ++
  optionalMember "cancel_locator" .string a.cancelLocator ++
  [("estimated_duration_seconds", nat a.estimatedDurationSeconds.toNat),
    ("created_at", a.createdAt.toJson)]

def reader : Reader JobAcknowledgement := fun room d => do
  match ← members? memberNames room d with
  | (room, [id, name, state, status, cancel, estimate, created]) =>
    return {
      id := ← required JobId.reader room id
      name := ← required Reader.string room name
      state := ← required JobState.reader room state
      statusCheckLocator := ← required Reader.string room status
      cancelLocator := ← omittable Reader.string room cancel
      estimatedDurationSeconds := ← required word64 room estimate
      createdAt := ← required Instant.reader room created }
  | _ => none

end JobAcknowledgement

namespace JobStatusView

def memberNames : List String :=
  ["id", "name", "state", "percent_complete", "created_at", "last_updated_at", "completed_at",
    "cancellation_requested", "retry_after_seconds", "result", "error_message", "error_detail"]

def toJson (v : JobStatusView) : Json := .object <|
  [("id", v.id.toJson), ("name", .string v.name), ("state", v.state.toJson),
    ("percent_complete", nat v.percentComplete.toNat), ("created_at", v.createdAt.toJson),
    ("last_updated_at", v.lastUpdatedAt.toJson)] ++
  optionalMember "completed_at" Instant.toJson v.completedAt ++
  [("cancellation_requested", .bool v.cancellationRequested)] ++
  optionalMember "retry_after_seconds" (fun n => nat n.toNat) v.retryAfterSeconds ++
  optionalMember "result" (fun v => v) v.result ++
  optionalMember "error_message" .string v.errorMessage ++
  optionalMember "error_detail" .string v.errorDetail

def reader : Reader JobStatusView := fun room d => do
  match ← members? memberNames room d with
  | (room, [id, name, state, percent, created, updated, completed, cancellation, retry, result,
      message, detail]) =>
    return {
      id := ← required JobId.reader room id
      name := ← required Reader.string room name
      state := ← required JobState.reader room state
      percentComplete := ← required word8 room percent
      createdAt := ← required Instant.reader room created
      lastUpdatedAt := ← required Instant.reader room updated
      completedAt := ← omittable Instant.reader room completed
      cancellationRequested := ← required Reader.bool room cancellation
      retryAfterSeconds := ← omittable word64 room retry
      result := ← omittable Reader.json room result
      errorMessage := ← omittable Reader.string room message
      errorDetail := ← omittable Reader.string room detail }
  | _ => none

end JobStatusView

end JobLedger
