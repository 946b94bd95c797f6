import JobLedger.Dialogue
import JobLedger.Job.Query
import JobLedger.Store.Error
/-!
# Calls of a status store

The contract between the job lifecycle and whatever keeps the records. A store answers one call at a time
from its state and the time of the call.
-/
namespace JobLedger

/-- A call of a status store. -/
inductive StoreCall where
  | create (record : JobRecord)
  | get (id : JobId)
  /-- Replace the stored record of the same identifier unless that one has ended. -/
  | update (record : JobRecord)
  | findExpired (now : Instant)
  | list (query : ListQuery)

namespace StoreCall

/-- What a call that succeeds yields. -/
abbrev Success : StoreCall → Type
  | .create _ | .update _ => JobRecord
  | .get _ => Option JobRecord
  | .findExpired _ | .list _ => List JobRecord

abbrev Answer (c : StoreCall) : Type := Except StoreError c.Success

/-- The operation of a call, without its arguments. -/
inductive Kind where
  | create
  | get
  | update
  | findExpired
  | list
deriving DecidableEq, Repr

def kind : StoreCall → Kind
  | .create _ => .create
  | .get _ => .get
  | .update _ => .update
  | .findExpired _ => .findExpired
  | .list _ => .list

end StoreCall

abbrev StoreCall.interface : Interface := ⟨StoreCall, StoreCall.Answer⟩

/-- A way to keep records in a state of some type. -/
structure StatusStore (σ : Type) where
  /-- The answer to a call made at a time, and the state after it. -/
  perform : Instant → (c : StoreCall) → σ → c.Answer × σ

/-- The first records of a listing without a filter, as many as fit on one page. -/
def ListQuery.everything : ListQuery where
  pageSize := 1000

end JobLedger
