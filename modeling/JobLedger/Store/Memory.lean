import JobLedger.Store.Call
import JobLedger.Table
/-!
# Records in memory

The store that keeps its records in the process. It defines what the other stores are to do.
-/
namespace JobLedger

/-- The records of the jobs, each under its identifier. -/
structure Memory where
  records : Table JobId JobRecord

namespace Memory

def empty : Memory := ⟨.empty⟩

/-- A new record, unless its identifier is taken. -/
def create (r : JobRecord) (s : Memory) : Except StoreError JobRecord × Memory :=
  if s.records.contains r.id then (.error (.duplicateId r.id), s)
  else (.ok r, ⟨s.records.insert r.id r⟩)

/-- A record in the place of an open one. -/
def update (now : Instant) (r : JobRecord) (s : Memory) : Except StoreError JobRecord × Memory :=
  match s.records.get? r.id with
  | none => (.error (.notFound r.id), s)
  | some stored =>
    if stored.isTerminal then (.error (.alreadyTerminal r.id stored.state), s)
    else
      let next := { r with lastUpdatedAt := now }
      (.ok next, ⟨s.records.insert r.id next⟩)

def store : StatusStore Memory where
  perform now c s := match c with
    | .create r => create r s
    | .get id => (.ok (s.records.get? id), s)
    | .update r => update now r s
    | .findExpired t => (.ok (s.records.values.filter fun r => r.isExpired t), s)
    | .list q => (.ok (q.select s.records.values), s)

end Memory

end JobLedger
