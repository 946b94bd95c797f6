import JobLedger.Postgres.Session
import JobLedger.Store.Call
/-!
# Records in a database

The store in a relational database, shared between instances. Whether a record is open is tested by the
database in the statement that replaces it, and a second statement tells why no row was replaced.
-/
namespace JobLedger.Postgres

/-- A conversation with the database. -/
abbrev Exchange (α : Type) : Type := Dialogue Statement.interface α

namespace Exchange

/-- A single statement within an operation. -/
def execute (operation : String) (q : Statement) : Exchange (Except StoreError (List Row)) := do
  return (← Dialogue.question (I := Statement.interface) q).mapError fun e =>
    .unavailable (e.outage operation)

/-- Create what is missing of the schema. -/
def ensureSchema : List SchemaPart → Exchange (Except StoreError Unit)
  | [] => return .ok ()
  | p :: ps => do
    match ← execute "ensure_schema" (.create p) with
    | .error e => return .error e
    | .ok _ => ensureSchema ps

/-- The error of a failed insertion. A value that is taken can only be the identifier. -/
def insertionError (id : JobId) : Failure → StoreError
  | .database code message =>
    if code = "23505" then .duplicateId id else .unavailable (.database "create" message)
  | e => .unavailable (e.outage "create")

def create (r : JobRecord) : Exchange (Except StoreError JobRecord) := do
  match ← Dialogue.question (I := Statement.interface) (.insert (.ofRecord r)) with
  | .error e => return .error (insertionError r.id e)
  | .ok _ => return .ok r

def get (id : JobId) : Exchange (Except StoreError (Option JobRecord)) := do
  match ← execute "get" (.select id) with
  | .error e => return .error e
  | .ok [] => return .ok none
  | .ok (row :: _) => return (JobRow.decode row).map some

def decodeState (row : Row) : Except StoreError JobState :=
  match row.required Value.text? "state" with
  | none => .error (.serialization .column)
  | some name =>
    match JobState.spelled? name with
    | none => .error (.serialization (.storedState name))
    | some state => .ok state

def update (r : JobRecord) : Exchange (Except StoreError JobRecord) := do
  match ← execute "update" (.updateOpen (.ofRecord r)) with
  | .error e => return .error e
  | .ok (row :: _) => return JobRow.decode row
  | .ok [] =>
    match ← execute "fetch_state" (.selectState r.id) with
    | .error e => return .error e
    | .ok [] => return .error (.notFound r.id)
    | .ok (row :: _) => return (decodeState row).bind fun state => .error (.alreadyTerminal r.id state)

def records (operation : String) (q : Statement) : Exchange (Except StoreError (List JobRecord)) := do
  match ← execute operation q with
  | .error e => return .error e
  | .ok rows => return rows.mapM JobRow.decode

def pageOf (q : ListQuery) : Statement :=
  .selectPage q.name (q.state.map JobState.name) q.limit (min q.offset JobRow.maxTimeout : Nat)

/-- What a call of the store does in the database. -/
def ofCall : (c : StoreCall) → Exchange c.Answer
  | .create r => create r
  | .get id => get id
  | .update r => update r
  | .findExpired now => records "find_expired" (.selectExpired now)
  | .list q => records "list" (pageOf q)

end Exchange

def store : StatusStore Session where
  perform _ c s := (Exchange.ofCall c).run Session.answer s

end JobLedger.Postgres
