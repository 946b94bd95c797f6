import JobLedger.Dialogue
import JobLedger.Postgres.Row
/-!
# Statements

What the status store asks of the database, with the values that are bound to the parameters. An update
touches a row only while its job is open.
-/
namespace JobLedger.Postgres

inductive SchemaPart where
  | table
  | stateIndex
  | stateTimeIndex
  | nameTimeIndex
deriving DecidableEq, Repr

def SchemaPart.all : List SchemaPart := [.table, .stateIndex, .stateTimeIndex, .nameTimeIndex]

/-- A statement of the status store. -/
inductive Statement where
  | create (part : SchemaPart)
  | insert (row : JobRow)
  | select (id : JobId)
  | selectState (id : JobId)
  | updateOpen (row : JobRow)
  | selectExpired (now : Instant)
  | selectPage (name state : Option String) (limit offset : Int)

/-- Why a statement had no answer. -/
inductive Failure where
  | database (code message : String)
  | poolClosed
  | poolTimedOut
  | connection
deriving DecidableEq, Repr

/-- What a failure in an operation means to the store. -/
def Failure.outage (operation : String) : Failure → Outage
  | .database _ message => .database operation message
  | .poolClosed => .poolClosed operation
  | .poolTimedOut => .poolTimedOut operation
  | .connection => .connection operation

abbrev Statement.interface : Interface := ⟨Statement, fun _ => Except Failure (List Row)⟩

def SchemaPart.sql : SchemaPart → String
  | .table =>
    "CREATE TABLE IF NOT EXISTS job_records ( id UUID PRIMARY KEY, name TEXT NOT NULL, " ++
    "state TEXT NOT NULL, percent_complete SMALLINT NOT NULL DEFAULT 0, " ++
    "created_at TIMESTAMPTZ NOT NULL, last_updated_at TIMESTAMPTZ NOT NULL, " ++
    "completed_at TIMESTAMPTZ NULL, result_payload JSONB NULL, error_message TEXT NULL, " ++
    "error_detail TEXT NULL, owning_instance_id TEXT NOT NULL, timeout_seconds BIGINT NOT NULL, " ++
    "cancellation_requested BOOLEAN NOT NULL DEFAULT FALSE, created_by TEXT NULL, " ++
    "correlation_id TEXT NULL, " ++
    "CONSTRAINT job_records_percent_range CHECK (percent_complete BETWEEN 0 AND 100), " ++
    "CONSTRAINT job_records_completed_at_terminal CHECK ( (completed_at IS NULL) = " ++
    "(state IN ('accepted', 'running')) ) )"
  | .stateIndex => "CREATE INDEX IF NOT EXISTS idx_job_records_state ON job_records (state)"
  | .stateTimeIndex =>
    "CREATE INDEX IF NOT EXISTS idx_job_records_state_created_at ON job_records (state, created_at)"
  | .nameTimeIndex =>
    "CREATE INDEX IF NOT EXISTS idx_job_records_name_created_at ON job_records (name, created_at DESC)"

namespace Statement

def columnList : String := ", ".intercalate JobRow.columns

def sql : Statement → String
  | .create part => part.sql
  | .insert _ =>
    "INSERT INTO job_records ( " ++ columnList ++
      " ) VALUES ($1, $2, $3, $4, $5, $6, $7, $8, $9, $10, $11, $12, $13, $14, $15)"
  | .select _ => "SELECT " ++ columnList ++ " FROM job_records WHERE id = $1"
  | .selectState _ => "SELECT state FROM job_records WHERE id = $1"
  | .updateOpen _ =>
    "UPDATE job_records SET state = $2, percent_complete = $3, last_updated_at = NOW(), " ++
      "completed_at = $4, result_payload = $5, error_message = $6, error_detail = $7, " ++
      "cancellation_requested = $8 WHERE id = $1 AND state IN ('accepted', 'running') RETURNING " ++
      columnList
  | .selectExpired _ =>
    "SELECT " ++ columnList ++ " FROM job_records WHERE state IN ('accepted', 'running') " ++
      "AND EXTRACT(EPOCH FROM ($1 - created_at)) > timeout_seconds ORDER BY created_at ASC"
  | .selectPage _ _ _ _ =>
    "SELECT " ++ columnList ++ " FROM job_records WHERE ($1::text IS NULL OR name = $1) " ++
      "AND ($2::text IS NULL OR state = $2) ORDER BY created_at DESC, id DESC LIMIT $3 OFFSET $4"

def parameters : Statement → List (ColumnType × Value)
  | .create _ => []
  | .insert row => row.values
  | .select id | .selectState id => [(.uuid, .uuid id)]
  | .updateOpen row =>
    [(.uuid, .uuid row.id), (.text, .text row.state), (.int2, .int2 row.percentComplete),
      (.timestamptz, .ofOption .timestamptz row.completedAt),
      (.jsonb, .ofOption .jsonb row.resultPayload), (.text, .ofOption .text row.errorMessage),
      (.text, .ofOption .text row.errorDetail), (.bool, .bool row.cancellationRequested)]
  | .selectExpired now => [(.timestamptz, .timestamptz now)]
  | .selectPage name state limit offset =>
    [(.text, .ofOption .text name), (.text, .ofOption .text state), (.int8, .int8 limit),
      (.int8, .int8 offset)]

end Statement

end JobLedger.Postgres
