import JobLedger.Postgres.Statement
/-!
# Sessions

A pool with one connection to a database that answers as told. A statement is prepared once on a connection.
The statements that reach the database are kept with what was sent.
-/
namespace JobLedger.Postgres

/-- How the database answers one statement. -/
inductive Reply where
  | rows (rows : List Row)
  | refusal (code message : String)
  /-- A refusal while the statement is prepared. -/
  | refusalOnPrepare (code message : String)
  | hangup

/-- A statement that reached the database. -/
inductive Received where
  | executed (statement : Statement)
  | unprepared (statement : Statement)

/-- The state of a pool, and how the database will answer. Without a reply there are no rows. -/
structure Session where
  replies : List Reply := []
  isClosed : Bool := false
  /-- Whether the database accepts no connection. -/
  isStalled : Bool := false
  /-- The texts prepared on the connection. -/
  prepared : List String := []
  received : List Received := []

namespace Session

def executed (q : Statement) (s : Session) : Session :=
  { s with prepared := q.sql :: s.prepared, received := s.received ++ [.executed q] }

/-- The answer to a statement. -/
def answer (q : Statement) (s : Session) : Except Failure (List Row) × Session :=
  if s.isClosed then (.error .poolClosed, s)
  else if s.isStalled then (.error .poolTimedOut, s)
  else
    let next := { s with replies := s.replies.tail }
    match s.replies.head? with
    | none => (.ok [], next.executed q)
    | some (.rows rows) => (.ok rows, next.executed q)
    | some (.refusal code message) => (.error (.database code message), next.executed q)
    | some (.refusalOnPrepare code message) =>
      if s.prepared.contains q.sql then (.error (.database code message), next.executed q)
      else (.error (.database code message), { next with received := s.received ++ [.unprepared q] })
    | some .hangup => (.error .connection, { next.executed q with prepared := [] })

end Session

end JobLedger.Postgres
