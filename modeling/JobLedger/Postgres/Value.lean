import JobLedger.Job.Id
import JobLedger.Json.Value
import JobLedger.Time.Instant
/-!
# Column values

The typed values that statements are sent with and rows are made of. Times are exact to the microsecond once
they have been sent.
-/
namespace JobLedger.Postgres

inductive ColumnType where
  | uuid
  | text
  | int2
  | int8
  | timestamptz
  | jsonb
  | bool
deriving DecidableEq, Repr

def ColumnType.name : ColumnType → String
  | .uuid => "uuid"
  | .text => "text"
  | .int2 => "int2"
  | .int8 => "int8"
  | .timestamptz => "timestamptz"
  | .jsonb => "jsonb"
  | .bool => "bool"

/-- A value in a column. -/
inductive Value where
  | null
  | uuid (value : JobId)
  | text (value : String)
  | int2 (value : Int)
  | int8 (value : Int)
  | timestamptz (value : Instant)
  | jsonb (value : Json)
  | bool (value : Bool)
  /-- A value of another type, or with a form that none of its type has. -/
  | unreadable

namespace Value

def ofOption {α : Type} (f : α → Value) : Option α → Value
  | some a => f a
  | none => .null

def uuid? : Value → Option JobId
  | .uuid v => some v
  | _ => none

def text? : Value → Option String
  | .text v => some v
  | _ => none

def int2? : Value → Option Int
  | .int2 v => some v
  | _ => none

def int8? : Value → Option Int
  | .int8 v => some v
  | _ => none

def timestamptz? : Value → Option Instant
  | .timestamptz v => some v
  | _ => none

def jsonb? : Value → Option Json
  | .jsonb v => some v
  | _ => none

def bool? : Value → Option Bool
  | .bool v => some v
  | _ => none

end Value

/-- The second of 2000-01-01T00:00:00Z, from which the database counts. -/
def firstSecond : Int := 946684800

/-- Microseconds from 2000-01-01T00:00:00Z, cut toward it. A leap second counts as the second after it. -/
def micros (t : Instant) : Int := Int.tdiv (t.nanos - firstSecond * 1000000000) 1000

def ofMicros? (n : Int) : Option Instant :=
  Instant.make? (firstSecond + Int.fdiv n 1000000) (Int.fmod n 1000000 * 1000).toNat

/-- The time that is left of one after it was sent. -/
def sentTime (t : Instant) : Instant := (ofMicros? (micros t)).getD t

/-- What is left of a value after it was sent. -/
def Value.sent : Value → Value
  | .timestamptz t => .timestamptz (sentTime t)
  | v => v

end JobLedger.Postgres
