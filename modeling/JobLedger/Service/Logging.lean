import JobLedger.Json.Token
import JobLedger.Service.LogFilter
/-!
# Logging

What a service reports while it runs, and how log lines are written.
-/
namespace JobLedger.Service

inductive LogFormat where
  | json
  | pretty
deriving DecidableEq, Repr

/-- The format of a setting: JSON unless it says otherwise. -/
def LogFormat.ofSetting : Option String → LogFormat
  | some s => if Text.sameAsciiCase (Text.trim s) "pretty" then .pretty else .json
  | none => .json

def LogFormat.name : LogFormat → String
  | .json => "json"
  | .pretty => "pretty"

/-- Something that a service reports for information. -/
structure LogEvent where
  target : String
  message : String
  fields : List (String × Json) := []

namespace LogEvent

/-- What a log line says of an event, apart from the time. -/
def members (e : LogEvent) : List (String × Json) :=
  [("level", .string "INFO"), ("fields", .object (("message", .string e.message) :: e.fields))]

def isShown (f : LogFilter) (e : LogEvent) : Bool :=
  f.shows e.target ("message" :: e.fields.map Prod.fst) .info

end LogEvent

end JobLedger.Service
