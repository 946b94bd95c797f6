import JobLedger.Decimal.Digits
import JobLedger.Dialogue
import JobLedger.Job.Error
import JobLedger.Job.State
import JobLedger.Json.Document
import JobLedger.Redis.Database
/-!
# A key-value server

The commands that the status store sends, each answered in one atomic step. The words of the commands that
reach the server are kept. Commands can be made to fail once, by name.
-/
namespace JobLedger.Redis

/-- A command of the status store. -/
inductive Command where
  | get (key : String)
  | getMany (keys : List String)
  | range (key : String)
  /-- Set a key that is not there, for a number of seconds. -/
  | setNew (key value : String) (seconds : Nat)
  /-- Put an item in front of a list, cut the list behind a position and give it a number of seconds. -/
  | enlist (key item : String) (last : Int64) (seconds : Nat)
  /-- Set a key that holds an open record, for a number of seconds. -/
  | replaceOpen (key value : String) (seconds : Nat)

abbrev Command.Success : Command → Type
  | .get _ => Option String
  | .getMany _ => List (Option String)
  | .range _ => List String
  | .setNew _ _ _ => Bool
  | .enlist _ _ _ _ => Unit
  | .replaceOpen _ _ _ => String

abbrev Command.Answer (c : Command) : Type := Except Outage c.Success

abbrev Command.interface : Interface := ⟨Command, Command.Answer⟩

/-- A failure that waits for a command. -/
structure Fault where
  command : String
  /-- What is answered. Its first word names the kind of failure. -/
  message : String
deriving DecidableEq, Repr

/-- Whether a failure says that a script is not loaded. -/
def Fault.isScriptMissing (f : Fault) : Bool := f.message.toList.takeWhile (· != ' ') == "NOSCRIPT".toList

/-- The state that a script finds in the text of a record. -/
def Database.storedState? (value : String) (d : Database) : Option String :=
  match (Json.ofTextWithin? (Json.nestingLimit + d.leeway.levels) value).bind (Json.member? "state") with
  | some (.string state) => some state
  | _ => none

structure Server where
  database : Database
  /-- Whether the script of conditional replacement was loaded. -/
  hasScript : Bool := false
  /-- The failures that wait for commands. Each happens once. -/
  faults : List Fault := []
  /-- The words of the commands received. -/
  log : List (List String) := []

namespace Server

variable {α : Type}

def empty : Server := { database := .empty }

def note (words : List String) (s : Server) : Server := { s with log := s.log ++ [words] }

/-- The first failure that waits for a command, and the server without it. -/
def fault? (name : String) (s : Server) : Option (Fault × Server) :=
  (s.faults.find? fun f => f.command == name).map fun f => (f, { s with faults := s.faults.erase f })

def read (name : String) (f : Database → Option α) (s : Server) : Except Outage α × Server :=
  match s.fault? name with
  | some (_, s) => (.error .keyValue, s)
  | none =>
    match f s.database with
    | some a => (.ok a, s)
    | none => (.error .keyValue, s)

def write (name : String) (f : Database → Option Database) (s : Server) : Except Outage Unit × Server :=
  match s.fault? name with
  | some (_, s) => (.error .keyValue, s)
  | none =>
    match f s.database with
    | some d => (.ok (), { s with database := d })
    | none => (.error .keyValue, s)

/-- Commands of which each is carried out, whatever became of those before it. -/
def writeAll : List (String × (Database → Option Database)) → Server → Except Outage Unit × Server
  | [], s => (.ok (), s)
  | (name, f) :: cs, s =>
    let (a, s) := s.write name f
    let (b, s) := writeAll cs s
    (a.bind fun _ => b, s)

/-- Set a key that is not there. Answers whether it was set. -/
def setNew (now : Int) (key value : String) (seconds : Nat) (s : Server) : Except Outage Bool × Server :=
  match s.fault? "SET" with
  | some (_, s) => (.error .keyValue, s)
  | none =>
    match s.database.setFor? now key value seconds with
    | none => (.error .keyValue, s)
    | some d =>
      if (s.database.entry? now key).isSome then (.ok false, s) else (.ok true, { s with database := d })

/-- Load the script of conditional replacement, then call it again. -/
def reload (s : Server) : Except Outage Unit × Server :=
  match s.fault? "SCRIPT" with
  | some (_, s) => (.error .keyValue, s)
  | none =>
    let s := { s with hasScript := true }
    match s.fault? "EVALSHA" with
    | some (_, s) => (.error .keyValue, s)
    | none => (.ok (), s)

/-- Call the script of conditional replacement. It is loaded if the answer says that it is not there. -/
def call (s : Server) : Except Outage Unit × Server :=
  match s.fault? "EVALSHA" with
  | some (f, s) => if f.isScriptMissing then s.reload else (.error .keyValue, s)
  | none => if s.hasScript then (.ok (), s) else s.reload

def isOpenState (state : String) : Bool :=
  state == JobState.accepted.name || state == JobState.running.name

/-- The script of conditional replacement: nothing is answered if there is no record, the state of a record
that is not open, and a word of consent if the record was replaced. -/
def replaceOpen (now : Int) (key value : String) (seconds : Nat) (s : Server) :
    Except Outage String × Server :=
  match s.read "GET" (Database.text? now key) with
  | (.error e, s) => (.error e, s)
  | (.ok none, s) => (.ok "", s)
  | (.ok (some current), s) =>
    match s.database.storedState? current with
    | none => (.error .keyValue, s)
    | some state =>
      if isOpenState state then
        match s.write "SET" (Database.setFor? now key value seconds) with
        | (.error e, s) => (.error e, s)
        | (.ok (), s) => (.ok "OK", s)
      else (.ok state, s)

/-- The answer to a command, at a time in milliseconds. -/
def answer (now : Int) (c : Command) (s : Server) : c.Answer × Server :=
  match c with
  | .get key => (s.note ["GET", key]).read "GET" (Database.text? now key)
  | .getMany keys => (s.note ("MGET" :: keys)).read "MGET" fun d => some (d.texts now keys)
  | .range key => (s.note ["LRANGE", key, "0", "-1"]).read "LRANGE" (Database.list? now key)
  | .setNew key value seconds =>
    (s.note ["SET", key, value, "NX", "EX", Decimal.text seconds]).setNew now key value seconds
  | .enlist key item last seconds =>
    let last := last.toInt
    let s := [["MULTI"], ["LPUSH", key, item], ["LTRIM", key, "0", Decimal.signedText last],
      ["EXPIRE", key, Decimal.text seconds], ["EXEC"]].foldl (fun s words => s.note words) s
    s.writeAll [("LPUSH", Database.push? now key item), ("LTRIM", Database.trim? now key 0 last),
      ("EXPIRE", Database.expire? now key seconds)]
  | .replaceOpen key value seconds =>
    match s.call with
    | (.error e, s) => (.error e, s)
    | (.ok (), s) =>
      (s.note ["EVAL", "1", key, value, Decimal.text seconds]).replaceOpen now key value seconds

end Server

end JobLedger.Redis
