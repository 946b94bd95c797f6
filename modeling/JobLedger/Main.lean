import JobLedger.Service.Program
import JobLedger.Time.Text
import Std.Async.Signal
import Std.Async.System
import Std.Time.DateTime.Timestamp
/-!
# The executable

Reads the environment and an environment file, prints what the service reports, and serves until it is
interrupted.
-/
namespace JobLedger.Service

/-- The executable includes the key-value store. -/
def executableBuild : Build := ⟨true⟩

def readFile? (path : String) : IO (Option String) := do
  try return some (← IO.FS.readFile path) catch _ => return none

/-- The text of the environment file in the working directory or in the nearest of so many directories above
it, given the way up so far. -/
def readDotenv? : Nat → String → IO (Option String)
  | 0, _ => return none
  | height + 1, up => do
    match ← readFile? (up ++ ".env") with
    | some text => return some text
    | none => readDotenv? height (up ++ "../")

/-- An identifier at random, version four. -/
def randomId : IO JobId := do
  let bytes ← IO.getRandomBytes 16
  let n := bytes.toList.foldl (fun n b => 256 * n + b.toNat) 0
  let bits := BitVec.ofNat 128 n
  let version := (bits &&& ~~~ (0xF000#128 <<< 64)) ||| (0x4000#128 <<< 64)
  return ⟨(version &&& ~~~ (0xC000#128 <<< 48)) ||| (0x8000#128 <<< 48)⟩

def readClock : IO Instant := do
  let t ← Std.Time.Timestamp.now
  let micros : Int := t.toNanosecondsSinceUnixEpoch.val / 1000
  return (Instant.make? (micros / 1000000) ((micros % 1000000).toNat * 1000)).getD .epoch

def logLine (format : LogFormat) (now : Instant) (e : LogEvent) : String :=
  match format with
  | .json => (Json.object (("timestamp", .string now.text) :: e.members)).text
  | .pretty =>
    "  " ++ now.text ++ "  INFO " ++ e.target ++ ": " ++ e.message ++
      String.join (e.fields.map fun (name, value) => ", " ++ name ++ ": " ++ value.text) ++ "\n"

def report (env : Environment) (events : List LogEvent) : IO Unit := do
  let out ← IO.getStdout
  for e in events.filter fun e => e.isShown (logFilter env) do
    out.putStrLn (logLine (logFormat env) (← readClock) e)
  out.flush

/-- Wait until the process is interrupted. -/
def awaitInterrupt : IO Unit := do
  let waiter ← Std.Async.Signal.Waiter.mk .sigint false
  let _ ← (← waiter.wait).block

end JobLedger.Service

open JobLedger JobLedger.Service in
def main : IO UInt32 := do
  let given := Environment.ofLookup (← Std.Async.System.getEnv).get?
  let env := match ← readDotenv? 64 "" with
    | some text => Dotenv.load given text
    | none => given
  match course executableBuild (.generated (← randomId)) env with
  | .failed reports text =>
    report env reports
    (← IO.getStderr).putStr text
    return 1
  | .served reports lastReports =>
    report env reports
    awaitInterrupt
    report env lastReports
    return 0
