import JobLedger.Service.Config
import JobLedger.Service.Dotenv
import JobLedger.Service.Logging
/-!
# The course of a service process

What the executable reports and how it ends, given its environment. A process of its own reaches no server, so
only records in memory can be kept.
-/
namespace JobLedger.Service

/-- The course of a process. -/
inductive Course where
  /-- It failed after some reports, with an error text. -/
  | failed (reports : List LogEvent) (text : String)
  /-- It served: what it reported until it was told to stop, and after that. -/
  | served (reports lastReports : List LogEvent)

/-- An error with what was going on, for the person who started the process. -/
def errorText (occasion : String) (e : JobError) : String :=
  "Error: " ++ occasion ++ "\n\nCaused by:\n    " ++ e.message.replace "\n" "\n    " ++ "\n"

def startingReport (c : Config) : LogEvent where
  target := "longrun_server"
  message := "starting job service"
  fields := [("instance_id", .string c.instanceId.name), ("store", .string c.backend.kind)]

/-- Reported when the sweeper runs. The interval is given as a word of 64 bits. -/
def sweeperStartedReport (c : Config) : LogEvent where
  target := "longrun_infra::jobs::sweeper"
  message := "timeout sweeper started"
  fields := [("interval_ms", .nat (c.sweepInterval.milliseconds % UInt64.size))]

def serviceStartedReport (c : Config) : LogEvent where
  target := "longrun_infra::service"
  message := "job service started"
  fields := [("instance_id", .string c.instanceId.name), ("store", .string c.backend.kind),
    ("sweep_interval_secs", .nat c.sweepInterval.seconds)]

def shutdownReport : LogEvent where
  target := "longrun_server"
  message := "shutdown signal received"

def sweeperStoppedReport : LogEvent where
  target := "longrun_infra::jobs::sweeper"
  message := "timeout sweeper stopped"

/-- Reported at the very end, with the number of jobs that were still tracked. -/
def serviceStoppedReport (tracked : Nat) : LogEvent where
  target := "longrun_infra::service"
  message := "job service stopped"
  fields := [("tracked", .nat tracked)]

/-- The course of a process with the given variables. -/
def course (build : Build) (generated : InstanceId) (env : Environment) : Course :=
  match Config.ofLookup build generated env with
  | .error e => .failed [] (errorText "invalid job service configuration" e)
  | .ok c =>
    match c.backend.failure? build false with
    | some e => .failed [startingReport c] (errorText "failed to start job service" e)
    | none =>
      .served [startingReport c, serviceStartedReport c, sweeperStartedReport c]
        [shutdownReport, sweeperStoppedReport, serviceStoppedReport 0]

def logFilter (env : Environment) : LogFilter := .ofSetting (env "RUST_LOG")

def logFormat (env : Environment) : LogFormat := .ofSetting (env "LONGRUN_LOG_FORMAT")

end JobLedger.Service
