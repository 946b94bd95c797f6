import JobLedger.Lifecycle.Sweep
/-!
# Configuration

The settings of a job service, read from named variables. A variable counts as unset if it is blank, and only
those of the chosen backend are looked at. A setting that is no valid number is an error, never replaced by
its default.
-/
namespace JobLedger.Service

/-- What a build of the service includes. -/
structure Build where
  hasRedis : Bool
deriving DecidableEq, Repr

/-- Where a service keeps its records. -/
inductive Backend where
  | memory
  | postgres (url : String) (maxConnections : Nat)
  | redis (url keyPrefix : String) (activeTtl terminalTtl : Span)
deriving DecidableEq, Repr

def Backend.kind : Backend → String
  | .memory => "memory"
  | .postgres _ _ => "postgres"
  | .redis _ _ _ _ => "redis"

/-- Why a backend cannot be opened, given whether its server can be reached. -/
def Backend.failure? (build : Build) (isReachable : Bool) : Backend → Option JobError
  | .memory => none
  | .postgres _ _ =>
    if isReachable then none else some (.storeUnavailable (.connection "connect"))
  | .redis _ _ _ _ =>
    if !build.hasRedis then some (.configuration .storeDisabled)
    else if isReachable then none
    else some (.storeUnavailable .keyValue)

structure Config where
  backend : Backend
  instanceId : InstanceId
  sweepInterval : Span
  pollInterval : Span
deriving DecidableEq, Repr

namespace Config

/-- The settings of a service that is told nothing, under a generated identifier. -/
def standard (generated : InstanceId) : Config where
  backend := .memory
  instanceId := generated
  sweepInterval := Sweep.defaultInterval
  pollInterval := Manager.defaultPollInterval

/-- The value of a variable without white space around it, unless it is blank. -/
def setting (lookup : String → Option String) (key : String) : Option String :=
  ((lookup key).map Text.trim).filter fun s => s ≠ ""

def numberOr (lookup : String → Option String) (bound : Nat) (key : String) (default : Nat) :
    Except Misconfiguration Nat :=
  match setting lookup key with
  | none => .ok default
  | some s =>
    match Decimal.numeral? bound s with
    | some n => .ok n
    | none => .error (.notANumber key s)

def secondsOr (lookup : String → Option String) (key : String) (default : Nat) :
    Except Misconfiguration Span :=
  (numberOr lookup UInt64.size key default).map Span.ofSeconds

def needed (lookup : String → Option String) (key store : String) : Except Misconfiguration String :=
  match setting lookup key with
  | some s => .ok s
  | none => .error (.missing key store)

/-- The backend that the variables choose, in any letter case. -/
def readBackend (build : Build) (lookup : String → Option String) : Except Misconfiguration Backend :=
  match (setting lookup "LONGRUN_STORE").map fun s => s.map Char.toLower with
  | none | some "memory" => .ok .memory
  | some "postgres" => do
    let url ← needed lookup "DATABASE_URL" "postgres"
    let maxConnections ← numberOr lookup UInt32.size "LONGRUN_DB_MAX_CONNECTIONS" 10
    return .postgres url maxConnections
  | some "redis" => do
    if !build.hasRedis then throw .storeNotBuilt
    let url ← needed lookup "REDIS_URL" "redis"
    let keyPrefix := (setting lookup "LONGRUN_REDIS_PREFIX").getD "longrun:jobs"
    let activeTtl ← secondsOr lookup "LONGRUN_REDIS_ACTIVE_TTL_SECS" 172800
    let terminalTtl ← secondsOr lookup "LONGRUN_REDIS_TERMINAL_TTL_SECS" 604800
    return .redis url keyPrefix activeTtl terminalTtl
  | some other => .error (.unknownStore other)

/-- The settings that the variables give, under a generated identifier unless one is set. -/
def read (build : Build) (generated : InstanceId) (lookup : String → Option String) :
    Except Misconfiguration Config := do
  let backend ← readBackend build lookup
  let sweepInterval ← secondsOr lookup "LONGRUN_SWEEP_INTERVAL_SECS" Sweep.defaultInterval.seconds
  if sweepInterval.milliseconds = 0 then throw .sweepInterval
  let pollInterval ← secondsOr lookup "LONGRUN_POLL_INTERVAL_SECS" Manager.defaultPollInterval.seconds
  return {
    backend := backend
    instanceId := ((setting lookup "LONGRUN_INSTANCE_ID").map InstanceId.mk).getD generated
    sweepInterval := sweepInterval
    pollInterval := pollInterval }

def ofLookup (build : Build) (generated : InstanceId) (lookup : String → Option String) :
    Except JobError Config :=
  (read build generated lookup).mapError .configuration

end Config

end JobLedger.Service
