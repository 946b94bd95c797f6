import JobLedger.Lifecycle.Manager
/-!
# Timeout sweeps

A sweep moves the open jobs past their deadline to the timed-out state and signals their work. One job that
cannot be written does not keep the others from being swept.
-/
namespace JobLedger

/-- What a sweep did: the jobs found, and of these the ones timed out, passed over and failed. -/
structure SweepReport where
  expired : Nat
  timedOut : Nat := 0
  skipped : Nat := 0
  failed : Nat := 0
deriving DecidableEq, Repr

namespace Sweep

/-- The time between two sweeps, unless configured. -/
def defaultInterval : Span := .ofSeconds 30

@[simp] theorem seconds_defaultInterval : defaultInterval.seconds = 30 := rfl

/-- The least time between two sweeps is a millisecond. -/
def normalize (interval : Span) : Span := ⟨max interval.milliseconds 1⟩

/-- What a job that took too long is recorded with. -/
def timeoutMessage (seconds : UInt64) : String :=
  "job exceeded its timeout of " ++ Decimal.text seconds.toNat ++ "s"

/-- Time out one job that was found. -/
def expire (m : Manager) (r : JobRecord) (report : SweepReport) : Action SweepReport := do
  match r.markTimedOut (timeoutMessage r.timeoutSeconds) (← Action.clock) with
  | .error _ => return { report with skipped := report.skipped + 1 }
  | .ok next =>
    match ← Action.call (.update next) with
    | .ok _ =>
      let _ ← Action.signal m.number next.id
      return { report with timedOut := report.timedOut + 1 }
    | .error (.alreadyTerminal _ _) | .error (.notFound _) =>
      return { report with skipped := report.skipped + 1 }
    | .error _ => return { report with failed := report.failed + 1 }

def expireAll (m : Manager) : List JobRecord → SweepReport → Action SweepReport
  | [], report => return report
  | r :: rs, report => do expireAll m rs (← expire m r report)

end Sweep

/-- Time out the jobs whose deadline lies before a time. -/
def Manager.sweepOnce (m : Manager) (now : Instant) : Action (Except StoreError SweepReport) := do
  match ← Action.call (.findExpired now) with
  | .error e => return .error e
  | .ok rs => return .ok (← Sweep.expireAll m rs ⟨rs.length, 0, 0, 0⟩)

end JobLedger
