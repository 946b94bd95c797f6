import JobLedger.Lifecycle.Schedule
import JobLedger.Service.Config
/-!
# Running services

A manager and its sweeper on a schedule. Stopping the service stops the sweeper alone: the work of open jobs
goes on, and what it records is still recorded.
-/
namespace JobLedger.Service

/-- A running job service: its manager and the number of its sweeper. -/
structure JobService where
  manager : Manager
  sweeper : Nat
deriving DecidableEq, Repr

namespace JobService

variable {σ : Type}

/-- Start a service with a manager of a number, on the store of a schedule. It sweeps at once. -/
def start (s : StatusStore σ) (number : Nat) (c : Config) (w : Schedule σ) : JobService × Schedule σ :=
  let m : Manager := ⟨number, c.instanceId, c.pollInterval⟩
  let (sweeper, w) := w.startSweeper s m c.sweepInterval
  (⟨m, sweeper⟩, w)

/-- Stop a service. Answers how many jobs it still tracked. -/
def shutdown (x : JobService) (w : Schedule σ) : Nat × Schedule σ :=
  (w.host.trackedCount x.manager.number, w.stopSweeper x.sweeper)

@[simp] theorem manager_start (s : StatusStore σ) (number : Nat) (c : Config) (w : Schedule σ) :
    (start s number c w).1.manager = ⟨number, c.instanceId, c.pollInterval⟩ := rfl

@[simp] theorem host_shutdown (x : JobService) (w : Schedule σ) : (x.shutdown w).2.host = w.host := rfl

end JobService

end JobLedger.Service
