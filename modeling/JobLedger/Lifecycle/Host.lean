import JobLedger.Lifecycle.Request
import JobLedger.Table
/-!
# The state of a process

What operations on jobs share: the clock, the store, the tracking tables of the managers and the flags of
the execution contexts. A signal that has fired stays fired, an outcome once recorded stays recorded.
-/
namespace JobLedger

/-- The shared state of the operations of a process. -/
structure Host (σ : Type) where
  clock : Instant
  store : σ
  /-- For a manager and a job that it tracks, the context of the job. -/
  tracked : Table (Nat × JobId) Nat := .empty
  contexts : Nat := 0
  /-- The contexts whose signal has fired, in the order of firing. -/
  fired : List Nat := []
  /-- The contexts through which an outcome was recorded. -/
  completed : List Nat := []

namespace Host

variable {σ α : Type}

def isCancelled (h : Host σ) (context : Nat) : Bool := h.fired.contains context

def isCompleted (h : Host σ) (context : Nat) : Bool := h.completed.contains context

def fire (h : Host σ) (context : Nat) : Host σ :=
  if h.isCancelled context then h else { h with fired := h.fired ++ [context] }

def isTracked (h : Host σ) (manager : Nat) (id : JobId) : Bool := h.tracked.contains (manager, id)

def trackedCount (h : Host σ) (manager : Nat) : Nat :=
  h.tracked.entries.countP fun e => e.1.1 == manager

/-- The answer to a request. -/
def answer (s : StatusStore σ) (q : Request) (h : Host σ) : q.Answer × Host σ :=
  match q with
  | .clock => (h.clock, h)
  | .store c =>
    let (a, x) := s.perform h.clock c h.store
    (a, { h with store := x })
  | .track manager id =>
    (h.contexts,
      { h with contexts := h.contexts + 1, tracked := h.tracked.insert (manager, id) h.contexts })
  | .signal manager id =>
    match h.tracked.get? (manager, id) with
    | some context => (true, h.fire context)
    | none => (false, h)
  | .untrack manager id =>
    (h.isTracked manager id, { h with tracked := h.tracked.erase (manager, id) })
  | .isCompleted context => (h.isCompleted context, h)
  | .complete context =>
    ((), if h.isCompleted context then h else { h with completed := h.completed ++ [context] })

/-- The result of an operation that nothing interrupts, and the process after it. -/
def perform (s : StatusStore σ) (a : Action α) (h : Host σ) : α × Host σ := a.run (answer s) h

end Host

end JobLedger
