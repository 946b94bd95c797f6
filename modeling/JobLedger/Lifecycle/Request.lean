import JobLedger.Store.Call
/-!
# Requests of the job lifecycle

What an operation on jobs asks of the process that it runs in: the clock, the store, the tracking tables of
the managers and the flags of the execution contexts. Each request is answered in one atomic step.
-/
namespace JobLedger

/-- One request to the surrounding process. Managers and contexts are given by number. -/
inductive Request where
  | clock
  | store (call : StoreCall)
  /-- A context for a job, tracked by a manager in the place of an earlier one. -/
  | track (manager : Nat) (id : JobId)
  /-- Fire the cancellation signal of a job that a manager tracks. -/
  | signal (manager : Nat) (id : JobId)
  | untrack (manager : Nat) (id : JobId)
  | isCompleted (context : Nat)
  /-- Note that an outcome was recorded through a context. -/
  | complete (context : Nat)

/-- The type of the answer to a request. Firing and untracking say whether the job was tracked. -/
abbrev Request.Answer : Request → Type
  | .clock => Instant
  | .store c => c.Answer
  | .track _ _ => Nat
  | .signal _ _ | .untrack _ _ | .isCompleted _ => Bool
  | .complete _ => Unit

abbrev Request.interface : Interface := ⟨Request, Request.Answer⟩

/-- An operation that ends without waiting. -/
abbrev Action (α : Type) : Type := Dialogue Request.interface α

namespace Action

def clock : Action Instant := Dialogue.question (I := Request.interface) .clock

def call (c : StoreCall) : Action c.Answer :=
  Dialogue.question (I := Request.interface) (.store c)

def track (manager : Nat) (id : JobId) : Action Nat :=
  Dialogue.question (I := Request.interface) (.track manager id)

def signal (manager : Nat) (id : JobId) : Action Bool :=
  Dialogue.question (I := Request.interface) (.signal manager id)

def untrack (manager : Nat) (id : JobId) : Action Bool :=
  Dialogue.question (I := Request.interface) (.untrack manager id)

def isCompleted (context : Nat) : Action Bool :=
  Dialogue.question (I := Request.interface) (.isCompleted context)

def complete (context : Nat) : Action Unit :=
  Dialogue.question (I := Request.interface) (.complete context)

end Action

end JobLedger
