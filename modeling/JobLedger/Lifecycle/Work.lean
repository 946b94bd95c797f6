import JobLedger.Lifecycle.Manager
/-!
# Work

The work of a job, and the task that carries it out and records its outcome. Work that recorded an outcome
itself has the last word, unless it panicked, and the job is no longer tracked once the task is through.
-/
namespace JobLedger

/-- What a task waits for. -/
inductive Wait where
  /-- Its next turn, after all tasks that are ready. -/
  | turn
  | signal (context : Nat)
  | time (milliseconds : Nat)
deriving DecidableEq, Repr

/-- What a task asks: a request, or to be woken later. -/
inductive TaskStep where
  | request (q : Request)
  | wait (w : Wait)

abbrev TaskStep.Answer : TaskStep → Type
  | .request q => q.Answer
  | .wait _ => Unit

abbrev TaskStep.interface : Interface := ⟨TaskStep, TaskStep.Answer⟩

/-- An operation that may wait. -/
abbrev Task (α : Type) : Type := Dialogue TaskStep.interface α

namespace Task

/-- An operation without waiting as part of a task. -/
def act {α : Type} (a : Action α) : Task α :=
  a.through fun q => Dialogue.question (I := TaskStep.interface) (.request q)

def wait (w : Wait) : Task Unit := Dialogue.question (I := TaskStep.interface) (.wait w)

end Task

inductive WorkStep where
  | progress (percent : Int)
  | setResult (payload : Json)
  | setFailed (message : String) (detail : Option String)
  /-- A result without a JSON form. -/
  | setUnserializable (reason : String)
  | awaitSignal
  | sleep (milliseconds : Nat)

/-- How the work of a job ends. -/
inductive WorkEnd where
  | value (payload : Json)
  | unserializable (reason : String)
  /-- With an error, worded for a user and for a developer. -/
  | error (message debug : String)
  /-- In a panic, with its text if it has one. -/
  | panic (text : Option String)

/-- The end of work that fails with an error of the job lifecycle. -/
def WorkEnd.ofError (e : JobError) : WorkEnd := .error e.message e.debugText

inductive Work where
  | steps (steps : List WorkStep) (ending : WorkEnd)
  /-- Work that panics while it is being set up. -/
  | unfounded

namespace WorkStep

def perform (c : JobContext) : WorkStep → Task (Except JobError Unit)
  | .progress percent => Task.act (c.reportProgress percent)
  | .setResult payload => Task.act (c.setResult payload)
  | .setFailed message detail => Task.act (c.setFailed message detail)
  | .setUnserializable reason => Task.act (JobContext.setUnserializable reason)
  | .awaitSignal => do
    Task.wait (.signal c.number)
    return .ok ()
  | .sleep ms => do
    Task.wait (.time ms)
    return .ok ()

/-- Steps carried out in order up to the first error, which is then the end. -/
def performAll (c : JobContext) (ending : WorkEnd) : List WorkStep → Task WorkEnd
  | [] => return ending
  | s :: ss => do
    match ← s.perform c with
    | .ok () => performAll c ending ss
    | .error e => return .ofError e

end WorkStep

namespace Work

/-- What is recorded of work that ended, unless it recorded an outcome itself. -/
def outcome (completed : Bool) : WorkEnd → Option JobRecord.Mark
  | .panic text => some (.failed "job panicked" text)
  | .value payload => if completed then none else some (.succeeded payload)
  | .unserializable reason =>
    if completed then none else some (.failed (Malformation.unserializable reason).text none)
  | .error message debug => if completed then none else some (.failed message (some debug))

/-- Record the outcome of work that ended, and stop tracking the job. -/
def settle (m : Manager) (c : JobContext) (ending : WorkEnd) : Action Unit := do
  match outcome (← Action.isCompleted c.number) ending with
  | some mark =>
    let _ ← c.finish mark
    let _ ← m.completeTracking c.job
  | none =>
    let _ ← m.completeTracking c.job

/-- The task that carries out work and records its outcome. The work has a turn of its own: the task waits
for it to begin and for its end to be noticed. -/
def task (m : Manager) (c : JobContext) : Work → Task Unit
  | .steps todo ending => do
    Task.wait .turn
    let ending ← WorkStep.performAll c ending todo
    Task.wait .turn
    Task.act (settle m c ending)
  | .unfounded => return ()

/-- The number of times that the task may wait. -/
def turns : Work → Nat
  | .steps todo _ => todo.length + 2
  | .unfounded => 0

end Work

end JobLedger
