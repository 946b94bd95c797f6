import JobLedger.Lifecycle.Host
import JobLedger.Lifecycle.Sweep
import JobLedger.Lifecycle.Work
import JobLedger.Store.Memory

/-!
# Interleavings

Any number of operations of managers, contexts, sweepers and tasks on one store in memory. Each operation is
begun at some time and then asks its requests one at a time, in any order with those of the others. The clock
may show anything at any time, and any call of the store may fail.

A run is determined by the list of its moves, so a statement on all lists of moves is one on all
interleavings of all lengths.
-/
namespace JobLedger

inductive Operation where
  | create (m : Manager) (id : JobId) (request : NewJob)
  | getStatus (id : JobId)
  | statusView (m : Manager) (id : JobId)
  | list (query : ListQuery)
  | cancel (m : Manager) (id : JobId)
  | completeTracking (m : Manager) (id : JobId)
  | sweep (m : Manager) (now : Instant)
  | reportProgress (c : JobContext) (percent : Int)
  | setResult (c : JobContext) (payload : Json)
  | setFailed (c : JobContext) (message : String) (detail : Option String)
  | setUnserializable (c : JobContext) (reason : String)
  /-- Carry out the work of a job and record its outcome. -/
  | spawn (m : Manager) (c : JobContext) (work : Work)

namespace Operation

abbrev Result : Operation → Type
  | .create _ _ _ => Except JobError (JobRecord × JobContext)
  | .getStatus _ | .cancel _ _ => Except JobError JobRecord
  | .statusView _ _ => Except JobError JobStatusView
  | .list _ => Except JobError (List JobRecord)
  | .completeTracking _ _ => Bool
  | .sweep _ _ => Except StoreError SweepReport
  | .reportProgress _ _ | .setResult _ _ | .setFailed _ _ _ | .setUnserializable _ _ => Except JobError Unit
  | .spawn _ _ _ => Unit

def task : (o : Operation) → Task o.Result
  | .create m id request => Task.act (m.create id request)
  | .getStatus id => Task.act (Manager.getStatus id)
  | .statusView m id => Task.act (m.statusView id)
  | .list query => Task.act (Manager.list query)
  | .cancel m id => Task.act (m.cancel id)
  | .completeTracking m id => Task.act (m.completeTracking id)
  | .sweep m now => Task.act (m.sweepOnce now)
  | .reportProgress c percent => Task.act (c.reportProgress percent)
  | .setResult c payload => Task.act (c.setResult payload)
  | .setFailed c message detail => Task.act (c.setFailed message detail)
  | .setUnserializable _ reason => Task.act (JobContext.setUnserializable reason)
  | .spawn m c work => work.task m c

/-- The context through which an operation works. -/
def context? : Operation → Option JobContext
  | .reportProgress c _ | .setResult c _ | .setFailed c _ _ | .setUnserializable c _ | .spawn _ c _ => some c
  | _ => none

end Operation

/-- A failure of the store itself. -/
inductive StoreFailure where
  | unavailable (cause : Outage)
  | malformed (cause : Malformation)

def StoreFailure.error : StoreFailure → StoreError
  | .unavailable cause => .unavailable cause
  | .malformed cause => .serialization cause

def StoreError.isFailure : StoreError → Bool
  | .unavailable _ | .serialization _ => true
  | _ => false

@[simp] theorem StoreFailure.isFailure_error (f : StoreFailure) : f.error.isFailure = true := by
  cases f <;> rfl

/-- A request of an operation, with its answer. The operation is told by the number of its process. -/
structure Event where
  process : Nat
  operation : Operation
  request : Request
  answer : request.Answer

namespace Event

/-- The record that a call put into the store. -/
def written? : Event → Option JobRecord
  | ⟨_, _, .store (.create _), .ok r⟩ => some r
  | ⟨_, _, .store (.update _), .ok r⟩ => some r
  | _ => none

/-- The record that a call put into the store for a new job. -/
def created? : Event → Option JobRecord
  | ⟨_, _, .store (.create _), .ok r⟩ => some r
  | _ => none

/-- The record that ended a job. -/
def ending? (e : Event) : Option JobRecord := e.written?.filter JobRecord.isTerminal

/-- The context made for a job, with the manager that tracks it. -/
def opened? : Event → Option (Nat × JobContext)
  | ⟨_, _, .track m id, n⟩ => some (m, ⟨n, id⟩)
  | _ => none

def isFailure : Event → Bool
  | ⟨_, _, .store _, .error e⟩ => e.isFailure
  | _ => false

end Event

/-- A process and what happened in it so far. -/
structure Scene where
  host : Host Memory
  log : List Event

namespace Scene

def stored (s : Scene) (id : JobId) : Option JobRecord := s.host.store.records.get? id

/-- The answer to a request, or to a call of the store that fails. -/
def answer (f? : Option StoreFailure) (q : Request) (h : Host Memory) : q.Answer × Host Memory :=
  match q, f? with
  | .store _, some f => (.error f.error, h)
  | q, _ => h.answer Memory.store q

/-- The answer to a request of an operation, and the scene after it. -/
def ask (f? : Option StoreFailure) (i : Nat) (o : Operation) (q : Request) (s : Scene) : q.Answer × Scene :=
  ((answer f? q s.host).1, ⟨(answer f? q s.host).2, s.log ++ [⟨i, o, q, (answer f? q s.host).1⟩]⟩)

/-- Whether what an operation waits for has come. The time for it comes at any time. -/
def isOver (s : Scene) : Wait → Bool
  | .signal context => s.host.isCancelled context
  | .turn | .time _ => true

end Scene

/-- An operation under way, with what is left of it. -/
structure Process where
  operation : Operation
  rest : Task operation.Result

/-- Whether a process has created the job of a context and answered with the context. -/
def Process.yields (c : JobContext) : Process → Bool
  | ⟨.create _ _ _, .done (.ok (_, d))⟩ => d == c
  | _ => false

/-- A scene with the operations under way in it. Each keeps its number. -/
structure World extends Scene where
  processes : List Process

/-- What may happen next in a world. -/
inductive Move where
  /-- The clock shows another time. -/
  | tick (now : Instant)
  /-- An operation begins. One that works through a context is possible once the context was handed out. -/
  | begin (o : Operation)
  /-- A process asks its next request, or its wait is over. -/
  | step (process : Nat)
  /-- The same, but the store fails if it is called. -/
  | fail (process : Nat) (f : StoreFailure)

namespace World

/-- The world of a time and a store, with nothing under way. -/
def start (now : Instant) (memory : Memory) : World := ⟨⟨{ clock := now, store := memory }, []⟩, []⟩

/-- Whether an operation may begin. -/
def allows (w : World) (o : Operation) : Bool :=
  o.context?.all fun c => w.processes.any (Process.yields c)

def advance (f? : Option StoreFailure) (i : Nat) (w : World) : World :=
  match w.processes[i]? with
  | some ⟨o, .ask (.request q) k⟩ =>
    ⟨(w.ask f? i o q).2, w.processes.set i ⟨o, k (w.ask f? i o q).1⟩⟩
  | some ⟨o, .ask (.wait x) k⟩ =>
    if w.isOver x then { w with processes := w.processes.set i ⟨o, k ()⟩ } else w
  | _ => w

/-- The world after a move. One that is not possible changes nothing. -/
def move (w : World) : Move → World
  | .tick now => { w with host := { w.host with clock := now } }
  | .begin o => if w.allows o then { w with processes := w.processes ++ [⟨o, o.task⟩] } else w
  | .step i => w.advance none i
  | .fail i f => w.advance (some f) i

def run (w : World) (moves : List Move) : World := moves.foldl move w

@[simp] theorem run_nil (w : World) : w.run [] = w := rfl

@[simp] theorem run_cons (w : World) (x : Move) (xs : List Move) : w.run (x :: xs) = (w.move x).run xs := rfl

theorem run_append (w : World) (xs ys : List Move) : w.run (xs ++ ys) = (w.run xs).run ys :=
  List.foldl_append

theorem advance_request (f? : Option StoreFailure) {w : World} {i : Nat} {o : Operation} {q : Request}
    {k : q.Answer → Task o.Result} (h : w.processes[i]? = some ⟨o, .ask (.request q) k⟩) :
    w.advance f? i = ⟨(w.ask f? i o q).2, w.processes.set i ⟨o, k (w.ask f? i o q).1⟩⟩ := by
  simp only [advance, h]

/-- The worlds that the runs from a store reach. -/
def Reachable (m₀ : Memory) (w : World) : Prop := ∃ now moves, w = (start now m₀).run moves

/-- What holds at first and is kept by every move holds after every run. -/
theorem run_induction {P : World → Prop} {w : World} (h : P w) (hm : ∀ w x, P w → P (w.move x))
    (moves : List Move) : P (w.run moves) := by
  induction moves generalizing w with
  | nil => exact h
  | cons x xs ih => exact ih (hm w x h)

end World

end JobLedger
