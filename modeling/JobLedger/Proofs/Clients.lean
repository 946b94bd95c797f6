import JobLedger.Proofs.Interleaving
import JobLedger.Redis.Store

/-!
# Clients of a key-value server

Any number of operations whose calls of the store are exchanges with one key-value server. Each operation is
begun at some time and then takes its steps and sends its commands one at a time, in any order with those of
the others, so that also the commands of one call may lie apart. The clock may show anything at any time.

As with interleavings over a memory, a run is determined by the list of its moves.
-/
namespace JobLedger.Redis

/-- What a client asks: a step within its process, or a command for the server. -/
inductive ClientStep where
  | step (q : TaskStep)
  | command (c : Command)

namespace ClientStep

abbrev Answer : ClientStep → Type
  | .step q => q.Answer
  | .command c => c.Answer

abbrev interface : Interface := ⟨ClientStep, Answer⟩

def take (q : TaskStep) : Dialogue interface q.Answer := Dialogue.question (I := interface) (.step q)

def send (c : Command) : Dialogue interface c.Answer := Dialogue.question (I := interface) (.command c)

/-- A step of a task. A call of the store is carried out on the server, with the time at its start. -/
def ofTask (s : Settings) : (q : TaskStep) → Dialogue interface q.Answer
  | .request (.store c) => do
    let now ← take (.request .clock)
    (Exchange.ofCall s now c).through send
  | q => take q

end ClientStep

/-- An operation under way, with what is left of it. -/
structure Client where
  operation : Operation
  rest : Dialogue ClientStep.interface operation.Result

def Client.start (s : Settings) (o : Operation) : Client := ⟨o, o.task.through (ClientStep.ofTask s)⟩

/-- A command that a client sent, with the time of its answer. The client is told by its number. -/
structure Sent where
  client : Nat
  operation : Operation
  time : Instant
  command : Command
  answer : command.Answer

/-- Whether the command did not fail. -/
def Sent.isOk (e : Sent) : Bool := e.answer.isOk

/-- Whether the command put a record in the place of an open one. -/
def Sent.hasReplaced : Sent → Bool
  | ⟨_, _, _, .replaceOpen _ _ _, .ok word⟩ => word == "OK"
  | _ => false

/-- A process with its server, what was sent to it so far and the operations under way. Each keeps its number. -/
structure Network where
  host : Host Server
  log : List Sent
  clients : List Client

namespace Network

/-- No command failed. -/
def NoneFailed (w : Network) : Prop := ∀ e ∈ w.log, e.isOk = true

/-- What may happen next. -/
inductive Move where
  /-- The clock shows another time. -/
  | tick (now : Instant)
  | begin (o : Operation)
  /-- A client takes its next step or sends its next command, or its wait is over. -/
  | step (client : Nat)

/-- The network of a time and a server, with nothing under way. -/
def start (now : Instant) (x : Server) : Network := ⟨{ clock := now, store := x }, [], []⟩

/-- Whether what a client waits for has come. The time for it comes at any time. -/
def isOver (w : Network) : Wait → Bool
  | .signal context => w.host.isCancelled context
  | .turn | .time _ => true

/-- The answer of the server to a command, and the network with it. -/
def send (w : Network) (i : Nat) (o : Operation) (c : Command) : c.Answer × Network :=
  let (a, x) := Server.answer w.host.clock.millis c w.host.store
  (a, { w with host := { w.host with store := x }, log := w.log ++ [⟨i, o, w.host.clock, c, a⟩] })

def advance (s : Settings) (i : Nat) (w : Network) : Network :=
  match w.clients[i]? with
  | some ⟨o, .ask (.step (.request q)) k⟩ =>
    let (a, h) := w.host.answer (store s) q
    { w with host := h, clients := w.clients.set i ⟨o, k a⟩ }
  | some ⟨o, .ask (.step (.wait x)) k⟩ =>
    if w.isOver x then { w with clients := w.clients.set i ⟨o, k ()⟩ } else w
  | some ⟨o, .ask (.command c) k⟩ =>
    let (a, v) := w.send i o c
    { v with clients := v.clients.set i ⟨o, k a⟩ }
  | _ => w

/-- The network after a move. One that is not possible changes nothing. -/
def move (s : Settings) (w : Network) : Move → Network
  | .tick now => { w with host := { w.host with clock := now } }
  | .begin o => { w with clients := w.clients ++ [Client.start s o] }
  | .step i => w.advance s i

def run (s : Settings) (w : Network) (moves : List Move) : Network := moves.foldl (move s) w

/-- What a move does to a network. -/
inductive Moved (s : Settings) (w : Network) : Network → Prop where
  | stay : Moved s w w
  | tick (now : Instant) : Moved s w { w with host := { w.host with clock := now } }
  | begin (o : Operation) : Moved s w { w with clients := w.clients ++ [Client.start s o] }
  | request {i : Nat} {o : Operation} {q : Request} {k : q.Answer → Dialogue ClientStep.interface o.Result}
    (h : w.clients[i]? = some ⟨o, .ask (.step (.request q)) k⟩) :
    Moved s w { w with
      host := (w.host.answer (store s) q).2, clients := w.clients.set i ⟨o, k (w.host.answer (store s) q).1⟩ }
  | wake {i : Nat} {o : Operation} {x : Wait} {k : Unit → Dialogue ClientStep.interface o.Result}
    (h : w.clients[i]? = some ⟨o, .ask (.step (.wait x)) k⟩) :
    Moved s w { w with clients := w.clients.set i ⟨o, k ()⟩ }
  | command {i : Nat} {o : Operation} {c : Command} {k : c.Answer → Dialogue ClientStep.interface o.Result}
    (h : w.clients[i]? = some ⟨o, .ask (.command c) k⟩) :
    Moved s w { (w.send i o c).2 with clients := w.clients.set i ⟨o, k (w.send i o c).1⟩ }

variable {s : Settings}

theorem moved_advance (i : Nat) (w : Network) : Moved s w (w.advance s i) := by
  unfold advance
  split
  · rename_i o q k h
    exact .request h
  · rename_i o x k h
    split
    · exact .wake h
    · exact .stay
  · rename_i o c k h
    exact .command h
  · exact .stay

@[simp] theorem run_nil (w : Network) : w.run s [] = w := rfl

@[simp] theorem run_cons (w : Network) (x : Move) (xs : List Move) : w.run s (x :: xs) = (w.move s x).run s xs := rfl

theorem run_append (w : Network) (xs ys : List Move) : w.run s (xs ++ ys) = (w.run s xs).run s ys :=
  List.foldl_append

end Network

end JobLedger.Redis
