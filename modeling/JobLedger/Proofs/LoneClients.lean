import JobLedger.Proofs.Clients
import JobLedger.Proofs.RecordMarks
import JobLedger.Proofs.RedisCalls

/-!
# Clients that nothing interrupts

A client whose steps follow each other at one time does what its operation does when a process performs it at
once, and what it sends can be told from the operation and the process before.
-/
namespace JobLedger.Redis

variable {α : Type}

/-- What is sent for an exchange that nothing interrupts. -/
def Exchange.sent (client : Nat) (o : Operation) (now : Instant) : Exchange α → Server → List Sent
  | .done _, _ => []
  | .ask c k, x =>
    let (a, y) := Server.answer now.millis c x
    ⟨client, o, now, c, a⟩ :: sent client o now (k a) y

/-- What is sent for a request that nothing interrupts. -/
def sentForRequest (s : Settings) (client : Nat) (o : Operation) (h : Host Server) : Request → List Sent
  | .store c => (Exchange.ofCall s h.clock c).sent client o h.clock h.store
  | _ => []

/-- What is sent for an operation without waiting that nothing interrupts. -/
def sentFor (s : Settings) (client : Nat) (o : Operation) : Action α → Host Server → List Sent
  | .done _, _ => []
  | .ask q k, h =>
    sentForRequest s client o h q ++ sentFor s client o (k (h.answer (store s) q).1) (h.answer (store s) q).2

section
variable {s : Settings} {i : Nat} {o : Operation} {now : Instant} {x y : Server}

private theorem Exchange.sent_ask {c : Command} {k : c.Answer → Exchange α} {a : c.Answer}
    (ha : Server.answer now.millis c x = (a, y)) :
    Exchange.sent i o now (.ask c k) x = ⟨i, o, now, c, a⟩ :: (k a).sent i o now y := by
  rw [sent, ha]

theorem sentFor_ask {q : Request} {k : q.Answer → Action α} {a : q.Answer} {h h' : Host Server}
    (ha : h.answer (store s) q = (a, h')) :
    sentFor s i o (.ask q k) h = sentForRequest s i o h q ++ sentFor s i o (k a) h' := by
  rw [sentFor, ha]

/-- A lookup with an answer was one command that did not fail. -/
theorem sent_get {id : JobId} {found : Option JobRecord} (hp : (store s).perform now (.get id) x = (.ok found, y)) :
    ∃ e, (Exchange.ofCall s now (.get id)).sent i o now x = [e] ∧ e.isOk = true := by
  obtain ⟨b, z, ha, -⟩ := Exchange.run_send (fun _ => rfl) hp (answered_of_isOk rfl)
  refine ⟨⟨i, o, now, _, .ok b⟩, (Exchange.sent_ask ha).trans ?_, rfl⟩
  cases b <;> rfl

/-- An accepted update was one command that put a record in the place of an open one. -/
theorem sent_update {r r' : JobRecord} (hp : (store s).perform now (.update r) x = (.ok r', y)) :
    ∃ e, (Exchange.ofCall s now (.update r)).sent i o now x = [e] ∧ e.isOk = true ∧ e.hasReplaced = true ∧
      e.operation = o ∧ e.time = now := by
  obtain ⟨word, z, ha, hreplaced⟩ := Exchange.run_send (fun _ => rfl) hp (answered_of_isOk rfl)
  have hword : Exchange.replaced (r.stamped now) word = .ok r' := congrArg Prod.fst hreplaced
  have hok : word = "OK" := by
    rw [Exchange.replaced] at hword
    split at hword
    · assumption
    split at hword
    · cases hword
    split at hword <;> cases hword
  subst hok
  exact ⟨_, Exchange.sent_ask ha, rfl, rfl, rfl, rfl⟩

end

namespace Network

variable {s : Settings} {w : Network} {i : Nat} {o : Operation} {h : Host Server} {log : List Sent}

/-- A client is about to go on with a dialogue. -/
structure Turn (w : Network) (i : Nat) (o : Operation) (d : Dialogue ClientStep.interface o.Result) (h : Host Server)
    (log : List Sent) : Prop where
  client : w.clients[i]? = some ⟨o, d⟩
  host : w.host = h
  log : w.log = log

theorem Turn.request {q : Request} {k : q.Answer → Dialogue ClientStep.interface o.Result}
    (hw : w.Turn i o (.ask (.step (.request q)) k) h log) :
    (w.advance s i).Turn i o (k (h.answer (store s) q).1) (h.answer (store s) q).2 log := by
  obtain ⟨hclient, rfl, rfl⟩ := hw
  have hlt := (List.getElem?_eq_some_iff.1 hclient).1
  simp only [advance, hclient]
  exact ⟨List.getElem?_set_self hlt, rfl, rfl⟩

theorem Turn.command {c : Command} {k : c.Answer → Dialogue ClientStep.interface o.Result} {a : c.Answer} {y : Server}
    (hw : w.Turn i o (.ask (.command c) k) h log) (ha : Server.answer h.clock.millis c h.store = (a, y)) :
    (w.advance s i).Turn i o (k a) { h with store := y } (log ++ [⟨i, o, h.clock, c, a⟩]) := by
  obtain ⟨hclient, rfl, rfl⟩ := hw
  have hlt := (List.getElem?_eq_some_iff.1 hclient).1
  simp only [advance, hclient, send, ha]
  exact ⟨List.getElem?_set_self hlt, rfl, rfl⟩

private theorem Turn.exchange {e : Exchange α} {f : α → Dialogue ClientStep.interface o.Result}
    (hw : w.Turn i o (e.through ClientStep.send >>= f) h log) :
    ∃ n, (w.run s (.replicate n (.step i))).Turn i o (f (e.run (Server.answer h.clock.millis) h.store).1)
      { h with store := (e.run (Server.answer h.clock.millis) h.store).2 } (log ++ e.sent i o h.clock h.store) := by
  induction e generalizing w h log with
  | done a =>
    refine ⟨0, ?_⟩
    rw [Exchange.sent, List.append_nil]
    exact hw
  | ask c k ih =>
    obtain ⟨n, hn⟩ := ih _ (hw.command (s := s) rfl)
    refine ⟨n + 1, ?_⟩
    rw [List.append_assoc] at hn
    exact hn

/-- A client goes through an operation as a process does that performs it at once. -/
private theorem Turn.action {a : Action α} {f : α → Dialogue ClientStep.interface o.Result}
    (hw : w.Turn i o ((Task.act a).through (ClientStep.ofTask s) >>= f) h log) :
    ∃ n, (w.run s (.replicate n (.step i))).Turn i o (f (h.perform (store s) a).1) (h.perform (store s) a).2
      (log ++ sentFor s i o a h) := by
  induction a generalizing w h log with
  | done a =>
    refine ⟨0, ?_⟩
    rw [sentFor, List.append_nil]
    exact hw
  | ask q k ih =>
    cases q with
    | store c =>
      have hcall : (w.advance s i).Turn i o (((Exchange.ofCall s h.clock c).through ClientStep.send >>= fun a =>
        (Task.act (k a)).through (ClientStep.ofTask s)) >>= f) h log := hw.request (q := .clock)
      rw [Dialogue.bind_assoc] at hcall
      obtain ⟨n, hn⟩ := hcall.exchange (s := s)
      obtain ⟨m, hm⟩ := ih _ hn
      refine ⟨n + m + 1, ?_⟩
      rw [List.append_assoc, ← run_append, List.replicate_append_replicate] at hm
      exact hm
    | _ =>
      obtain ⟨n, hn⟩ := ih _ (hw.request (s := s))
      exact ⟨n + 1, hn⟩

/-- An operation that is begun and goes on without interruption is performed at once. -/
theorem run_alone (s : Settings) (w : Network) {o : Operation} {a : Action o.Result} (ho : o.task = Task.act a) :
    ∃ n, (w.run s (.begin o :: .replicate n (.step w.clients.length))).Turn w.clients.length o
      (.done (w.host.perform (store s) a).1) (w.host.perform (store s) a).2
      (w.log ++ sentFor s w.clients.length o a w.host) := by
  have hbegun : (w.move s (.begin o)).Turn w.clients.length o
      ((Task.act a).through (ClientStep.ofTask s) >>= fun a => .done a) w.host w.log := by
    refine ⟨?_, rfl, rfl⟩
    rw [Dialogue.bind_pure, ← ho]
    simp [move, Client.start]
  exact hbegun.action

end Network

end JobLedger.Redis
