import JobLedger.Proofs.Contracts
import JobLedger.Proofs.RecordMarks
import JobLedger.Redis.Store

/-!
# Traffic on a shared server

Any number of clients that call stores on one key-value server, each store with settings of its own. A client has one
call under way at a time and sends the commands of it one by one, in any order with those of the others; a store with
several calls under way counts as several clients. The clock may show anything at any time, and any command may fail.

As with other interleavings, a run is determined by the list of its moves.
-/
namespace JobLedger.Redis

/-- A call of a store that is under way, with what is left of it. -/
structure Pending where
  call : StoreCall
  rest : Exchange call.Answer

/-- A command that a client sent for a call, with the time and its answer. -/
structure Message where
  client : Nat
  call : StoreCall
  time : Instant
  command : Command
  answer : command.Answer

/-- A call that a client made, with its answer. -/
structure Reply where
  client : Nat
  call : StoreCall
  answer : call.Answer

/-- A server with the calls that are under way, the commands that it has answered and the calls that have been. -/
structure Traffic where
  clock : Instant
  server : Server
  pending : Table Nat Pending := .empty
  messages : List Message := []
  replies : List Reply := []

namespace Traffic

/-- What may happen next. -/
inductive Move where
  /-- The clock shows another time. -/
  | tick (now : Instant)
  /-- A client begins a call, if it has none under way. -/
  | call (client : Nat) (c : StoreCall)
  /-- A client sends its next command, for which some failures wait. -/
  | command (client : Nat) (faults : List Fault)

/-- The traffic of a time and a server, with nothing under way. -/
def start (now : Instant) (x : Server) : Traffic := { clock := now, server := x }

/-- A client goes on with what is left of a call, or has its answer. -/
def proceed (t : Traffic) (i : Nat) (c : StoreCall) : Exchange c.Answer → Traffic
  | .done a => { t with pending := t.pending.erase i, replies := t.replies ++ [⟨i, c, a⟩] }
  | .ask q k => { t with pending := t.pending.insert i ⟨c, .ask q k⟩ }

/-- The answer of the server to a command, and the traffic with it. -/
def send (t : Traffic) (i : Nat) (c : StoreCall) (q : Command) (faults : List Fault) : q.Answer × Traffic :=
  let (a, y) := Server.answer t.clock.millis q { t.server with faults := faults }
  (a, { t with server := y, messages := t.messages ++ [⟨i, c, t.clock, q, a⟩] })

/-- The traffic after a move. One that is not possible changes nothing. -/
def move (settings : Nat → Settings) (t : Traffic) : Move → Traffic
  | .tick now => { t with clock := now }
  | .call i c => if t.pending.contains i then t else t.proceed i c (Exchange.ofCall (settings i) t.clock c)
  | .command i faults =>
    match t.pending.get? i with
    | some ⟨c, .ask q k⟩ =>
      let (a, u) := t.send i c q faults
      u.proceed i c (k a)
    | _ => t

def run (settings : Nat → Settings) (t : Traffic) (moves : List Move) : Traffic := moves.foldl (move settings) t

variable {settings : Nat → Settings} {t u : Traffic}

@[simp] theorem run_nil (t : Traffic) : t.run settings [] = t := rfl

@[simp] theorem run_cons (t : Traffic) (x : Move) (xs : List Move) :
    t.run settings (x :: xs) = (t.move settings x).run settings xs := rfl

theorem run_append (t : Traffic) (xs ys : List Move) :
    t.run settings (xs ++ ys) = (t.run settings xs).run settings ys := List.foldl_append

section
variable (t : Traffic) (i : Nat) (c : StoreCall) (d : Exchange c.Answer)

@[simp] theorem proceed_clock : (t.proceed i c d).clock = t.clock := by cases d <;> rfl

@[simp] theorem proceed_server : (t.proceed i c d).server = t.server := by cases d <;> rfl

@[simp] theorem proceed_messages : (t.proceed i c d).messages = t.messages := by cases d <;> rfl

theorem proceed_pending_of_ne {j : Nat} (h : j ≠ i) : (t.proceed i c d).pending.get? j = t.pending.get? j := by
  cases d with
  | done a => exact (Table.get?_erase _ _ _).trans (if_neg h)
  | ask q k => exact (Table.get?_insert _ _ _ _).trans (if_neg h)

/-- What a client then has under way does not depend on the others. -/
theorem proceed_pending_self (u : Traffic) :
    (t.proceed i c d).pending.get? i = (u.proceed i c d).pending.get? i := by
  cases d with
  | done a =>
    exact ((Table.get?_erase t.pending i i).trans (if_pos rfl)).trans
      ((Table.get?_erase u.pending i i).trans (if_pos rfl)).symm
  | ask q k =>
    exact ((Table.get?_insert t.pending i i _).trans (if_pos rfl)).trans
      ((Table.get?_insert u.pending i i _).trans (if_pos rfl)).symm

/-- A client has at most what is left of its call under way. -/
private theorem eq_of_proceed_pending {p : Pending} (h : (t.proceed i c d).pending.get? i = some p) : p = ⟨c, d⟩ := by
  cases d with
  | done a =>
    rw [show (t.proceed i c (.done a)).pending = t.pending.erase i from rfl, Table.get?_erase, if_pos rfl] at h
    cases h
  | ask q k =>
    rw [show (t.proceed i c (.ask q k)).pending = t.pending.insert i ⟨c, .ask q k⟩ from rfl, Table.get?_insert,
      if_pos rfl] at h
    exact (Option.some.inj h).symm

end

/-- A client sends its next command. -/
theorem move_command (settings : Nat → Settings) {i : Nat} {c : StoreCall} {q : Command}
    {k : q.Answer → Exchange c.Answer} (h : t.pending.get? i = some ⟨c, .ask q k⟩) (faults : List Fault) :
    t.move settings (.command i faults) = (t.send i c q faults).2.proceed i c (k (t.send i c q faults).1) := by
  rw [move, h]

theorem messages_move_command (settings : Nat → Settings) {i : Nat} {c : StoreCall} {q : Command}
    {k : q.Answer → Exchange c.Answer} (h : t.pending.get? i = some ⟨c, .ask q k⟩) (faults : List Fault) :
    ∃ a, (t.move settings (.command i faults)).messages = t.messages ++ [⟨i, c, t.clock, q, a⟩] :=
  ⟨_, by rw [move_command settings h, proceed_messages]; rfl⟩

/-- What a move does to traffic. -/
inductive Moved (settings : Nat → Settings) (t : Traffic) : Traffic → Prop where
  | stay : Moved settings t t
  | tick (now : Instant) : Moved settings t { t with clock := now }
  | call {i : Nat} (c : StoreCall) (h : t.pending.get? i = none) :
    Moved settings t (t.proceed i c (Exchange.ofCall (settings i) t.clock c))
  | command {i : Nat} {c : StoreCall} {q : Command} {k : q.Answer → Exchange c.Answer} {faults : List Fault}
    (h : t.pending.get? i = some ⟨c, .ask q k⟩) {a : q.Answer} {y : Server}
    (ha : Server.answer t.clock.millis q { t.server with faults := faults } = (a, y)) :
    Moved settings t
      (proceed { t with server := y, messages := t.messages ++ [⟨i, c, t.clock, q, a⟩] } i c (k a))

theorem moved_move (settings : Nat → Settings) (t : Traffic) (x : Move) : Moved settings t (t.move settings x) := by
  cases x with
  | tick now => exact .tick now
  | call i c =>
    simp only [move]
    split
    · exact .stay
    · rename_i h
      exact .call c (Option.not_isSome_iff_eq_none.1 h)
  | command i faults =>
    simp only [move]
    split
    · exact .command ‹_› rfl
    · exact .stay

/-- What every move keeps holds after every run. -/
theorem run_induction {P : Traffic → Prop} (h : P t) (hm : ∀ u v, P u → Moved settings u v → P v)
    (moves : List Move) : P (t.run settings moves) := by
  induction moves generalizing t with
  | nil => exact h
  | cons x xs ih => exact ih (hm t _ h (moved_move settings t x))

/-- The messages so far stay, in their order. -/
theorem Moved.messages (h : Moved settings t u) : ∃ sent, u.messages = t.messages ++ sent := by
  cases h with
  | stay => exact ⟨[], (List.append_nil _).symm⟩
  | tick now => exact ⟨[], (List.append_nil _).symm⟩
  | call c hi => exact ⟨[], by simp⟩
  | command hi ha => exact ⟨_, proceed_messages _ _ _ _⟩

theorem messages_run (settings : Nat → Settings) (t : Traffic) (moves : List Move) :
    ∃ sent, (t.run settings moves).messages = t.messages ++ sent := by
  induction moves generalizing t with
  | nil => exact ⟨[], (List.append_nil _).symm⟩
  | cons x xs ih =>
    obtain ⟨first, hfirst⟩ := (moved_move settings t x).messages
    obtain ⟨rest, hrest⟩ := ih (t.move settings x)
    exact ⟨first ++ rest, by rw [run_cons, hrest, hfirst, List.append_assoc]⟩

end Traffic

/-! ## The terms of a call -/

/-- The commands that a call of a store may send. The texts that an index names have a property. -/
def Command.terms (s : Settings) (Item : String → Prop) (c : StoreCall) : Contract Command.interface where
  MayAsk
    | .get key => ∃ id : JobId, key = s.recordKey id.text
    | .getMany keys => ∃ items : List String, keys = items.map s.recordKey ∧ ∀ item ∈ items, Item item
    | .range key => key = s.indexKey
    | .setNew key value seconds =>
      ∃ r, c = .create r ∧ key = s.recordKey r.id.text ∧ value = r.encode ∧ seconds = s.secondsFor r.state
    | .enlist key item _ _ => key = s.indexKey ∧ Item item
    | .replaceOpen key value seconds => ∃ r now, c = .update r ∧ key = s.recordKey r.id.text ∧
      value = (r.stamped now).encode ∧ seconds = s.secondsFor r.state
  Answers
    | .range _, a => ∀ items, a = .ok items → ∀ item ∈ items, Item item
    | _, _ => True

section
variable {s : Settings} {Item : String → Prop} {now : Instant}

private theorem terms_indexed (c : StoreCall) :
    (Exchange.indexed s).Honours (Command.terms s Item c) fun _ => True := by
  refine ⟨rfl, fun a ha => ?_⟩
  rcases a with e | _ | ⟨item, items⟩
  · exact trivial
  · exact trivial
  · refine ⟨⟨item :: items, rfl, ha _ rfl⟩, fun b _ => ?_⟩
    cases b <;> exact trivial

/-- Every call keeps to its terms. -/
private theorem terms_ofCall (hItem : ∀ id : JobId, Item id.text) (c : StoreCall) :
    (Exchange.ofCall s now c).Honours (Command.terms s Item c) fun _ => True := by
  cases c with
  | create r =>
    refine ⟨⟨r, rfl, rfl, rfl, rfl⟩, fun a _ => ?_⟩
    rcases a with e | _ | _
    · exact trivial
    · exact trivial
    · refine ⟨⟨rfl, hItem r.id⟩, fun b _ => ?_⟩
      cases b <;> exact trivial
  | get id =>
    refine ⟨⟨id, rfl⟩, fun a _ => ?_⟩
    rcases a with e | _ | value <;> exact trivial
  | update r =>
    refine ⟨⟨r, now, rfl, rfl, rfl, rfl⟩, fun a _ => ?_⟩
    cases a <;> exact trivial
  | findExpired t => exact Dialogue.Honours.bind ((terms_indexed _).mono fun _ _ => trivial)
  | list q => exact Dialogue.Honours.bind ((terms_indexed _).mono fun _ _ => trivial)

end

namespace Traffic

variable {settings : Nat → Settings} {Item : String → Prop} {t u : Traffic}

/-- What is left of each call keeps to the terms of the call. -/
def KeepsTerms (settings : Nat → Settings) (Item : String → Prop) (t : Traffic) : Prop :=
  ∀ i p, t.pending.get? i = some p → p.rest.Honours (Command.terms (settings i) Item p.call) fun _ => True

theorem keepsTerms_start (now : Instant) (x : Server) : (start now x).KeepsTerms settings Item := by
  intro i p hp
  cases hp

theorem KeepsTerms.proceed (h : t.KeepsTerms settings Item) {i : Nat} {c : StoreCall} {d : Exchange c.Answer}
    (hd : d.Honours (Command.terms (settings i) Item c) fun _ => True) :
    (t.proceed i c d).KeepsTerms settings Item := by
  intro j p hp
  by_cases hj : j = i
  · subst hj
    rw [eq_of_proceed_pending t j c d hp]
    exact hd
  · rw [proceed_pending_of_ne t i c d hj] at hp
    exact h j p hp

/-- A command that is sent is within the terms of its call. -/
theorem KeepsTerms.mayAsk (h : t.KeepsTerms settings Item) {i : Nat} {c : StoreCall} {q : Command}
    {k : q.Answer → Exchange c.Answer} (hi : t.pending.get? i = some ⟨c, .ask q k⟩) :
    (Command.terms (settings i) Item c).MayAsk q := (h i _ hi).1

/-- The calls keep to their terms as long as the index names only texts with the property. -/
theorem KeepsTerms.moved (h : t.KeepsTerms settings Item) (hItem : ∀ id : JobId, Item id.text)
    (hanswer : ∀ i c q a y faults, (Command.terms (settings i) Item c).MayAsk q →
      Server.answer t.clock.millis q { t.server with faults := faults } = (a, y) →
      (Command.terms (settings i) Item c).Answers q a)
    (hu : Moved settings t u) : u.KeepsTerms settings Item := by
  cases hu with
  | stay => exact h
  | tick now => exact h
  | call c hi => exact h.proceed (terms_ofCall hItem c)
  | @command i c q k faults hi a y ha =>
    have hsent : KeepsTerms settings Item
        { t with server := y, messages := t.messages ++ [⟨i, c, t.clock, q, a⟩] } := h
    exact hsent.proceed ((h i _ hi).2 a (hanswer i c q a y faults (h.mayAsk hi) ha))

end Traffic

end JobLedger.Redis
