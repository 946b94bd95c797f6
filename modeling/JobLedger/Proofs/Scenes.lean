import JobLedger.Proofs.Interleaving
import JobLedger.Proofs.RecordMarks

/-!
# Scenes as they go on

What one request does to the stored records, and how a later scene is related to an earlier one: no record is
lost, an ended one stays as it is, the log is continued, and a record differs only if the log tells of a
write to it.
-/
namespace JobLedger

open JobRecord

namespace Event

theorem written?_of_created? {e : Event} {r : JobRecord} (h : e.created? = some r) :
    e.written? = some r := by
  unfold created? at h
  split at h
  · exact h
  · cases h

theorem ending?_eq_some {e : Event} {r : JobRecord} :
    e.ending? = some r ↔ e.written? = some r ∧ r.isTerminal = true :=
  Option.filter_eq_some_iff

theorem ending?_of_written?_none {e : Event} (h : e.written? = none) : e.ending? = none := by
  simp [ending?, h]

theorem ending?_of_written?_open {e : Event} {r : JobRecord} (h : e.written? = some r)
    (hr : r.isTerminal = false) : e.ending? = none := by
  simp [ending?, h, hr]

end Event

namespace Scene

variable {s t u : Scene} {f? : Option StoreFailure} {i : Nat} {o : Operation} {q : Request}

/-- The entry of the log that a request leaves. -/
def event (f? : Option StoreFailure) (i : Nat) (o : Operation) (q : Request) (s : Scene) : Event :=
  ⟨i, o, q, (s.ask f? i o q).1⟩

@[simp] theorem ask_log : (s.ask f? i o q).2.log = s.log ++ [s.event f? i o q] := rfl

/-- What a request does to the stored records, told together with the entry that it leaves. -/
inductive Records (q : Request) (e : Event) (s t : Scene) : Prop where
  | nothing (he : e.written? = none) (ht : t.host.store = s.host.store)
  | created (r : JobRecord) (hq : q = .store (.create r)) (he : e.created? = some r)
      (hs : s.stored r.id = none) (ht : t.host.store = ⟨s.host.store.records.insert r.id r⟩)
  | updated (r old : JobRecord) (now : Instant) (hq : q = .store (.update r)) (hc : e.created? = none)
      (he : e.written? = some (r.stamped now)) (hs : s.stored r.id = some old)
      (ho : old.isTerminal = false)
      (ht : t.host.store = ⟨s.host.store.records.insert (r.stamped now).id (r.stamped now)⟩)

private theorem ask_create (r : JobRecord) (hs : s.stored r.id = none) :
    s.ask none i o (.store (.create r)) = (.ok r, ⟨{ s.host with
      store := ⟨s.host.store.records.insert r.id r⟩ }, s.log ++ [⟨i, o, .store (.create r), .ok r⟩]⟩) := by
  have hc : s.host.store.records.contains r.id = false := by
    simpa [Table.contains, stored] using hs
  simp [ask, answer, Host.answer, Memory.store, Memory.create, hc]

private theorem ask_create_of_stored (r : JobRecord) {old : JobRecord} (hs : s.stored r.id = some old) :
    s.ask none i o (.store (.create r)) = (.error (.duplicateId r.id), ⟨s.host, s.log ++
      [⟨i, o, .store (.create r), .error (.duplicateId r.id)⟩]⟩) := by
  have hc : s.host.store.records.contains r.id = true := by
    simp [Table.contains, show s.host.store.records.get? r.id = some old from hs]
  simp [ask, answer, Host.answer, Memory.store, Memory.create, hc]

theorem ask_update {r old : JobRecord} (hs : s.stored r.id = some old) (ho : old.isTerminal = false) :
    s.ask none i o (.store (.update r)) = (.ok (r.stamped s.host.clock), ⟨{ s.host with
      store := ⟨s.host.store.records.insert r.id (r.stamped s.host.clock)⟩ }, s.log ++
        [⟨i, o, .store (.update r), .ok (r.stamped s.host.clock)⟩]⟩) := by
  have hg : s.host.store.records.get? r.id = some old := hs
  simp [ask, answer, Host.answer, Memory.store, Memory.update, hg, ho, stamped]

theorem ask_update_of_terminal {r old : JobRecord} (hs : s.stored r.id = some old)
    (ho : old.isTerminal = true) :
    s.ask none i o (.store (.update r)) = (.error (.alreadyTerminal r.id old.state), ⟨s.host, s.log ++
      [⟨i, o, .store (.update r), .error (.alreadyTerminal r.id old.state)⟩]⟩) := by
  have hg : s.host.store.records.get? r.id = some old := hs
  simp [ask, answer, Host.answer, Memory.store, Memory.update, hg, ho]

private theorem ask_update_of_unknown {r : JobRecord} (hs : s.stored r.id = none) :
    s.ask none i o (.store (.update r)) = (.error (.notFound r.id), ⟨s.host, s.log ++
      [⟨i, o, .store (.update r), .error (.notFound r.id)⟩]⟩) := by
  have hg : s.host.store.records.get? r.id = none := hs
  simp [ask, answer, Host.answer, Memory.store, Memory.update, hg]

theorem ask_fail (f : StoreFailure) (c : StoreCall) :
    s.ask (some f) i o (.store c) = (.error f.error, ⟨s.host, s.log ++
      [⟨i, o, .store c, .error f.error⟩]⟩) := rfl

private theorem written?_fail (f : StoreFailure) (c : StoreCall) :
    Event.written? ⟨i, o, .store c, .error f.error⟩ = none := by
  cases c <;> rfl

theorem stored_congr (h : t.host.store = s.host.store) (id : JobId) : t.stored id = s.stored id := by
  rw [stored, stored, h]

theorem stored_insert {r : JobRecord} (h : t.host.store = ⟨s.host.store.records.insert r.id r⟩) (id : JobId) :
    t.stored id = if id = r.id then some r else s.stored id := by
  rw [stored, h]
  exact Table.get?_insert s.host.store.records r.id id r

/-- Each request is one of the three. -/
theorem records (f? : Option StoreFailure) (i : Nat) (o : Operation) (q : Request) (s : Scene) :
    Records q (s.event f? i o q) s (s.ask f? i o q).2 := by
  cases q with
  | store c =>
    cases f? with
    | some f => exact .nothing (written?_fail f c) rfl
    | none =>
      cases c with
      | create r =>
        cases hs : s.stored r.id with
        | none =>
          have ha := ask_create (i := i) (o := o) r hs
          refine .created r rfl ?_ hs ?_
          · rw [event, ha]; rfl
          · rw [ha]
        | some old =>
          have ha := ask_create_of_stored (i := i) (o := o) r hs
          refine .nothing ?_ ?_
          · rw [event, ha]; rfl
          · rw [ha]
      | update r =>
        cases hs : s.stored r.id with
        | none =>
          have ha := ask_update_of_unknown (i := i) (o := o) hs
          refine .nothing ?_ ?_
          · rw [event, ha]; rfl
          · rw [ha]
        | some old =>
          cases ho : old.isTerminal with
          | true =>
            have ha := ask_update_of_terminal (i := i) (o := o) hs ho
            refine .nothing ?_ ?_
            · rw [event, ha]; rfl
            · rw [ha]
          | false =>
            have ha := ask_update (i := i) (o := o) hs ho
            refine .updated r old s.host.clock rfl ?_ ?_ hs ho ?_
            · rw [event, ha]; rfl
            · rw [event, ha]; rfl
            · rw [ha]; rfl
      | get id => exact .nothing rfl rfl
      | findExpired now => exact .nothing rfl rfl
      | list query => exact .nothing rfl rfl
  | clock => exact .nothing rfl rfl
  | track m id => exact .nothing rfl rfl
  | signal m id =>
    refine .nothing rfl ?_
    simp only [ask, answer, Host.answer]
    split
    · unfold Host.fire; split <;> rfl
    · rfl
  | untrack m id => exact .nothing rfl rfl
  | isCompleted n => exact .nothing rfl rfl
  | complete n =>
    refine .nothing rfl ?_
    simp only [ask, answer, Host.answer]
    split <;> rfl

/-- The context was made by a creation. -/
def HasOpened (s : Scene) (c : JobContext) : Prop := ∃ e ∈ s.log, ∃ m, e.opened? = some (m, c)

/-- The job has ended. -/
def HasEnded (s : Scene) (id : JobId) : Prop := ∃ r, s.stored id = some r ∧ r.isTerminal = true

/-- What a process did. -/
def own (s : Scene) (i : Nat) : List Event := s.log.filter fun e => e.process == i

/-- The records that ended jobs, in order. -/
def endings (s : Scene) : List JobRecord := s.log.filterMap Event.ending?

/-- The records by which a process ended jobs, in order. -/
def endingsOf (s : Scene) (i : Nat) : List JobRecord := (s.own i).filterMap Event.ending?

/-- A call of a process failed. -/
def HasFailed (s : Scene) (i : Nat) : Prop := ∃ e ∈ s.own i, e.isFailure = true

theorem mem_own {e : Event} : e ∈ s.own i ↔ e ∈ s.log ∧ e.process = i := by
  simp [own, List.mem_filter]

@[simp] theorem own_ask : (s.ask f? i o q).2.own i = s.own i ++ [s.event f? i o q] := by
  simp [own, event, List.filter_append]

theorem own_ask_of_ne {j : Nat} (h : j ≠ i) : (s.ask f? i o q).2.own j = s.own j := by
  have hne : ((s.event f? i o q).process == j) = false := by
    simpa [event] using fun he : i = j => h he.symm
  simp [own, List.filter_append, hne]

/-- A later scene: every record is still there with the same origin, ended ones unchanged; the log is
continued and tells of each write; a job whose context was made is tracked only if it was. -/
structure Evolves (s t : Scene) : Prop where
  kept : ∀ {id r}, s.stored id = some r →
    ∃ r', t.stored id = some r' ∧ r'.origin = r.origin ∧ (r.isTerminal = true → r' = r)
  logged : ∃ es, t.log = s.log ++ es ∧
    ∀ id, (∀ e ∈ es, ∀ r, e.written? = some r → r.id ≠ id) → t.stored id = s.stored id
  untracked : ∀ {m c}, s.HasOpened c → s.host.isTracked m c.job = false →
    t.host.isTracked m c.job = false

theorem Evolves.refl (s : Scene) : Evolves s s :=
  ⟨fun h => ⟨_, h, rfl, fun _ => rfl⟩, ⟨[], by simp, fun _ _ => rfl⟩, fun _ h => h⟩

theorem Evolves.mem_log (h : Evolves s t) {e : Event} (he : e ∈ s.log) : e ∈ t.log := by
  obtain ⟨es, hes, -⟩ := h.logged
  rw [hes]
  exact List.mem_append_left _ he

theorem Evolves.hasOpened (h : Evolves s t) {c : JobContext} (hc : s.HasOpened c) : t.HasOpened c := by
  obtain ⟨e, he, hm⟩ := hc
  exact ⟨e, h.mem_log he, hm⟩

theorem Evolves.trans (h : Evolves s t) (h' : Evolves t u) : Evolves s u := by
  constructor
  case kept =>
    intro id r hr
    obtain ⟨r', hr', ho', ht'⟩ := h.kept hr
    obtain ⟨r'', hr'', ho'', ht''⟩ := h'.kept hr'
    refine ⟨r'', hr'', ho''.trans ho', ?_⟩
    intro ht
    obtain rfl := ht' ht
    exact ht'' ht
  case logged =>
    obtain ⟨es, hes, hw⟩ := h.logged
    obtain ⟨es', hes', hw'⟩ := h'.logged
    refine ⟨es ++ es', by rw [hes', hes, List.append_assoc], ?_⟩
    intro id hid
    rw [hw' id fun e he => hid e (List.mem_append_right _ he),
      hw id fun e he => hid e (List.mem_append_left _ he)]
  case untracked =>
    intro m c hc hm
    exact h'.untracked (h.hasOpened hc) (h.untracked hc hm)

/-- An ended record stays as it is. -/
theorem Evolves.stored_of_terminal (h : Evolves s t) {id : JobId} {r : JobRecord}
    (hr : s.stored id = some r) (ht : r.isTerminal = true) : t.stored id = some r := by
  obtain ⟨r', hr', -, he⟩ := h.kept hr
  rw [hr', he ht]

theorem Evolves.stored_of_none (h : Evolves s t) {id : JobId} (ht : t.stored id = none) : s.stored id = none := by
  cases hs : s.stored id with
  | none => rfl
  | some r =>
    obtain ⟨r', hr', -⟩ := h.kept hs
    rw [ht] at hr'
    cases hr'

theorem Evolves.hasEnded (h : Evolves s t) {id : JobId} (hs : s.HasEnded id) : t.HasEnded id := by
  obtain ⟨r, hr, ht⟩ := hs
  exact ⟨r, h.stored_of_terminal hr ht, ht⟩

/-- A scene that differs in the clock, the signals or the log of harmless requests only. -/
theorem Evolves.of_store_eq {es : List Event} (hs : t.host.store = s.host.store)
    (hl : t.log = s.log ++ es)
    (ht : ∀ {m c}, s.HasOpened c → s.host.isTracked m c.job = false → t.host.isTracked m c.job = false) :
    Evolves s t := by
  have heq := stored_congr hs
  constructor
  case kept =>
    intro id r hr
    exact ⟨r, (heq id).trans hr, rfl, fun _ => rfl⟩
  case logged => exact ⟨es, hl, fun id _ => heq id⟩
  case untracked => exact ht

end Scene

end JobLedger
