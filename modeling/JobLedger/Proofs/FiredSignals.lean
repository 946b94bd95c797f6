import JobLedger.Proofs.Signals

/-!
# Why a signal has fired

A cancellation fires the signal of the job before it writes, a sweep fires it after it wrote. So a signal that
has fired tells of a job that has ended, or of a cancellation whose write is still to come or has failed.
-/
namespace JobLedger

/-- The process that a move lets go on. -/
def Move.process? : Move → Option Nat
  | .step i | .fail i _ => some i
  | .tick _ | .begin _ => none

namespace World

variable {m₀ : Memory} {w : World} {k : Nat} {c : JobContext}

theorem Reachable.run (hw : w.Reachable m₀) (moves : List Move) : (w.run moves).Reachable m₀ := by
  obtain ⟨now, earlier, rfl⟩ := hw
  exact ⟨now, earlier ++ moves, (run_append _ _ _).symm⟩

/-- A process that goes on adds nothing to the log but its request. -/
private theorem log_advance (f? : Option StoreFailure) (i : Nat) (w : World) : (w.advance f? i).log = w.log ∨
    ∃ o q k, w.processes[i]? = some ⟨o, .ask (.request q) k⟩ ∧
      (w.advance f? i).log = w.log ++ [w.event f? i o q] := by
  unfold advance
  split
  · rename_i o q next h
    exact .inr ⟨o, q, next, h, rfl⟩
  · split <;> exact .inl rfl
  · exact .inl rfl

private theorem log_move (w : World) (x : Move) : (w.move x).log = w.log ∨ ∃ f? i o q k, x.process? = some i ∧
    w.processes[i]? = some ⟨o, .ask (.request q) k⟩ ∧ (w.move x).log = w.log ++ [w.event f? i o q] := by
  cases x with
  | tick now => exact .inl rfl
  | begin o =>
    rw [move]
    split <;> exact .inl rfl
  | step i =>
    rcases log_advance none i w with hlog | ⟨o, q, k, h⟩
    · exact .inl hlog
    · exact .inr ⟨none, i, o, q, k, rfl, h⟩
  | fail i f =>
    rcases log_advance (some f) i w with hlog | ⟨o, q, k, h⟩
    · exact .inl hlog
    · exact .inr ⟨some f, i, o, q, k, rfl, h⟩

/-- A cancellation of the job on the manager has fired the signal, and the answer to its update is still to come
or was a failure of the store. -/
def Aborting (k : Nat) (id : JobId) (w : World) : Prop :=
  ∃ i g d, w.processes[i]? = some ⟨.cancel g id, d⟩ ∧ g.number = k ∧ HasFired k id (w.own i) ∧
    ((∃ x next, d = .ask x next) ∨ ∃ f : StoreFailure, d = .done (.error f.error.toJobError))

/-- Each signal that fired was fired by an operation that fires such. -/
theorem Keeps.fires (hk : w.Keeps signalling) {e : Event} (he : e ∈ w.log) {k : Nat} {id : JobId}
    (hf : e.fired? = some (k, id)) : ∃ d, w.processes[e.process]? = some ⟨e.operation, d⟩ ∧
      HasFired k id (w.own e.process) ∧ e.operation.Fires k id (w.own e.process) := by
  obtain ⟨d, hd, past, later, hown, hq⟩ := hk.asked e he
  have hfires := MaySignal.fires hq k id (Event.request_of_fired? hf)
  exact ⟨d, hd, ⟨e, Scene.mem_own.mpr ⟨he, rfl⟩, hf⟩, hown ▸ Operation.Fires.append hfires _⟩

theorem HasTimedOut.stored (hl : w.Ledger m₀) {i : Nat} {id : JobId} (h : HasTimedOut id (w.own i)) :
    ∃ r, w.stored id = some r ∧ r.isTerminal = true ∧ r.state = .timedOut := by
  obtain ⟨e, he, r, hr, rfl, hstate⟩ := h
  obtain ⟨hstored, hterm⟩ := hl.stored_of_mem_endingsOf (List.mem_filterMap.mpr ⟨e, he, hr⟩)
  exact ⟨r, hstored, hterm, hstate⟩

/-- A cancellation that has fired its signal is not answered yet, or has failed in the store, or agrees with the
record of the ended job. -/
theorem Sound.of_cancel_fired (h : w.Sound m₀) (hk : w.Keeps signalling) {i k : Nat} {g : Manager} {id : JobId}
    {d : Task (Except JobError JobRecord)} (hi : w.processes[i]? = some ⟨.cancel g id, d⟩)
    (hf : HasFired k id (w.own i)) : (∃ x next, d = .ask x next) ∨
      (∃ f : StoreFailure, d = .done (.error f.error.toJobError)) ∨ ∃ r, w.stored id = some r ∧
        r.isTerminal = true ∧
          (d = .done (.ok r) ∧ r.state = .cancelled ∨ d = .done (.error (.conflict id r.state))) := by
  cases d with
  | ask x next => exact .inl ⟨x, next, rfl⟩
  | done a =>
    have hanswered : w.Cancelled id a := h.answered hi
    cases a with
    | ok r =>
      obtain ⟨hr, hstate⟩ := hanswered
      exact .inr (.inr ⟨r, hr, by rw [JobRecord.isTerminal, hstate]; rfl, .inl ⟨rfl, hstate⟩⟩)
    | error e =>
      rcases hk.ends hi with hquiet | ⟨job, state, rfl⟩ | ⟨f, rfl⟩
      · obtain ⟨e', he', hfired⟩ := hf
        cases (hquiet e' he').symm.trans hfired
      · obtain ⟨rfl, r, hr, hterm, rfl⟩ := hanswered
        exact .inr (.inr ⟨r, hr, hterm, .inr rfl⟩)
      · exact .inr (.inl ⟨f, rfl⟩)

/-- Once a signal fired for a job, the job has ended, or is being aborted. -/
private theorem Sound.hasEnded_or_aborting (h : w.Sound m₀) (hk : w.Keeps signalling) {k : Nat} {id : JobId}
    (hf : HasFired k id w.log) : w.HasEnded id ∨ w.Aborting k id := by
  obtain ⟨⟨i, o, q, a⟩, he, hfired⟩ := hf
  obtain ⟨d, hi, hown, hfires⟩ := hk.fires he hfired
  cases o with
  | sweep g now =>
    obtain ⟨r, hr, hterm, -⟩ := HasTimedOut.stored h.ledger hfires.2
    exact .inl ⟨r, hr, hterm⟩
  | cancel g job =>
    obtain ⟨hg, rfl⟩ := hfires
    rcases h.of_cancel_fired hk hi hown with hask | hfailed | ⟨r, hr, hterm, -⟩
    · exact .inr ⟨i, g, d, hi, hg, hown, .inl hask⟩
    · exact .inr ⟨i, g, d, hi, hg, hown, .inr hfailed⟩
    · exact .inl ⟨r, hr, hterm⟩
  | _ => exact hfires.elim

/-- The context that a creation answers with was made for its manager. -/
theorem Keeps.hasMade (hk : w.Keeps signalling) {m : Manager} {id : JobId} {request : NewJob} {r : JobRecord}
    (hc : ⟨.create m id request, .done (.ok (r, c))⟩ ∈ w.processes) : HasMade m.number c w.log := by
  obtain ⟨i, hi⟩ := List.getElem?_of_mem hc
  obtain ⟨e, he, ho⟩ := hk.ends hi
  exact ⟨e, (Scene.mem_own.mp he).1, ho⟩

/-- In every interleaving, once the signal of a context has fired, its job has ended or a cancellation of the job
on the manager of the context is being carried out or has failed in the store. Only a cancellation of the job and
a sweep that has timed the job out fire the signal, on this manager. It never goes back. -/
theorem fired_signal_is_justified (hm : m₀.Keyed) (hw : w.Reachable m₀) {m : Manager} {id : JobId}
    {request : NewJob} {r : JobRecord} (hc : ⟨.create m id request, .done (.ok (r, c))⟩ ∈ w.processes) :
    (w.host.isCancelled c.number = true → w.HasEnded c.job ∨ w.Aborting m.number c.job) ∧
    (∀ x, w.host.isCancelled c.number = false → (w.move x).host.isCancelled c.number = true →
      ∃ i o d, x.process? = some i ∧ w.processes[i]? = some ⟨o, d⟩ ∧ o.Fires m.number c.job (w.own i)) ∧
    (w.host.isCancelled c.number = true → ∀ moves, (w.run moves).host.isCancelled c.number = true) := by
  have h := hw.sound hm
  have hk := hw.keeps signalling_isKept hm
  have hmade := hk.hasMade hc
  have hfired := (hw.signals hm).isCancelled_iff h.handles hmade
  have hlater : ∀ moves, (w.run moves).host.isCancelled c.number = true ↔
      HasFired m.number c.job (w.run moves).log := by
    intro moves
    have hmade' : HasMade m.number c (w.run moves).log := by
      obtain ⟨e, he, ho⟩ := hmade
      exact ⟨e, (h.evolves_run moves).mem_log he, ho⟩
    exact ((hw.run moves).signals hm).isCancelled_iff (h.run moves).handles hmade'
  refine ⟨fun hn => h.hasEnded_or_aborting hk (hfired.mp hn), ?_, ?_⟩
  · intro x hn hx
    have hx' := (hlater [x]).mp hx
    have hnot : ¬HasFired m.number c.job w.log := fun hf => by simp [hfired.mpr hf] at hn
    rcases log_move w x with hlog | ⟨f?, i, o, q, next, hi, hp, hlog⟩
    · exact absurd (hlog ▸ hx') hnot
    · rw [run_cons, run_nil, hlog, hasFired_concat] at hx'
      have hq : q = .signal m.number c.job := Event.request_of_fired? (hx'.resolve_left hnot)
      exact ⟨i, o, _, hi, hp, (hk.mayAsk hp).fires _ _ hq⟩
  · intro hn moves
    obtain ⟨e, he, hf⟩ := hfired.mp hn
    exact (hlater moves).mpr ⟨e, (h.evolves_run moves).mem_log he, hf⟩

/-- A cancellation between the signal and its update. -/
def sampleAbort : World := sample.run [.begin (.cancel sampleManager ⟨1⟩), .step 1, .step 1]

theorem sample_abort_is_justified :
    sampleAbort.Aborting 0 ⟨1⟩ ∧ ∀ moves, (sampleAbort.run moves).host.isCancelled 0 = true := by
  have hw : sampleAbort.Reachable .empty := sample_reachable _
  have hc : ⟨.create sampleManager ⟨1⟩ ⟨"n", 60, none, none⟩, .done (.ok (sampleRecord, sampleContext))⟩ ∈
      sampleAbort.processes := List.mem_of_getElem? (i := 0) rfl
  obtain ⟨hwhy, -, hstays⟩ := fired_signal_is_justified Memory.empty_keyed hw hc
  refine ⟨(hwhy rfl).resolve_left ?_, hstays rfl⟩
  rintro ⟨r, hr, hterm⟩
  obtain rfl := Option.some.inj (show some sampleRecord = some r from hr)
  cases hterm

end World

end JobLedger
