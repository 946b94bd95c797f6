import JobLedger.Proofs.FiredSignals

/-!
# Signals that come too early

A job can be found in the store before its context is tracked. Who cancels it or times it out in between finds no
signal to fire, and the context that the creation then answers with knows nothing of it. Whoever comes later
reaches the context as long as it is tracked.
-/
namespace JobLedger

/-- The process searched for the signal of the context before the context was made. -/
def Missed (i k : Nat) (c : JobContext) (log : List Event) : Prop :=
  ∃ before e after, log = before ++ e :: after ∧ e.process = i ∧ e.request = .signal k c.job ∧ ¬HasMade k c before

namespace World

variable {m₀ : Memory} {w : World} {c : JobContext}

/-- A search for the signal of a context that is still tracked found it, or was too early. -/
private theorem isCancelled_or_missed (hs : w.Signals) (hh : w.Handles) {i k : Nat} (hc : HasMade k c w.log)
    (hu : ¬HasUntracked k c.job w.log) (h : HasSignalled k c.job (w.own i)) :
    w.host.isCancelled c.number = true ∨ Missed i k c w.log := by
  obtain ⟨e, he, hq⟩ := h
  obtain ⟨hlog, hi⟩ := Scene.mem_own.mp he
  obtain ⟨before, after, hsplit⟩ := List.append_of_mem hlog
  by_cases hmade : HasMade k c before
  · have hnot : ¬HasUntracked k c.job before := by
      rintro ⟨d, hd, hdq⟩
      exact hu ⟨d, hsplit ▸ List.mem_append_left _ hd, hdq⟩
    exact .inl ((hs.isCancelled_iff hh hc).mpr ⟨e, hlog, hs.heard hsplit hq hmade hnot⟩)
  · exact .inr ⟨before, e, after, hsplit, hi, hq, hmade⟩

/-- In every interleaving, once a creation has answered with a context that was not untracked since, the signal has
fired if its manager has cancelled the job, or timed it out in a sweep that went on, unless the cancellation or the
sweep searched for the signal before the creation had made the context. -/
theorem signal_reaches_tracked_context (hm : m₀.Keyed) (hw : w.Reachable m₀) {m : Manager} {id : JobId}
    {request : NewJob} {r : JobRecord} (hc : ⟨.create m id request, .done (.ok (r, c))⟩ ∈ w.processes)
    (hu : ¬HasUntracked m.number c.job w.log) :
    (∀ i g r', g.number = m.number → w.processes[i]? = some ⟨.cancel g c.job, .done (.ok r')⟩ →
      w.host.isCancelled c.number = true ∨ Missed i m.number c w.log) ∧
    ∀ i g now d, g.number = m.number → w.processes[i]? = some ⟨.sweep g now, d⟩ →
      (∃ x ∈ w.endingsOf i, x.id = c.job) →
      ((∃ report, d = .done report) ∨ ∃ q next, d = .ask (.request q) next ∧ q ≠ .signal g.number c.job) →
        w.host.isCancelled c.number = true ∨ Missed i m.number c w.log := by
  have hk := hw.keeps signalling_isKept hm
  have hreach : ∀ {i g}, g = m.number → HasSignalled g c.job (w.own i) →
      w.host.isCancelled c.number = true ∨ Missed i m.number c w.log := by
    rintro i _ rfl h
    exact isCancelled_or_missed (hw.signals hm) (hw.sound hm).handles (hk.hasMade hc) hu h
  constructor
  · intro i g r' hg hi
    exact hreach hg (hk.ends hi)
  · rintro i g now d hg hi ⟨x, hx, hjob⟩ hd
    obtain ⟨e, he, hend⟩ := List.mem_filterMap.mp hx
    apply hreach hg
    rcases hd with ⟨report, rfl⟩ | ⟨q, next, rfl, hq⟩
    · exact hjob ▸ hk.ends hi e he x hend
    · have hsweeps := (hk.mayAsk hi).sweeps g now rfl e he x hend
      rw [hjob] at hsweeps
      exact hsweeps.resolve_right hq

/-- A job that was cancelled after its creation, in the usual order. -/
def sampleCancelled : World :=
  sample.run [.begin (.cancel sampleManager ⟨1⟩), .step 1, .step 1, .step 1, .step 1]

theorem sample_signal_reaches : sampleCancelled.host.isCancelled 0 = true ∨
    Missed 1 0 sampleContext sampleCancelled.log := by
  have hnot : ¬HasUntracked 0 ⟨1⟩ sampleCancelled.log := not_hasUntracked rfl
  have hc : ⟨.create sampleManager ⟨1⟩ ⟨"n", 60, none, none⟩, .done (.ok (sampleRecord, sampleContext))⟩ ∈
      sampleCancelled.processes := List.mem_of_getElem? (i := 0) rfl
  exact (signal_reaches_tracked_context Memory.empty_keyed (sample_reachable _) hc hnot).1 1 sampleManager
    (sampleRecord.marked .epoch .cancelled) rfl rfl

/-- A creation, and a cancellation that comes when the record is stored and the context is not yet tracked. -/
def sampleEarlyCancel : World :=
  (start .epoch .empty).run
    [.begin (.create sampleManager ⟨1⟩ ⟨"n", 60, none, none⟩), .step 0, .step 0,
      .begin (.cancel sampleManager ⟨1⟩), .step 1, .step 1, .step 1, .step 1, .step 0]

/-- Not every cancellation is heard, even if no call fails and the job is tracked ever after. -/
theorem early_cancel_is_not_heard :
    ¬∀ w : World, w.Reachable .empty → (∀ e ∈ w.log, e.isFailure = false) →
      ∀ m id request r c r', ⟨.create m id request, .done (.ok (r, c))⟩ ∈ w.processes →
        ¬HasUntracked m.number c.job w.log → ⟨.cancel m c.job, .done (.ok r')⟩ ∈ w.processes →
          w.host.isCancelled c.number = true := by
  intro h
  have hfailures : sampleEarlyCancel.log.any Event.isFailure = false := rfl
  have hfired := h sampleEarlyCancel ⟨.epoch, _, rfl⟩
    (fun e he => by simpa using List.any_eq_false.mp hfailures e he)
    sampleManager ⟨1⟩ ⟨"n", 60, none, none⟩ sampleRecord sampleContext (sampleRecord.marked .epoch .cancelled)
    (List.mem_of_getElem? (i := 0) rfl) (not_hasUntracked rfl) (List.mem_of_getElem? (i := 1) rfl)
  cases hfired

end World

end JobLedger
