import JobLedger.Proofs.Succession
import JobLedger.Proofs.Undisturbed

/-!
# Agreement on the outcome

However cancellations, completions and sweeps race for a job, one of them ends it, and every answer agrees with
this one for ever after.
-/
namespace JobLedger.World

variable {m₀ : Memory} {w : World}

/-- What has been answered in a world, against the stored records from then on. -/
structure Agreement (w : World) : Prop where
  /-- At most one write that ends a job is accepted. -/
  endedOnce : (w.endings.map JobRecord.id).Nodup
  cancelled : ∀ m id r, ⟨.cancel m id, .done (.ok r)⟩ ∈ w.processes → ∀ moves, (w.run moves).stored id = some r
  conflict : ∀ m id id' state, ⟨.cancel m id, .done (.error (.conflict id' state))⟩ ∈ w.processes →
    id' = id ∧ ∃ r, r.isTerminal = true ∧ r.state = state ∧ ∀ moves, (w.run moves).stored id = some r
  timedOut : ∀ i m now report, w.processes[i]? = some ⟨.sweep m now, .done (.ok report)⟩ →
    (w.endingsOf i).length = report.timedOut ∧ ((w.endingsOf i).map JobRecord.id).Nodup ∧
      ∀ r ∈ w.endingsOf i, r.state = .timedOut ∧ ∀ moves, (w.run moves).stored r.id = some r
  /-- No job is ended, and so none is counted, by two processes. -/
  apart : ∀ i j, ∀ r ∈ w.endingsOf i, ∀ r' ∈ w.endingsOf j, r.id = r'.id → i = j
  completed : ∀ c, w.processes.any (Process.yields c) = true → w.host.isCompleted c.number = true →
    ∃ r, r.isTerminal = true ∧ ∀ moves, (w.run moves).stored c.job = some r
  /-- A cancellation about to read the record is decided by it, unless a call fails or it is interrupted. -/
  undisturbed : ∀ i m id, w.processes[i]? = some ⟨.cancel m id, (Operation.cancel m id).task⟩ →
    ∀ moves a, (w.run (.step i :: moves)).processes[i]? = some ⟨.cancel m id, .done a⟩ →
      ¬(w.run (.step i :: moves)).HasFailed i → ¬Interrupted i id (w.run (.step i :: moves)).log →
        (a = .error (.notFound id) ↔ w.stored id = none) ∧
        (∀ state, a = .error (.conflict id state) ↔
          ∃ r, w.stored id = some r ∧ r.isTerminal = true ∧ r.state = state) ∧
        ((∃ r, a = .ok r) ↔ ∃ r, w.stored id = some r ∧ r.isTerminal = false)

private theorem decided_iff {id : JobId} {x : Option JobRecord} {a : Except JobError JobRecord}
    (h : Scene.Decided id x a) : (a = .error (.notFound id) ↔ x = none) ∧
      (∀ state, a = .error (.conflict id state) ↔ ∃ r, x = some r ∧ r.isTerminal = true ∧ r.state = state) ∧
      ((∃ r, a = .ok r) ↔ ∃ r, x = some r ∧ r.isTerminal = false) := by
  cases x with
  | none =>
    obtain rfl : a = .error (.notFound id) := h
    simp
  | some r =>
    simp only [Scene.Decided] at h
    cases hr : r.isTerminal with
    | true =>
      rw [if_pos hr] at h
      subst h
      simp [hr]
    | false =>
      rw [if_neg (by simp [hr])] at h
      obtain ⟨r', rfl⟩ := h
      simp [hr]

private theorem Sound.undisturbed (h : w.Sound m₀) {i : Nat} {m : Manager} {id : JobId}
    (hp : w.processes[i]? = some ⟨.cancel m id, (Operation.cancel m id).task⟩) (moves : List Move)
    {a : Except JobError JobRecord} (ha : (w.run (.step i :: moves)).processes[i]? = some ⟨.cancel m id, .done a⟩) :
    (w.run (.step i :: moves)).HasFailed i ∨ Interrupted i id (w.run (.step i :: moves)).log ∨
      Scene.Decided id (w.stored id) a := by
  rw [Scene.cancel_task_eq] at hp
  have hv := h.moved (moved_move w (.step i))
  have hmove : w.move (.step i) = _ := advance_request none hp
  have hlt : i < w.processes.length := (List.getElem?_eq_some_iff.mp hp).1
  have hi : (w.move (.step i)).processes[i]? =
      some ⟨.cancel m id, Task.act (Scene.cancelFrom m id (w.stored id))⟩ := by
    rw [hmove]
    exact List.getElem?_set_self hlt
  have hown : (w.move (.step i)).own i ≠ [] := by
    rw [hmove]
    simp
  have hstored : (w.move (.step i)).stored id = w.stored id := by
    rw [hmove]
    rfl
  have hrest := Scene.secures_act (Scene.cancelFrom_secures (hv.lawful i (.cancel m id)) hown hstored)
  obtain ⟨d, hd, hsec⟩ := hv.secures_run hi hrest moves
  obtain rfl : d = .done a := eq_of_heq (Process.mk.inj (Option.some.inj (hd.symm.trans ha))).2
  exact hsec.result ((hv.run moves).lawful i (.cancel m id))

/-- In every interleaving the answers agree with the stored records. -/
theorem answers_agree (hm : m₀.Keyed) (hw : w.Reachable m₀) : w.Agreement := by
  have h := hw.sound hm
  constructor
  case endedOnce => exact h.ledger.endedOnce
  case cancelled =>
    intro m id r hp moves
    obtain ⟨i, hi⟩ := List.getElem?_of_mem hp
    obtain ⟨hr, hs⟩ := h.answered hi
    exact h.stored_run_of_terminal moves hr (by simp [JobRecord.isTerminal, hs, JobState.isTerminal])
  case conflict =>
    intro m id id' state hp
    obtain ⟨i, hi⟩ := List.getElem?_of_mem hp
    obtain ⟨hid, r, hr, ht, hs⟩ := h.answered hi
    exact ⟨hid, r, ht, hs, fun moves => h.stored_run_of_terminal moves hr ht⟩
  case timedOut =>
    intro i m now report hi
    obtain ⟨hlen, hstate⟩ := h.answered hi report rfl
    refine ⟨hlen, h.ledger.nodup_endingsOf i, ?_⟩
    intro r hr
    obtain ⟨hs, ht⟩ := h.ledger.stored_of_mem_endingsOf hr
    exact ⟨hstate r hr, fun moves => h.stored_run_of_terminal moves hs ht⟩
  case apart =>
    intro i j r hr r' hr' hid
    obtain ⟨e, he, her⟩ := List.mem_filterMap.mp hr
    obtain ⟨e', he', her'⟩ := List.mem_filterMap.mp hr'
    obtain ⟨hl, rfl⟩ := Scene.mem_own.mp he
    obtain ⟨hl', rfl⟩ := Scene.mem_own.mp he'
    rw [h.ledger.eq_of_ending hl hl' her her' hid]
  case completed =>
    intro c hc hdone
    have hopened := h.hasOpened_of_yields hc
    obtain ⟨r, hr, ht⟩ := h.handles.hasEnded_of_completed hopened (List.contains_iff_mem.mp hdone)
    exact ⟨r, ht, fun moves => h.stored_run_of_terminal moves hr ht⟩
  case undisturbed =>
    intro i m id hp moves a ha hf hd
    exact decided_iff (((h.undisturbed hp moves ha).resolve_left hf).resolve_left hd)

/-- A cancellation that a result overtook answers with the state that the result left. -/
theorem overtaken_cancellation_agrees :
    ∃ r, r.state = .succeeded ∧ ((sample.run [.begin (.cancel sampleManager ⟨1⟩), .step 1, .step 1, .step 1,
      .begin (.setResult sampleContext .null), .step 2, .step 2, .step 2, .step 1]).run
        [.begin (.cancel sampleManager ⟨1⟩), .step 3]).stored ⟨1⟩ = some r := by
  have hw := sample_reachable [.begin (.cancel sampleManager ⟨1⟩), .step 1, .step 1, .step 1,
    .begin (.setResult sampleContext .null), .step 2, .step 2, .step 2, .step 1]
  obtain ⟨-, r, -, hs, hr⟩ := (answers_agree Memory.empty_keyed hw).conflict sampleManager ⟨1⟩ ⟨1⟩ .succeeded
    (List.mem_of_getElem? (i := 1) rfl)
  exact ⟨r, hs, hr _⟩

end JobLedger.World
