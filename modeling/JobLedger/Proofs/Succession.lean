import JobLedger.Proofs.Worlds

/-!
# The succession of stored records

Every write replaces a record that was read earlier, perhaps long before others wrote. Still the stored
records of a job only follow the lifecycle, and what a job was given at its creation stays.
-/
namespace JobLedger.World

open JobRecord (accepted)

variable {m₀ : Memory} {w v : World}

/-- A job appears only by its creation. -/
private theorem Sound.created_of_moved (h : w.Sound m₀) (hv : w.Moved v) {id : JobId} (hw : w.stored id = none) :
    v.stored id = none ∨ ∃ p ∈ w.processes, ∃ r, p.operation.Creates r ∧ r.id = id ∧ v.stored id = some r := by
  cases hv with
  | stay => exact .inl hw
  | tick now => exact .inl hw
  | begin o ho => exact .inl hw
  | wake hp => exact .inl hw
  | @request f? i o q k hp =>
    have hq := h.mayAsk hp
    cases Scene.records f? i o q w.toScene with
    | nothing he ht => exact .inl ((Scene.stored_congr ht id).trans hw)
    | created r hr he hs ht =>
      subst hr
      by_cases hid : id = r.id
      · subst hid
        refine .inr ⟨_, List.mem_of_getElem? hp, r, hq, rfl, ?_⟩
        exact (Scene.stored_insert ht r.id).trans (if_pos rfl)
      · exact .inl ((Scene.stored_insert ht id).trans ((if_neg hid).trans hw))
    | updated r old now hr hc he hs ho ht =>
      have hid : id ≠ r.id := by
        rintro rfl
        rw [hs] at hw
        cases hw
      exact .inl ((Scene.stored_insert ht id).trans ((if_neg hid).trans hw))

/-- A stored record is replaced only along the lifecycle. -/
private theorem Sound.replaced_of_moved (h : w.Sound m₀) (hv : w.Moved v) {id : JobId} {r : JobRecord}
    (hr : w.stored id = some r) : ∃ r', v.stored id = some r' ∧ r'.origin = r.origin ∧
      (r' = r ∨ r.state.canBecome r'.state = true) := by
  cases hv with
  | request f? hp => exact Scene.kept_ask f? (h.mayAsk hp) hr
  | _ => exact ⟨r, hr, rfl, .inl rfl⟩

private theorem Sound.kept_run (h : w.Sound m₀) (moves : List Move) {id : JobId} {r : JobRecord}
    (hr : w.stored id = some r) : ∃ r', (w.run moves).stored id = some r' ∧ r'.origin = r.origin ∧
      (r.isTerminal = true → r' = r) :=
  (h.evolves_run moves).kept hr

theorem Sound.stored_run_of_terminal (h : w.Sound m₀) (moves : List Move) {id : JobId} {r : JobRecord}
    (hr : w.stored id = some r) (ht : r.isTerminal = true) : (w.run moves).stored id = some r :=
  (h.evolves_run moves).stored_of_terminal hr ht

/-- In every interleaving, each move creates a job as accepted, follows the lifecycle or leaves the record as it
is; a record stays, with what it was given by its creation, and once terminal it stays as it is. -/
theorem stored_records_follow_lifecycle (hm : m₀.Keyed) (hw : w.Reachable m₀) (id : JobId) :
    (∀ x, w.stored id = none → (w.move x).stored id = none ∨ ∃ p ∈ w.processes, ∃ m request now,
      p.operation = .create m id request ∧ (w.move x).stored id = some (accepted id request m.instanceId now)) ∧
    (∀ x r, w.stored id = some r → ∃ r', (w.move x).stored id = some r' ∧ r'.origin = r.origin ∧
      (r' = r ∨ r.state.canBecome r'.state = true)) ∧
    (∀ moves r, w.stored id = some r → ∃ r', (w.run moves).stored id = some r' ∧ r'.origin = r.origin ∧
      (r.isTerminal = true → r' = r)) ∧
    ∀ moves m request r c, ⟨.create m id request, .done (.ok (r, c))⟩ ∈ w.processes →
      ∃ now r', r = accepted id request m.instanceId now ∧ (w.run moves).stored id = some r' ∧
        r'.origin = r.origin := by
  have h := hw.sound hm
  refine ⟨?_, fun x r hr => h.replaced_of_moved (moved_move w x) hr,
    fun moves r hr => h.kept_run moves hr, ?_⟩
  · intro x hnone
    rcases h.created_of_moved (moved_move w x) hnone with h' | ⟨⟨o, d⟩, hp, r, hc, hid, hr⟩
    · exact .inl h'
    · cases o with
      | create m id' request =>
        obtain ⟨now, rfl⟩ := hc
        obtain rfl : id' = id := hid
        exact .inr ⟨_, hp, m, request, now, rfl, hr⟩
      | _ => exact hc.elim
  · intro moves m request r c hp
    obtain ⟨i, hi⟩ := List.getElem?_of_mem hp
    obtain ⟨⟨now, rfl⟩, -, -, x, hx, hox⟩ := h.answered hi r c rfl
    obtain ⟨r', hr', ho, -⟩ := h.kept_run moves hx
    exact ⟨now, r', rfl, hr', ho.trans hox⟩

/-- A result that comes after a cancellation is lost. -/
theorem cancelled_record_stays :
    ((sample.run [.begin (.cancel sampleManager ⟨1⟩), .step 1, .step 1, .step 1, .step 1]).run
      [.begin (.setResult sampleContext .null), .step 2, .step 2]).stored ⟨1⟩ =
        some (sampleRecord.marked .epoch .cancelled) := by
  have hw := sample_reachable [.begin (.cancel sampleManager ⟨1⟩), .step 1, .step 1, .step 1, .step 1]
  obtain ⟨r, hr, -, he⟩ := (stored_records_follow_lifecycle Memory.empty_keyed hw ⟨1⟩).2.2.1
    [.begin (.setResult sampleContext .null), .step 2, .step 2] (sampleRecord.marked .epoch .cancelled) rfl
  rw [hr, he rfl]

end JobLedger.World
