import JobLedger.Proofs.Worlds

/-!
# Outcomes never mix

In a store that starts empty every record is well formed at every moment. What a terminal record says of its
end comes from one operation alone, whatever was written to the record before.
-/
namespace JobLedger.World

open JobRecord (Mark)

variable {w : World}

/-- An entry of the log is the one that tells of the end of a job, which its operation brought by a mark. -/
structure EndedBy (w : World) (r : JobRecord) (e : Event) (m : Mark) : Prop where
  logged : e ∈ w.log
  ending : e.ending? = some r
  only : ∀ e' ∈ w.log, ∀ r', e'.ending? = some r' → r'.id = r.id → e' = e
  made : e.operation.Makes r.id r.timeoutSeconds m
  /-- Unless it is work with several steps, the operation and the timeout decide the mark. -/
  decided : (∀ g c work, e.operation ≠ .spawn g c work) → ∀ m', e.operation.Makes r.id r.timeoutSeconds m' → m' = m
  outcome : r.outcome = m.outcome

private theorem Sound.endedBy (h : w.Sound .empty) {id : JobId} {r : JobRecord} (hr : w.stored id = some r)
    (ht : r.isTerminal = true) : ∃ e m, w.EndedBy r e m := by
  obtain ⟨e, he, hend⟩ := h.ledger.ended hr rfl ht
  obtain ⟨-, m, hm, -, ho⟩ := (h.ledger.entry e he).ending r hend
  exact ⟨e, m, he, hend, fun e' he' r' hr' hid => h.ledger.eq_of_ending he' he hr' hend hid, hm,
    fun hne m' hm' => hm'.unique hm hne, ho rfl⟩

/-- In every interleaving on a store that starts empty, a stored record is in its place and well formed, and if
terminal it has the outcome of the one operation that ended the job. -/
theorem stored_record_wellFormed (hw : w.Reachable .empty) {id : JobId} {r : JobRecord}
    (hr : w.stored id = some r) :
    r.id = id ∧ r.WellFormed ∧ (r.isTerminal = true → ∃ e m, w.EndedBy r e m) := by
  have h := hw.sound Memory.empty_keyed
  exact ⟨h.ledger.keyed.id_eq hr, h.ledger.wellFormed hr rfl, h.endedBy hr⟩

/-- A result after a progress report, and with a cancellation that comes too late. -/
theorem result_wellFormed :
    (({ sampleRecord with state := .running, percentComplete := 40 } : JobRecord).marked .epoch
      (.succeeded .null)).WellFormed := by
  have hw := sample_reachable [.begin (.reportProgress sampleContext 40), .step 1, .step 1, .step 1,
    .begin (.cancel sampleManager ⟨1⟩), .step 2, .begin (.setResult sampleContext .null), .step 3, .step 3, .step 3,
    .step 2, .step 2, .step 2]
  have hr := stored_record_wellFormed hw (show (sample.run _).stored ⟨1⟩ = some _ from rfl)
  exact hr.2.1

end JobLedger.World
