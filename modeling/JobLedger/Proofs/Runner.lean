import JobLedger.Proofs.Succession

/-!
# What a finished task leaves behind

The task of a job ends its tracking. It leaves a terminal record unless one of its calls failed, and the outcome
is the one that its work alone decides unless another process ended the job.
-/
namespace JobLedger.World

variable {m₀ : Memory} {w : World}

theorem Sound.mem_endingsOf (h : w.Sound m₀) {i : Nat} {id : JobId} {r : JobRecord}
    (hr : w.endingsOf i = [r]) (hid : r.id = id) : w.stored id = some r ∧ r.isTerminal = true :=
  hid ▸ h.ledger.stored_of_mem_endingsOf (hr ▸ List.mem_singleton_self r)

/-- However cancellations, sweeps, failing calls and other work interfere, a finished task has left its job
untracked; unless a call of the task failed the job has ended for good, and unless another process ended it, it
has the outcome of the work. -/
theorem finished_task_settles (hm : m₀.Keyed) (hw : w.Reachable m₀) {i : Nat} {m : Manager} {c : JobContext}
    {steps : List WorkStep} {ending : WorkEnd}
    (hi : w.processes[i]? = some ⟨.spawn m c (.steps steps ending), .done ()⟩) :
    (∀ moves, (w.run moves).host.isTracked m.number c.job = false) ∧
    (¬w.HasFailed i → ∃ r, r.isTerminal = true ∧ (∀ moves, (w.run moves).stored c.job = some r) ∧
      (¬w.Overtaken i c.job → r.outcome = (Work.mark ending steps).outcome)) := by
  have h := hw.sound hm
  obtain ⟨hc, hstand, hend, huntracked⟩ := h.answered hi
  constructor
  · intro moves
    exact (h.evolves_run moves).untracked hc huntracked
  · intro hf
    obtain ⟨r, hr, ht⟩ := hend.resolve_left hf
    refine ⟨r, ht, fun moves => h.stored_run_of_terminal moves hr ht, ?_⟩
    intro hover
    obtain ⟨r', hown, hid, hout⟩ := (hstand.resolve_left hf).resolve_left hover
    obtain ⟨hr', -⟩ := h.mem_endingsOf hown hid
    rwa [Option.some.inj (hr.symm.trans hr')]

/-- The process of work that reports progress and sleeps before it comes to an end. -/
def sampleWork (ending : WorkEnd) : Operation :=
  .spawn sampleManager sampleContext (.steps [.progress 50, .sleep 5] ending)

/-- The moves in which it comes to its end. -/
def sampleTask (ending : WorkEnd) : List Move := .begin (sampleWork ending) :: List.replicate 12 (.step 1)

/-- The task with an end settles with an outcome. -/
def SettlesWith (ending : WorkEnd) (outcome : JobRecord.Outcome) : Prop :=
  (sample.run (sampleTask ending)).host.isTracked 0 ⟨1⟩ = false ∧
    ∃ r, (sample.run (sampleTask ending)).stored ⟨1⟩ = some r ∧ r.outcome = outcome

/-- The task with an end runs to it alone, and none of its calls fails. -/
structure RunsAlone (ending : WorkEnd) : Prop where
  isDone : (sample.run (sampleTask ending)).processes[1]? = some ⟨sampleWork ending, .done ()⟩
  noneFails : ((sample.run (sampleTask ending)).own 1).any Event.isFailure = false
  isAlone : ((sample.run (sampleTask ending)).log.filter fun e => e.process != 1).filterMap Event.ending? = []

/-- Each of the four ends leaves its outcome: a value, a value without a JSON form, an error and a panic. -/
theorem sample_task_settles :
    SettlesWith (.value .null) { state := .succeeded, resultPayload := some .null } ∧
    SettlesWith (.unserializable "key must be a string")
      { state := .failed, errorMessage := some "result serialization failed: key must be a string" } ∧
    SettlesWith (.error "no space" "Io(28)")
      { state := .failed, errorMessage := some "no space", errorDetail := some "Io(28)" } ∧
    SettlesWith (.panic (some "boom"))
      { state := .failed, errorMessage := some "job panicked", errorDetail := some "boom" } := by
  -- Only the runs differ between the four ends, and these are evaluated.
  have hsettles : ∀ {ending : WorkEnd} {outcome : JobRecord.Outcome}, RunsAlone ending →
      (Work.mark ending [.progress 50, .sleep 5]).outcome = outcome → SettlesWith ending outcome := by
    intro ending outcome halone hmark
    have hreachable := sample_reachable (sampleTask ending)
    obtain ⟨hdone, hcalls, hothers⟩ := halone
    unfold SettlesWith
    generalize sample.run (sampleTask ending) = w at *
    obtain ⟨htracked, h⟩ := finished_task_settles Memory.empty_keyed hreachable hdone
    obtain ⟨r, -, hr, ho⟩ := h (Scene.not_hasFailed hcalls)
    exact ⟨htracked [], r, hr [], (ho (Scene.not_overtaken hothers _)).trans hmark⟩
  refine ⟨?_, ?_, ?_, ?_⟩
  · exact hsettles ⟨rfl, rfl, rfl⟩ rfl
  · exact hsettles ⟨rfl, rfl, rfl⟩ rfl
  · exact hsettles ⟨rfl, rfl, rfl⟩ rfl
  · exact hsettles ⟨rfl, rfl, rfl⟩ rfl

end JobLedger.World
