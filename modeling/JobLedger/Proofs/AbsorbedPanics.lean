import JobLedger.Proofs.FiredSignals
import JobLedger.Proofs.Runner

/-!
# Work that panics

A task takes in the panic of its work: the panic is recorded like another error, unless the job has ended, and the job
is tracked no longer. Work that panics while it is set up takes the task with it, which ends at once: then only others
end the job, and only others stop its tracking. Main statement: `panics_of_started_work_are_recorded`.
-/
namespace JobLedger

open JobRecord (Mark)

/-- Work that panics if no call fails. -/
def Work.Panics : Work → Prop
  | .steps todo ending => ∃ text, (course ending todo).2 = .panic text
  | .unfounded => True

namespace World

open Scene (Evolves)

variable {m₀ : Memory} {w v : World} {i k : Nat} {m : Manager} {c : JobContext}

/-- The tasks of work that could not be set up are through, and asked nothing. Their contexts were handed out. -/
def Lapses (w : World) : Prop :=
  ∀ {i : Nat} {m : Manager} {c : JobContext} {d : Task Unit}, w.processes[i]? = some ⟨.spawn m c .unfounded, d⟩ →
    d = .done () ∧ w.own i = [] ∧ w.HasOpened c

private theorem Sound.lapses_moved (h : w.Sound m₀) (hw : w.Lapses) (hv : w.Moved v) : v.Lapses := by
  intro i m c d hi
  have hold : ∀ {d}, w.processes[i]? = some ⟨.spawn m c .unfounded, d⟩ → v.own i = w.own i →
      d = .done () ∧ v.own i = [] ∧ v.HasOpened c := by
    intro d hi hown
    obtain ⟨hd, hnone, hc⟩ := hw hi
    exact ⟨hd, hown.trans hnone, (h.evolves_moved hv).hasOpened hc⟩
  cases hv with
  | stay => exact hold hi rfl
  | tick now => exact hold hi rfl
  | begin o ho =>
    rcases process_begin hi with hi | ⟨rfl, hp⟩
    · exact hold hi rfl
    · obtain ⟨rfl, hd⟩ := Process.mk.inj hp
      exact ⟨eq_of_heq hd, h.own_eq_nil, h.hasOpened_of_yields (by simpa [allows, Operation.context?] using ho)⟩
  | @request f? j o q k hj =>
    rcases process_set hi with ⟨rfl, hp⟩ | ⟨hne, hi⟩
    · -- A task that is through asks nothing.
      obtain ⟨rfl, -⟩ := Process.mk.inj hp
      cases (hw hj).1
    · exact hold hi (Scene.own_ask_of_ne (Ne.symm hne))
  | wake hj hx =>
    rcases process_set hi with ⟨rfl, hp⟩ | ⟨-, hi⟩
    · obtain ⟨rfl, -⟩ := Process.mk.inj hp
      cases (hw hj).1
    · exact hold hi rfl

private theorem start_lapses (now : Instant) (m₀ : Memory) : (start now m₀).Lapses := fun hi => by simp [start] at hi

private theorem Reachable.lapses (hm : m₀.Keyed) (hw : w.Reachable m₀) : w.Lapses :=
  hw.induction (P := fun w => w.Lapses) hm (start_lapses · m₀) fun x h hl => h.lapses_moved hl (moved_move _ x)

/-- In every interleaving, when the task is through of work that panics, its job is tracked no longer; unless a call of
the task failed the job has ended, and the panic is recorded if neither another process nor the work itself had ended
the job before. But the task of work that panics while it is set up is through at once and asks nothing: if its job has
ended then another process ended it, and the manager that made its context tracks it unless another process stopped
that. -/
theorem panics_of_started_work_are_recorded (hm : m₀.Keyed) (hw : w.Reachable m₀) {work : Work} {d : Task Unit}
    (hi : w.processes[i]? = some ⟨.spawn m c work, d⟩) :
    match work with
    | .steps steps ending => ∀ text, (Work.course ending steps).2 = .panic text → d = .done () →
        (∀ moves, (w.run moves).host.isTracked m.number c.job = false) ∧
        (¬w.HasFailed i → ∃ r, r.isTerminal = true ∧ (∀ moves, (w.run moves).stored c.job = some r) ∧
          (r.outcome = (Mark.failed "job panicked" text).outcome ∨ w.Overtaken i c.job ∨
            ∃ x, (Work.course ending steps).1 = some x ∧ r.outcome = x.outcome))
    | .unfounded => d = .done () ∧ w.own i = [] ∧ (w.HasEnded c.job → w.Overtaken i c.job) ∧
        ∃ k, HasMade k c w.log ∧ (w.host.tracked.get? (k, c.job) = some c.number ∨
          ∃ e ∈ w.log, e.process ≠ i ∧ e.untracked? = some (k, c.job)) := by
  have h := hw.sound hm
  cases work with
  | steps steps ending =>
    rintro text hpanic rfl
    obtain ⟨hc, hstand, hend, huntracked⟩ := h.answered hi
    refine ⟨fun moves => (h.evolves_run moves).untracked hc huntracked, fun hf => ?_⟩
    obtain ⟨r, hr, hterm⟩ := hend.resolve_left hf
    refine ⟨r, hterm, fun moves => h.stored_run_of_terminal moves hr hterm, ?_⟩
    rcases hstand.resolve_left hf with hover | ⟨x, hown, hid, hout⟩
    · exact .inr (.inl hover)
    · obtain ⟨hx, -⟩ := h.mem_endingsOf hown hid
      obtain rfl := Option.some.inj (hr.symm.trans hx)
      rw [Work.mark, hpanic] at hout
      cases hfirst : (Work.course ending steps).1 with
      | none => exact .inl (by rw [hout, hfirst]; rfl)
      | some y => exact .inr (.inr ⟨y, rfl, by rw [hout, hfirst]; rfl⟩)
  | unfounded =>
    obtain ⟨hd, hown, hc⟩ := hw.lapses hm hi
    have hothers : ∀ e ∈ w.log, e.process ≠ i := by
      intro e he hp
      have hmem : e ∈ w.own i := Scene.mem_own.mpr ⟨he, hp⟩
      rw [hown] at hmem
      cases hmem
    obtain ⟨hlacks, -⟩ := h.handles.stored_of_hasOpened h.ledger hc
    refine ⟨hd, hown, ?_, ?_⟩
    · rintro ⟨r, hr, hterm⟩
      obtain ⟨e, he, hend⟩ := h.ledger.ended hr hlacks hterm
      exact ⟨e, he, hothers e he, r, hend, h.ledger.keyed.id_eq hr⟩
    · obtain ⟨e, he, k, hmade⟩ := hc
      refine ⟨k, ⟨e, he, hmade⟩, ?_⟩
      rcases (hw.signals hm).held ⟨e, he, hmade⟩ with hn | ⟨u, hu, huntracked⟩
      · exact .inl hn
      · exact .inr ⟨u, hu, hothers u hu, huntracked⟩

/-- Work that reports progress and panics, and after it work that panics while it is set up. -/
def samplePanics : World :=
  sample.run (.begin (.spawn sampleManager sampleContext (.steps [.progress 50] (.panic (some "boom")))) ::
    List.replicate 12 (.step 1) ++ [.begin (.spawn sampleManager sampleContext .unfounded)])

theorem sample_panics : (Work.course (.panic (some "boom")) [.progress 50]).2 = .panic (some "boom") ∧
    samplePanics.host.isTracked 0 ⟨1⟩ = false ∧
    (∃ r, samplePanics.stored ⟨1⟩ = some r ∧ r.outcome = (Mark.failed "job panicked" (some "boom")).outcome) ∧
    samplePanics.own 2 = [] ∧ samplePanics.Overtaken 2 ⟨1⟩ := by
  have hw : samplePanics.Reachable .empty := sample_reachable _
  have hcourse : (Work.course (.panic (some "boom")) [.progress 50]).2 = .panic (some "boom") := rfl
  obtain ⟨htracked, hrecord⟩ :=
    panics_of_started_work_are_recorded Memory.empty_keyed hw (i := 1) rfl (some "boom") hcourse rfl
  obtain ⟨-, hown, hover, -⟩ := panics_of_started_work_are_recorded Memory.empty_keyed hw (i := 2) rfl
  have hfailed : ¬samplePanics.HasFailed 1 := Scene.not_hasFailed rfl
  have hfirst : ¬samplePanics.Overtaken 1 ⟨1⟩ := Scene.not_overtaken rfl ⟨1⟩
  obtain ⟨r, hterm, hr, hpanic | hovertaken | ⟨x, hx, -⟩⟩ := hrecord hfailed
  · exact ⟨hcourse, htracked [], ⟨r, hr [], hpanic⟩, hown, hover ⟨r, hr [], hterm⟩⟩
  · exact absurd hovertaken hfirst
  · cases hx

/-- The job of work that panicked while it was set up. -/
def sampleLapse : World := sample.run [.begin (.spawn sampleManager sampleContext .unfounded)]

/-- Not every panic is recorded: work that panics while it is set up leaves its job both open and tracked. -/
theorem panic_during_setup_is_lost :
    ¬∀ w : World, w.Reachable .empty → (∀ e ∈ w.log, e.isFailure = false) → ∀ (i : Nat) m c work, work.Panics →
      w.processes[i]? = some ⟨.spawn m c work, .done ()⟩ →
        w.HasEnded c.job ∨ w.host.isTracked m.number c.job = false := by
  intro h
  have hcalls : sampleLapse.log.any Event.isFailure = false := rfl
  have hnone : ∀ e ∈ sampleLapse.log, e.isFailure = false := fun e he => by
    simpa using List.any_eq_false.mp hcalls e he
  rcases h sampleLapse (sample_reachable _) hnone 1 sampleManager sampleContext .unfounded trivial rfl with
    ⟨r, hr, hterm⟩ | htracked
  · obtain rfl := Option.some.inj (show some sampleRecord = some r from hr)
    cases hterm
  · cases htracked

end World

end JobLedger
