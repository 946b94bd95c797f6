import JobLedger.Proofs.ScheduleRuns

/-!
# Deadlines are enforced

A sweeper that was started and not stopped sweeps again within its interval, however time passes and whatever else is
done. A job that is overdue stays overdue until it has ended, and a sweep ends it. Calls of the store that no operation
makes may put off the deadline of a job; apart from them a job that is overdue has ended after the interval has passed.
A sweeper that was stopped takes no turn any more. Main statement: `deadlines_are_enforced`.
-/
namespace JobLedger.Schedule

variable {w v : Schedule Memory} {x : Sweeper} {y : Step} {n D : Nat} {interval : Span} {id : JobId} {d : Instant}

/-! ### A sweeper that runs -/

/-- A sweeper with a number and an interval is there and will sweep within its period. -/
def Runs (n : Nat) (interval : Span) (w : Schedule Memory) : Prop :=
  ∃ x, w.Holds x ∧ x.number = n ∧ x.interval = interval ∧ x.due ≤ w.elapsed + x.period

theorem Runs.turn (h : w.Runs n interval) : (w.turn Memory.store).Runs n interval := by
  obtain ⟨x, hx, hnumber, hinterval, hdue⟩ := h
  rw [Runs, turn_elapsed]
  rcases hx.turn with hx | ⟨-, -, hx⟩
  · exact ⟨x, hx, hnumber, hinterval, hdue⟩
  · have heq := Sweeper.catchUp_eq Memory.store w.elapsed x w.host
    refine ⟨_, hx, ?_, ?_, ?_⟩
    · rw [heq, hnumber]
    · rw [heq, hinterval]
    · have hperiod : (x.catchUp Memory.store w.elapsed w.host).1.period = x.period := by
        rw [heq]
        rfl
      rw [hperiod]
      exact Sweeper.due_catchUp_le Memory.store w.host hdue

theorem Runs.step (h : w.Runs n interval) (hy : y ≠ .stopSweeper n) : (w.step y).Runs n interval := by
  refine step_induct ?_ fun _ hv => hv.turn
  obtain ⟨x, hx, rfl, hinterval, hdue⟩ := h
  refine ⟨x, hx.enter hy, rfl, hinterval, ?_⟩
  rw [enter_elapsed]
  omega

private theorem runs_startSweeper (w : Schedule Memory) (m : Manager) (interval : Span) :
    (w.step (.startSweeper m interval)).Runs w.sweepers interval := by
  refine step_induct ?_ fun _ hv => hv.turn
  refine ⟨⟨w.sweepers, m, interval, w.elapsed⟩, .inl ⟨?_, Nat.le_refl _⟩, rfl, rfl, Nat.le_add_right _ _⟩
  exact List.mem_append_right _ List.mem_cons_self

theorem Runs.run (h : w.Runs n interval) {ys : List Step} (hys : .stopSweeper n ∉ ys) :
    (w.run ys).Runs n interval := by
  induction ys generalizing w with
  | nil => exact h
  | cons y ys ih =>
    rw [List.mem_cons, not_or] at hys
    exact ih (h.step (Ne.symm hys.1)) hys.2

theorem Sound.run (h : w.Sound) (ys : List Step) : (w.run ys).Sound := by
  induction ys generalizing w with
  | nil => exact h
  | cons y ys ih => exact ih (h.step y)

theorem IsIdle.run (h : w.IsIdle) (ys : List Step) : (w.run ys).IsIdle := by
  induction ys generalizing w with
  | nil => exact h
  | cons y ys ih => exact ih (h.step y)

/-- When nothing can run, a sweeper waits for its time. -/
private theorem IsIdle.lt_due (h : w.IsIdle) (hx : w.Holds x) : w.elapsed < x.due := by
  rcases hx with ⟨hready, -⟩ | ⟨-, hdue⟩
  · rw [h.1] at hready
    cases hready
  · exact hdue

/-! ### A job that is overdue -/

/-- A job has ended, or it is overdue and a sweeper will sweep at a time at the latest. -/
def Settles (n D : Nat) (id : JobId) (d : Instant) (w : Schedule Memory) : Prop :=
  w.host.store.HasEnded id ∨ (w.host.store.IsDueBy id d ∧ d.before w.host.clock = true ∧
    ∃ x, w.Holds x ∧ x.number = n ∧ x.due ≤ D)

theorem Settles.turn (hw : w.Sound) (h : w.Settles n D id d) : (w.turn Memory.store).Settles n D id d := by
  rcases h with hend | ⟨hdue, hd, x, hx, hnumber, hD⟩
  · exact .inl (hw.turn_keeps JobRecord.isKept_true (Request.upholds_hasEnded id) hend)
  · -- Either the sweeper still waits, and the job is as overdue as before, or this was its turn, and the job has ended.
    rcases hx.turn with hx | ⟨hover, hhost, -⟩
    · refine .inr ⟨?_, ?_, x, hx, hnumber, hD⟩
      · exact hw.turn_keeps (JobRecord.isKept_isDueBy id d) (Request.upholds_isDueBy id d) hdue
      · rwa [turn_clock]
    · left
      rw [hhost]
      exact Sweeper.hasEnded_catchUp hover hdue hd

/-- A call of the store that no operation makes leaves the deadline of a job where it is, or puts it forward. -/
def Step.Spares (id : JobId) (d : Instant) (y : Step) : Prop :=
  ∀ u, y = .call (.update u) → u.IsDueBy id d

theorem Settles.step (hw : w.Sound) (h : w.Settles n D id d) (hstop : y ≠ .stopSweeper n)
    (hclock : (w.step y).host.clock.before w.host.clock = false) (hspares : y.Spares id d) :
    (w.step y).Settles n D id d := by
  have henter : (w.enter y).Settles n D id d := by
    rcases h with hend | ⟨hdue, hd, x, hx, rfl, hD⟩
    · refine .inl (enter_keeps JobRecord.isKept_true (Request.upholds_hasEnded id) (fun c _ => ?_) hend)
      cases c <;> exact trivial
    · refine .inr ⟨?_, ?_, x, hx.enter hstop, rfl, hD⟩
      · refine enter_keeps (JobRecord.isKept_isDueBy id d) (Request.upholds_isDueBy id d) (fun c hc => ?_) hdue
        cases c with
        | update u => exact hspares u hc
        | create _ | get _ | findExpired _ | list _ => exact trivial
      · rw [step_clock] at hclock
        exact Instant.before_of_before_of_not_before hd hclock
  have hstep := step_induct (w := w) (y := y) (I := fun v => v.Sound ∧ v.Settles n D id d) ⟨hw.enter y, henter⟩
    fun v hv => ⟨hv.1.turn, hv.2.turn hv.1⟩
  exact hstep.2

/-- The clock never moves back in a run. -/
def ClockGoesOn (w : Schedule Memory) : List Step → Prop
  | [] => True
  | y :: ys => (w.step y).host.clock.before w.host.clock = false ∧ ClockGoesOn (w.step y) ys

theorem Settles.run (hw : w.Sound) (h : w.Settles n D id d) {ys : List Step} (hstop : .stopSweeper n ∉ ys)
    (hclock : w.ClockGoesOn ys) (hspares : ∀ y ∈ ys, y.Spares id d) : (w.run ys).Settles n D id d := by
  induction ys generalizing w with
  | nil => exact h
  | cons y ys ih =>
    rw [List.mem_cons, not_or] at hstop
    exact ih (hw.step y) (h.step hw (Ne.symm hstop.1) hclock.1 (hspares y List.mem_cons_self)) hstop.2 hclock.2
      fun z hz => hspares z (List.mem_cons_of_mem y hz)

/-- A sweeper that runs settles what is overdue within its interval. -/
private theorem Runs.settles (h : w.Runs n interval) (hdue : w.host.store.IsDueBy id d)
    (hd : d.before w.host.clock = true) :
    w.Settles n (w.elapsed + (Sweep.normalize interval).milliseconds) id d := by
  obtain ⟨x, hx, hnumber, rfl, hxdue⟩ := h
  have := x.period_le
  exact .inr ⟨hdue, hd, x, hx, hnumber, by omega⟩

theorem Settles.hasEnded (h : w.Settles n D id d) (hidle : w.IsIdle) (hD : D ≤ w.elapsed) :
    w.host.store.HasEnded id := by
  rcases h with hend | ⟨-, -, x, hx, -, hdue⟩
  · exact hend
  · have := hidle.lt_due hx
    omega

/-! ### A sweeper that was stopped -/

/-- A number was given to a sweeper that is not there any more. -/
def Retired (n : Nat) (w : Schedule Memory) : Prop :=
  n < w.sweepers ∧ ∀ x, Runner.sweeper x ∈ w.runners → x.number ≠ n

/-- The states on the way of a run: after what a step does itself, and after each turn. -/
inductive Course (w : Schedule Memory) : Schedule Memory → Prop
  | here : Course w w
  | enter {v : Schedule Memory} (y : Step) (h : Course w v) : Course w (v.enter y)
  | turn {v : Schedule Memory} (h : Course w v) : Course w (v.turn Memory.store)

theorem Course.step (h : w.Course v) (y : Step) : w.Course (v.step y) :=
  step_induct (h.enter y) fun _ hv => hv.turn

/-- A run is on its own way. -/
theorem Course.run (h : w.Course v) (ys : List Step) : w.Course (v.run ys) := by
  induction ys generalizing v with
  | nil => exact h
  | cons y ys ih => exact ih (h.step y)

theorem Retired.extends {js : List RunningJob} (h : w.Retired n) (hext : w.Extends v js) : v.Retired n := by
  refine ⟨hext.sweepers ▸ h.1, fun x hx => ?_⟩
  rcases List.mem_append.mp (hext.runners.mem_iff.mp hx) with hx | hx
  · obtain ⟨j, -, hj⟩ := List.mem_map.mp hx
    cases hj
  · exact h.2 x hx

theorem Retired.withReady {r : Runner} {rest : List Runner} (h : w.Retired n) (hr : w.ready = r :: rest) :
    (w.withReady rest).Retired n :=
  ⟨h.1, fun x hx => h.2 x (runners_of_ready hr ▸ List.mem_cons_of_mem r hx)⟩

theorem Retired.withSweeper (h : w.Retired n) (hx : x.number ≠ n) : (w.withSweeper x).Retired n := by
  refine ⟨h.1, fun y hy => ?_⟩
  rcases List.mem_cons.mp ((runners_withSweeper w x).mem_iff.mp hy) with heq | hy
  · rwa [Runner.sweeper.inj heq]
  · exact h.2 y hy

theorem Retired.turn (h : w.Retired n) : (w.turn Memory.store).Retired n := by
  have hresume := h.extends w.extends_resume
  rcases turn_cases Memory.store w with ⟨-, hturn⟩ | ⟨j, rest, js, hj, hext, -⟩ | ⟨x, rest, v, hx, hext, -, hturn⟩
  · rwa [hturn]
  · exact (hresume.withReady hj).extends hext
  · have hne : x.number ≠ n := hresume.2 x (runners_of_ready hx ▸ List.mem_cons_self)
    rw [hturn]
    refine ((hresume.withReady hx).extends hext).withSweeper ?_
    rwa [Sweeper.catchUp_eq]

private theorem le_sweepers_enter (w : Schedule Memory) (y : Step) : w.sweepers ≤ (w.enter y).sweepers := by
  cases y with
  | operation o a ha => exact Nat.le_of_eq (extends_update w _).sweepers.symm
  | startSweeper m interval => exact Nat.le_succ _
  | spawn _ _ _ | call _ | stopSweeper _ | setClock _ | pass _ => exact Nat.le_refl _

theorem Retired.enter (h : w.Retired n) (y : Step) : (w.enter y).Retired n := by
  refine ⟨Nat.lt_of_lt_of_le h.1 (w.le_sweepers_enter y), fun x hx => ?_⟩
  rcases mem_runners_enter hx with hx | ⟨m, c, work, -, hx⟩ | ⟨m, interval, -, hx⟩
  · exact h.2 x hx
  · cases hx
  · rw [Runner.sweeper.inj hx]
    exact Nat.ne_of_gt h.1

theorem Retired.course (h : w.Retired n) (hv : w.Course v) : v.Retired n := by
  induction hv with
  | here => exact h
  | enter y _ ih => exact ih.enter y
  | turn _ ih => exact ih.turn

/-- The first runner that is ready is no sweeper that was stopped. -/
private theorem Retired.ne_of_head? (h : w.Retired n) (hx : w.resume.ready.head? = some (.sweeper x)) :
    x.number ≠ n := by
  obtain ⟨rest, hrest⟩ := List.head?_eq_some_iff.mp hx
  exact (h.extends w.extends_resume).2 x (runners_of_ready hrest ▸ List.mem_cons_self)

private theorem retired_stopSweeper (h : n < w.sweepers) : (w.step (.stopSweeper n)).Retired n := by
  refine ⟨h, fun x hx => ?_⟩
  have hgone : (!isSweeper n (.sweeper x)) = true := by
    rcases mem_runners.mp hx with hx | ⟨_, _, hx⟩ | ⟨_, _, hx⟩ | ⟨e, he, hx⟩
    · exact (List.mem_filter.mp hx).2
    · cases hx
    · cases hx
    · rw [← hx]
      exact (List.mem_filter.mp he).2
  simpa [isSweeper] using hgone

private theorem le_sweepers_step (w : Schedule Memory) (y : Step) : w.sweepers ≤ (w.step y).sweepers :=
  step_induct (I := fun v => w.sweepers ≤ v.sweepers) (w.le_sweepers_enter y) fun v hv =>
    Nat.le_trans hv (Nat.le_of_eq (v.turn_sweepers Memory.store).symm)

private theorem le_sweepers_run (w : Schedule Memory) (ys : List Step) : w.sweepers ≤ (w.run ys).sweepers := by
  induction ys generalizing w with
  | nil => exact Nat.le_refl _
  | cons y ys ih => exact Nat.le_trans (w.le_sweepers_step y) (ih _)

private theorem lt_sweepers_startSweeper (w : Schedule Memory) (m : Manager) (interval : Span) :
    w.sweepers < (w.step (.startSweeper m interval)).sweepers :=
  step_induct (I := fun v => w.sweepers < v.sweepers) (Nat.lt_succ_self _) fun v hv =>
    Nat.lt_of_lt_of_eq hv (v.turn_sweepers Memory.store).symm

/-! ### Main statement -/

/-- A sweeper is started in any run. From then on, until it is stopped, a job that is open and past its deadline after
some step has ended after any further run in which as much time passes as the interval of the sweeper and the clock
does not move back, unless a call of the store that no operation makes puts off the deadline. Once the sweeper was
stopped, no turn is its turn any more. -/
theorem deadlines_are_enforced (now : Instant) (before : List Step) (m : Manager) (interval : Span)
    (between : List Step) :
    let n := ((start now Memory.empty).run before).sweepers
    let w := (((start now Memory.empty).run before).step (.startSweeper m interval)).run between
    (.stopSweeper n ∉ between → ∀ r : JobRecord, w.host.store.records.get? r.id = some r →
      r.isExpired w.host.clock = true → ∀ after, .stopSweeper n ∉ after → w.ClockGoesOn after →
        (∀ u, .call (.update u) ∈ after → u.id = r.id → u.isTerminal = false → r.deadline.before u.deadline = false) →
        (Sweep.normalize interval).milliseconds ≤ (after.map Step.milliseconds).sum →
          ∃ r', (w.run after).host.store.records.get? r.id = some r' ∧ r'.isTerminal = true) ∧
    ∀ v, (w.step (.stopSweeper n)).Course v → ∀ x, v.resume.ready.head? = some (.sweeper x) → x.number ≠ n := by
  intro n w
  constructor
  · intro hbetween r hr hexpired after hafter hclock hspares htime
    have hsound : w.Sound := (((Sound.start now).run before).step _).run between
    have hidle : w.IsIdle := ((IsIdle.run (w := start now Memory.empty) ⟨rfl, rfl⟩ before).step _).run between
    have hruns : w.Runs n interval := (runs_startSweeper _ m interval).run hbetween
    rw [JobRecord.isExpired, Bool.and_eq_true] at hexpired
    have hdue : w.host.store.IsDueBy r.id r.deadline :=
      ⟨hsound.keyed, r, hr, fun _ _ => Instant.not_before_iff.mpr (.inr ⟨rfl, Nat.le_refl _⟩)⟩
    have hsettles := (hruns.settles hdue hexpired.2).run hsound hafter hclock fun y hy u hu => hspares u (hu ▸ hy)
    -- Nothing can run after a step, so a sweeper whose time has come has swept.
    refine hsettles.hasEnded (hidle.run after) ?_
    rw [run_elapsed w after]
    omega
  · intro v hv x hx
    have hn : n < w.sweepers := Nat.lt_of_lt_of_le (lt_sweepers_startSweeper _ m interval) (le_sweepers_run _ between)
    exact ((retired_stopSweeper hn).course hv).ne_of_head? hx

/-- The manager of the sweeper and of the job below. -/
def sampleManager : Manager := ⟨0, ⟨"a"⟩, Manager.defaultPollInterval⟩

/-- A job of one second, as it is stored when it is created. -/
def shortJob : JobRecord := .accepted ⟨1⟩ { name := "n", timeoutSeconds := 1 } ⟨"a"⟩ .epoch

/-- A sweeper that sweeps every ten seconds is started. -/
def sweptSample : Schedule Memory := ((start .epoch Memory.empty).run []).step (.startSweeper sampleManager ⟨10000⟩)

/-- Work that takes longer than its job may. -/
def longWork : Work := .steps [.sleep 100000] (.value .null)

/-- The job is submitted with work that takes long, and two seconds pass. -/
def overdueSample : Schedule Memory :=
  (sweptSample.submit Memory.store sampleManager ⟨1⟩ { name := "n", timeoutSeconds := 1 } longWork).2.step
    (.pass ⟨2000⟩)

private theorem get?_overdueSample : overdueSample.host.store.records.get? shortJob.id = some shortJob := by
  with_unfolding_all rfl

private theorem isExpired_shortJob : shortJob.isExpired overdueSample.host.clock = true := by
  decide +kernel

/-- The overdue job has ended when ten more seconds have passed. -/
theorem overdue_job_ends :
    overdueSample.host.store.records.get? shortJob.id = some shortJob ∧
      shortJob.isExpired overdueSample.host.clock = true ∧
      ∃ r, (overdueSample.run [.pass ⟨4000⟩, .pass ⟨6000⟩]).host.store.records.get? shortJob.id = some r ∧
        r.isTerminal = true := by
  obtain ⟨ys, hys, hsubmit⟩ :=
    submit_eq_run sweptSample sampleManager ⟨1⟩ { name := "n", timeoutSeconds := 1 } longWork
  have hspawned : ∀ n, .stopSweeper n ∉ ys := fun n hn => by
    obtain ⟨c, hc⟩ := hys _ hn
    cases hc
  have hclock : overdueSample.ClockGoesOn [.pass ⟨4000⟩, .pass ⟨6000⟩] :=
    ⟨by decide +kernel, by decide +kernel, trivial⟩
  have hrun : overdueSample =
      sweptSample.run (.operation (.create sampleManager ⟨1⟩ ⟨"n", 1, none, none⟩) _ rfl :: ys ++ [.pass ⟨2000⟩]) := by
    rw [overdueSample, hsubmit, run, run, List.foldl_append]
    rfl
  refine ⟨get?_overdueSample, isExpired_shortJob, ?_⟩
  have hget := get?_overdueSample
  have hexpired := isExpired_shortJob
  generalize overdueSample = w at *
  subst hrun
  rw [sweptSample] at *
  refine (deadlines_are_enforced .epoch [] sampleManager ⟨10000⟩ _).1 ?_ shortJob hget hexpired _ ?_ hclock ?_ ?_
  · simp [hspawned]
  · simp
  · simp
  · decide

/-- A call of the store that gives the overdue job more time. -/
def prolonging : List Step :=
  [.call (.update { shortJob with timeoutSeconds := 100000 }), .pass ⟨4000⟩, .pass ⟨6000⟩]

/-- After such a call, the job that was overdue is open when ten more seconds have passed. -/
theorem other_call_puts_off_deadline :
    overdueSample.host.store.records.get? shortJob.id = some shortJob ∧
      shortJob.isExpired overdueSample.host.clock = true ∧
      (∀ n, .stopSweeper n ∉ prolonging) ∧ overdueSample.ClockGoesOn prolonging ∧
      (Sweep.normalize ⟨10000⟩).milliseconds ≤ (prolonging.map Step.milliseconds).sum ∧
      ((overdueSample.run prolonging).host.store.records.get? shortJob.id).map JobRecord.isTerminal = some false := by
  have hclock : overdueSample.ClockGoesOn prolonging :=
    ⟨by decide +kernel, by decide +kernel, by decide +kernel, trivial⟩
  refine ⟨get?_overdueSample, isExpired_shortJob, ?_, hclock, by decide, ?_⟩
  · simp [prolonging]
  · decide +kernel

end JobLedger.Schedule
