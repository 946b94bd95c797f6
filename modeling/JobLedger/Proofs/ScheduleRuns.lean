import JobLedger.Proofs.OverdueJobs
import JobLedger.Proofs.ScheduleTurns

/-!
# Runs of a process on a store in memory

What may be done to a process from outside, one step after another: operations, work, calls of the store by others,
sweepers that are started and stopped, another time shown by the clock, and time that passes. A step does something
itself and then lets all that can run take turns. What the step itself and each turn keep is kept by the run. Main
statements: `Sound.turn_keeps` on the records, `Holds.turn` on the sweepers.
-/
namespace JobLedger

namespace Sweeper

variable {σ : Type} {s : StatusStore σ} {x : Sweeper} {elapsed : Nat}

private theorem next_le (h : x.due ≤ elapsed) : x.next elapsed ≤ elapsed + x.period := by
  rw [next]
  split <;> omega

/-- A sweeper that caught up is the same sweeper with a later time. -/
theorem catchUp_eq (s : StatusStore σ) (elapsed : Nat) (x : Sweeper) (h : Host σ) :
    (x.catchUp s elapsed h).1 = { x with due := (x.catchUp s elapsed h).1.due } := by
  fun_induction catchUp s elapsed x h with
  | case1 x h hdue ih => exact ih
  | case2 x h hdue => rfl

private theorem lt_due_catchUp (s : StatusStore σ) (elapsed : Nat) (x : Sweeper) (h : Host σ) :
    elapsed < (x.catchUp s elapsed h).1.due := by
  fun_induction catchUp s elapsed x h with
  | case1 x h hdue ih => exact ih
  | case2 x h hdue => exact Nat.lt_of_not_le hdue

/-- The next sweep is at most a period away. -/
theorem due_catchUp_le (s : StatusStore σ) {elapsed : Nat} {x : Sweeper} (h : Host σ)
    (hx : x.due ≤ elapsed + x.period) : (x.catchUp s elapsed h).1.due ≤ elapsed + x.period := by
  fun_induction catchUp s elapsed x h with
  | case1 x h hdue ih => exact ih (next_le hdue)
  | case2 x h hdue => exact hx

theorem period_le (x : Sweeper) : x.period ≤ (Sweep.normalize x.interval).milliseconds := Nat.min_le_left _ _

section memory
variable {P : JobRecord → Prop} {I : Memory → Prop} {h : Host Memory} {id : JobId} {d : Instant}

private theorem catchUp_keeps (hP : JobRecord.IsKept P) (hI : Request.Upholds P I) (elapsed : Nat) (x : Sweeper)
    (hs : I h.store) : I (x.catchUp Memory.store elapsed h).2.store := by
  fun_induction catchUp Memory.store elapsed x h with
  | case1 x h hdue ih =>
    exact ih (Host.perform_keeps hI ((letsSweep_keeping hP).sweepOnce (fun _ => trivial) x.manager h.clock) hs)
  | case2 x h hdue => exact hs

private theorem catchUp_clock (elapsed : Nat) (x : Sweeper) (h : Host Memory) :
    (x.catchUp Memory.store elapsed h).2.clock = h.clock := by
  fun_induction catchUp Memory.store elapsed x h with
  | case1 x h hdue ih => exact ih.trans (Host.perform_clock _ h)
  | case2 x h hdue => rfl

/-- A sweeper that has come due ends the jobs that are overdue. -/
theorem hasEnded_catchUp (hdue : x.due ≤ elapsed) (hs : h.store.IsDueBy id d) (hd : d.before h.clock = true) :
    (x.catchUp Memory.store elapsed h).2.store.HasEnded id := by
  rw [catchUp, if_pos hdue]
  exact catchUp_keeps JobRecord.isKept_true (Request.upholds_hasEnded id) _ _ (Host.hasEnded_sweepOnce x.manager hs hd)

end memory

end Sweeper

namespace Schedule

/-! ### Steps -/

/-- What may be done to a process from outside. -/
inductive Step where
  | operation (o : Operation) (a : Action o.Result) (h : o.action? = some a)
  | spawn (m : Manager) (c : JobContext) (work : Work)
  /-- A call of the store that is made by no operation. -/
  | call (c : StoreCall)
  | startSweeper (m : Manager) (interval : Span)
  | stopSweeper (number : Nat)
  /-- The clock shows another time. -/
  | setClock (now : Instant)
  /-- Time passes. -/
  | pass (d : Span)

/-- The milliseconds that pass in a step. -/
def Step.milliseconds : Step → Nat
  | .pass d => d.milliseconds
  | _ => 0

/-- The process after a step. -/
def step (w : Schedule Memory) : Step → Schedule Memory
  | .operation _ a _ => (w.perform Memory.store a).2
  | .spawn m c work => (w.spawn Memory.store m c work).2
  | .call c => { w with host := { w.host with store := (Memory.store.perform w.host.clock c w.host.store).2 } }
  | .startSweeper m interval => (w.startSweeper Memory.store m interval).2
  | .stopSweeper number => w.stopSweeper number
  | .setClock now => w.setClock now
  | .pass d => w.pass Memory.store d

def run (w : Schedule Memory) (xs : List Step) : Schedule Memory := xs.foldl step w

/-- What a step does itself, before anything takes a turn. -/
def enter (w : Schedule Memory) : Step → Schedule Memory
  | .operation _ a _ => w.update (w.host.perform Memory.store a).2
  | .spawn m c work =>
    { w with
      started := w.started + 1
      ready := w.ready ++ [.job { number := w.started, task := work.task m c, turns := 2 * work.turns }] }
  | .startSweeper m interval =>
    { w with sweepers := w.sweepers + 1, ready := w.ready ++ [.sweeper ⟨w.sweepers, m, interval, w.elapsed⟩] }
  | .pass d =>
    { w.setClock (w.host.clock.plus d) with
      elapsed := w.elapsed + d.milliseconds
      ready := w.ready ++ (w.timers.filter fun t => t.1 ≤ w.elapsed + d.milliseconds).map Prod.snd
      timers := w.timers.filter fun t => w.elapsed + d.milliseconds < t.1 }
  | .call c => w.step (.call c)
  | .stopSweeper number => w.step (.stopSweeper number)
  | .setClock now => w.step (.setClock now)

variable {w v : Schedule Memory} {x : Sweeper} {y : Step}

/-- A step is what it does itself, and turns. -/
private theorem step_eq (w : Schedule Memory) (y : Step) : ∃ n, w.step y = turnsFor Memory.store n (w.enter y) := by
  cases y with
  | call c => exact ⟨0, rfl⟩
  | stopSweeper number => exact ⟨0, rfl⟩
  | setClock now => exact ⟨0, rfl⟩
  | operation o a h => exact ⟨_, rfl⟩
  | spawn m c work => exact ⟨_, rfl⟩
  | startSweeper m interval => exact ⟨_, rfl⟩
  | pass d => exact ⟨_, rfl⟩

private theorem turnsFor_induct {I : Schedule Memory → Prop} (hturn : ∀ v, I v → I (v.turn Memory.store)) (n : Nat)
    (h : I w) : I (turnsFor Memory.store n w) := by
  induction n generalizing w with
  | zero => exact h
  | succ n ih => exact ih (hturn w h)

theorem step_induct {I : Schedule Memory → Prop} (henter : I (w.enter y))
    (hturn : ∀ v, I v → I (v.turn Memory.store)) : I (w.step y) := by
  obtain ⟨n, hn⟩ := w.step_eq y
  rw [hn]
  exact turnsFor_induct hturn n henter

theorem IsIdle.step (h : w.IsIdle) (y : Step) : (w.step y).IsIdle := by
  cases y with
  | call c => exact h
  | setClock now => exact h
  | stopSweeper number =>
    refine ⟨?_, h.2⟩
    show w.ready.filter _ = []
    rw [h.1, List.filter_nil]
  | operation o a ha => exact isIdle_settle _ _
  | spawn m c work => exact isIdle_settle _ _
  | startSweeper m interval => exact isIdle_settle _ _
  | pass d => exact isIdle_settle _ _

/-! ### Records -/

private theorem advanceTask_clock (t : Task Unit) (h : Host Memory) :
    (advanceTask Memory.store t h).2.clock = h.clock := by
  induction t generalizing h with
  | done a => rfl
  | ask q k ih =>
    cases q with
    | request q => exact (ih _ _).trans (Host.answer_clock q h)
    | wait x => rfl

section keeps
variable {P : JobRecord → Prop} {I : Memory → Prop}

private theorem advanceTask_keeps (hI : Request.Upholds P I) {t : Task Unit} (ht : Task.Keeps t P) {h : Host Memory}
    (hs : I h.store) : I (advanceTask Memory.store t h).2.store ∧ ∀ x rest,
      (advanceTask Memory.store t h).1 = some (x, rest) → ∀ P, JobRecord.IsKept P → Task.Keeps rest P := by
  induction t generalizing h with
  | done a => exact ⟨hs, nofun⟩
  | ask q k ih =>
    cases q with
    | request q =>
      obtain ⟨hanswer, hs⟩ := hI q h hs ht.1
      exact ih _ (ht.2 _ hanswer) hs
    | wait x =>
      refine ⟨hs, ?_⟩
      rintro _ _ ⟨⟩
      exact ht

/-- The records are in order, and the tasks of all jobs keep what is kept. -/
structure Sound (w : Schedule Memory) : Prop where
  keyed : w.host.store.Keyed
  tasks : ∀ j, Runner.job j ∈ w.runners → ∀ P, JobRecord.IsKept P → Task.Keeps j.task P

theorem Sound.extends (hw : w.Sound) {js : List RunningJob} (h : w.Extends v js) (hkeyed : v.host.store.Keyed)
    (hjs : ∀ j ∈ js, ∀ P, JobRecord.IsKept P → Task.Keeps j.task P) : v.Sound where
  keyed := hkeyed
  tasks j hj := by
    rcases List.mem_append.mp (h.runners.mem_iff.mp hj) with hj | hj
    · obtain ⟨k, hk, hkj⟩ := List.mem_map.mp hj
      obtain rfl := Runner.job.inj hkj
      exact hjs k hk
    · exact hw.tasks j hj

theorem Sound.resume (hw : w.Sound) : w.resume.Sound :=
  hw.extends w.extends_resume (by rw [host_resume]; exact hw.keyed) nofun

theorem Sound.withReady (hw : w.Sound) {r : Runner} {rest : List Runner} (h : w.ready = r :: rest) :
    (w.withReady rest).Sound where
  keyed := hw.keyed
  tasks j hj := hw.tasks j (runners_of_ready h ▸ List.mem_cons_of_mem r hj)

/-- What is kept of the records by all that is asked is kept by a turn. -/
theorem Sound.turn_keeps (hw : w.Sound) (hP : JobRecord.IsKept P) (hI : Request.Upholds P I) (hs : I w.host.store) :
    I (w.turn Memory.store).host.store := by
  rcases turn_cases Memory.store w with ⟨-, hturn⟩ | ⟨j, rest, js, hj, -, hhost, -⟩ | ⟨x, rest, v, -, -, hhost, hturn⟩
  · rwa [hturn]
  · have hmem : Runner.job j ∈ w.resume.runners := runners_of_ready hj ▸ List.mem_cons_self
    rw [hhost]
    exact (advanceTask_keeps hI (hw.resume.tasks j hmem P hP) hs).1
  · rw [hturn]
    show I v.host.store
    rw [hhost]
    exact Sweeper.catchUp_keeps hP hI _ _ hs

theorem Sound.withSweeper (hw : w.Sound) (x : Sweeper) : (w.withSweeper x).Sound where
  keyed := hw.keyed
  tasks j hj := by
    rcases List.mem_cons.mp ((runners_withSweeper w x).mem_iff.mp hj) with heq | hj
    · cases heq
    · exact hw.tasks j hj

theorem Sound.turn (hw : w.Sound) : (w.turn Memory.store).Sound := by
  have hkeyed := hw.turn_keeps JobRecord.isKept_true Request.upholds_keyed hw.keyed
  rcases turn_cases Memory.store w with
    ⟨-, hturn⟩ | ⟨j, rest, js, hj, hext, -, hjs⟩ | ⟨x, rest, v, hx, hext, hhost, hturn⟩
  · rwa [hturn]
  · have hmem : Runner.job j ∈ w.resume.runners := runners_of_ready hj ▸ List.mem_cons_self
    refine (hw.resume.withReady hj).extends hext hkeyed fun k hk P hP => ?_
    obtain ⟨x, task, hrest, htask⟩ := hjs.tasks k hk
    -- The rest begins after a wait, so it keeps every such property, whichever the task was known to keep before.
    have hkeeps := (advanceTask_keeps Request.upholds_keyed (hw.resume.tasks j hmem _ JobRecord.isKept_true)
      hw.keyed).2 x task hrest
    rcases htask with htask | ⟨y, htask⟩
    · rw [htask]
      exact hkeeps P hP
    · rw [htask]
      exact hkeeps
  · rw [hturn] at hkeyed ⊢
    exact ((hw.resume.withReady hx).extends hext hkeyed nofun).withSweeper _

theorem turn_clock (w : Schedule Memory) : (w.turn Memory.store).host.clock = w.host.clock := by
  rcases turn_cases Memory.store w with ⟨-, hturn⟩ | ⟨j, rest, js, -, -, hhost, -⟩ | ⟨x, rest, v, -, -, hhost, hturn⟩
  · rw [hturn]
  · rw [hhost, advanceTask_clock]
  · rw [hturn]
    exact (congrArg Host.clock hhost).trans (Sweeper.catchUp_clock _ _ _)

theorem mem_runners {r : Runner} : r ∈ w.runners ↔ r ∈ w.ready ∨ (∃ j ∈ w.postponed, .job j = r) ∨
    (∃ e ∈ w.waiting, .job e.2 = r) ∨ ∃ e ∈ w.timers, e.2 = r := by
  simp only [runners, List.mem_append, List.mem_map, or_assoc]

/-- A step brings in no runner but the work that it begins or the sweeper that it starts. -/
theorem mem_runners_enter {r : Runner} (hr : r ∈ (w.enter y).runners) : r ∈ w.runners ∨
    (∃ m c work, y = .spawn m c work ∧
      r = .job { number := w.started, task := work.task m c, turns := 2 * work.turns }) ∨
    ∃ m interval, y = .startSweeper m interval ∧ r = .sweeper ⟨w.sweepers, m, interval, w.elapsed⟩ := by
  cases y with
  | operation o a ha => exact .inl ((extends_update w _).runners.mem_iff.mp hr)
  | call c => exact .inl hr
  | setClock now => exact .inl hr
  | spawn m c work =>
    rw [mem_runners] at hr
    rcases hr with hr | hr
    · rcases List.mem_append.mp hr with hr | hr
      · exact .inl (mem_runners.mpr (.inl hr))
      · exact .inr (.inl ⟨m, c, work, rfl, List.mem_singleton.mp hr⟩)
    · exact .inl (mem_runners.mpr (.inr hr))
  | startSweeper m interval =>
    rw [mem_runners] at hr
    rcases hr with hr | hr
    · rcases List.mem_append.mp hr with hr | hr
      · exact .inl (mem_runners.mpr (.inl hr))
      · exact .inr (.inr ⟨m, interval, rfl, List.mem_singleton.mp hr⟩)
    · exact .inl (mem_runners.mpr (.inr hr))
  | stopSweeper number =>
    rw [mem_runners] at hr
    refine .inl (mem_runners.mpr ?_)
    rcases hr with hr | hr | hr | ⟨e, he, rfl⟩
    · exact .inl (List.mem_filter.mp hr).1
    · exact .inr (.inl hr)
    · exact .inr (.inr (.inl hr))
    · exact .inr (.inr (.inr ⟨e, (List.mem_filter.mp he).1, rfl⟩))
  | pass d =>
    rw [mem_runners] at hr
    refine .inl (mem_runners.mpr ?_)
    rcases hr with hr | hr | hr | ⟨e, he, rfl⟩
    · rcases List.mem_append.mp hr with hr | hr
      · exact .inl hr
      · obtain ⟨e, he, rfl⟩ := List.mem_map.mp hr
        exact .inr (.inr (.inr ⟨e, (List.mem_filter.mp he).1, rfl⟩))
    · exact .inr (.inl hr)
    · exact .inr (.inr (.inl hr))
    · exact .inr (.inr (.inr ⟨e, (List.mem_filter.mp he).1, rfl⟩))

/-- What is kept of the records is kept by what a step does itself, if it makes no other call of the store. -/
theorem enter_keeps (hP : JobRecord.IsKept P) (hI : Request.Upholds P I)
    (hy : ∀ c, y = .call c → (Request.keeping P).MayAsk (.store c)) (hs : I w.host.store) :
    I (w.enter y).host.store := by
  cases y with
  | operation o a ha =>
    show I (w.update _).host.store
    rw [host_update]
    exact Host.perform_keeps hI (keeps_action hP ha) hs
  | call c => exact (hI (.store c) w.host hs (hy c rfl)).2
  | spawn _ _ _ | startSweeper _ _ | stopSweeper _ | setClock _ | pass _ => exact hs

theorem Sound.enter (hw : w.Sound) (y : Step) : (w.enter y).Sound where
  keyed := by
    refine enter_keeps JobRecord.isKept_true Request.upholds_keyed (fun c _ => ?_) hw.keyed
    cases c <;> exact trivial
  tasks j hj P hP := by
    rcases mem_runners_enter hj with hold | ⟨m, c, work, -, hnew⟩ | ⟨m, interval, -, hnew⟩
    · exact hw.tasks j hold P hP
    · obtain rfl := Runner.job.inj hnew
      exact Task.keeps_work m c work
    · cases hnew

theorem Sound.step (hw : w.Sound) (y : Step) : (w.step y).Sound :=
  step_induct (hw.enter y) fun _ hv => hv.turn

theorem Sound.start (now : Instant) : (start now Memory.empty).Sound :=
  ⟨Memory.empty_keyed, nofun⟩

end keeps

/-! ### Sweepers -/

section sweepers
variable {σ : Type} {s : StatusStore σ} {w v : Schedule σ} {x : Sweeper}

/-- A sweeper is ready to sweep, or waits for its time. -/
def Holds (w : Schedule σ) (x : Sweeper) : Prop :=
  (Runner.sweeper x ∈ w.ready ∧ x.due ≤ w.elapsed) ∨ ((x.due, Runner.sweeper x) ∈ w.timers ∧ w.elapsed < x.due)

theorem Holds.extends {js : List RunningJob} (hx : w.Holds x) (h : w.Extends v js) : v.Holds x := by
  rw [Holds, h.elapsed]
  exact hx.imp (fun hx => ⟨h.ready hx.1, hx.2⟩) fun hx => ⟨h.timers hx.1, hx.2⟩

/-- A turn takes no time and starts no sweeper. -/
private theorem turn_same (s : StatusStore σ) (w : Schedule σ) :
    (w.turn s).elapsed = w.elapsed ∧ (w.turn s).sweepers = w.sweepers := by
  have hresume := w.extends_resume
  rcases turn_cases s w with ⟨-, hturn⟩ | ⟨j, rest, js, -, hext, -⟩ | ⟨x, rest, v, -, hext, -, hturn⟩
  · rw [hturn]
    exact ⟨rfl, rfl⟩
  · exact ⟨hext.elapsed.trans hresume.elapsed, hext.sweepers.trans hresume.sweepers⟩
  · rw [hturn]
    exact ⟨hext.elapsed.trans hresume.elapsed, hext.sweepers.trans hresume.sweepers⟩

theorem turn_elapsed (s : StatusStore σ) (w : Schedule σ) : (w.turn s).elapsed = w.elapsed := (w.turn_same s).1

theorem turn_sweepers (s : StatusStore σ) (w : Schedule σ) : (w.turn s).sweepers = w.sweepers := (w.turn_same s).2

theorem Holds.withSweeper (hx : w.Holds x) (y : Sweeper) : (w.withSweeper y).Holds x :=
  hx.imp_right fun hx => ⟨subset_addTimer _ _ _ hx.1, hx.2⟩

private theorem holds_withSweeper (hx : w.elapsed < x.due) : (w.withSweeper x).Holds x :=
  .inr ⟨(addTimer_perm _ _ _).mem_iff.mpr List.mem_cons_self, hx⟩

/-- A sweeper stays until it sweeps, and then waits for the time of the next sweep. -/
theorem Holds.turn (hx : w.Holds x) : (w.turn s).Holds x ∨ (x.due ≤ w.elapsed ∧
    (w.turn s).host = (x.catchUp s w.elapsed w.host).2 ∧ (w.turn s).Holds (x.catchUp s w.elapsed w.host).1) := by
  have hresume := hx.extends w.extends_resume
  rcases turn_cases s w with ⟨-, hturn⟩ | ⟨j, rest, js, hj, hext, -⟩ | ⟨y, rest, v, hy, hext, hhost, hturn⟩
  · rw [hturn]
    exact .inl hx
  · have hrest : (w.resume.withReady rest).Holds x := by
      refine hresume.imp_left fun hx => ⟨?_, hx.2⟩
      rcases List.mem_cons.mp (hj ▸ hx.1 : Runner.sweeper x ∈ Runner.job j :: rest) with heq | hmem
      · cases heq
      · exact hmem
    exact .inl (hrest.extends hext)
  · have helapsed : v.elapsed = w.elapsed := hext.elapsed.trans w.extends_resume.elapsed
    have hkeep : (w.resume.withReady rest).Holds x → (w.turn s).Holds x := fun h =>
      hturn ▸ (h.extends hext).withSweeper _
    -- If it is ready, it may be the one whose turn it is.
    rcases hresume with ⟨hready, hdue⟩ | htimer
    · rcases List.mem_cons.mp (hy ▸ hready : Runner.sweeper x ∈ Runner.sweeper y :: rest) with heq | hmem
      · obtain rfl := Runner.sweeper.inj heq
        rw [hturn]
        refine .inr ⟨w.extends_resume.elapsed ▸ hdue, hhost, holds_withSweeper ?_⟩
        rw [helapsed]
        exact Sweeper.lt_due_catchUp s w.elapsed x w.host
      · exact .inl (hkeep (.inl ⟨hmem, hdue⟩))
    · exact .inl (hkeep (.inr htimer))

end sweepers

theorem enter_elapsed (w : Schedule Memory) (y : Step) : (w.enter y).elapsed = w.elapsed + y.milliseconds := by
  cases y with
  | operation o a ha => exact (extends_update w _).elapsed
  | spawn _ _ _ | call _ | startSweeper _ _ | stopSweeper _ | setClock _ | pass _ => rfl

/-- A sweeper that is not stopped stays. -/
theorem Holds.enter (hx : w.Holds x) (hy : y ≠ .stopSweeper x.number) : (w.enter y).Holds x := by
  cases y with
  | operation o a ha => exact hx.extends (extends_update w _)
  | call c => exact hx
  | setClock now => exact hx
  | spawn m c work => exact hx.imp_left fun h => ⟨List.mem_append_left _ h.1, h.2⟩
  | startSweeper m interval => exact hx.imp_left fun h => ⟨List.mem_append_left _ h.1, h.2⟩
  | stopSweeper number =>
    have hother : isSweeper number (.sweeper x) = false := by
      rw [isSweeper, beq_eq_false_iff_ne]
      rintro rfl
      exact hy rfl
    refine hx.imp (fun h => ⟨List.mem_filter.mpr ⟨h.1, ?_⟩, h.2⟩) fun h => ⟨List.mem_filter.mpr ⟨h.1, ?_⟩, h.2⟩
    · rw [hother]
      rfl
    · rw [hother]
      rfl
  | pass d =>
    rcases hx with ⟨hready, hdue⟩ | ⟨htimer, hdue⟩
    · exact .inl ⟨List.mem_append_left _ hready, Nat.le_trans hdue (Nat.le_add_right _ _)⟩
    · rcases Nat.lt_or_ge (w.elapsed + d.milliseconds) x.due with hlater | hover
      · exact .inr ⟨List.mem_filter.mpr ⟨htimer, decide_eq_true hlater⟩, hlater⟩
      · refine .inl ⟨List.mem_append_right _ (List.mem_map.mpr ⟨_, List.mem_filter.mpr ⟨htimer, ?_⟩, rfl⟩), hover⟩
        exact decide_eq_true hover

private theorem step_elapsed (w : Schedule Memory) (y : Step) : (w.step y).elapsed = w.elapsed + y.milliseconds :=
  step_induct (I := fun v => v.elapsed = w.elapsed + y.milliseconds) (w.enter_elapsed y)
    fun v hv => (v.turn_elapsed Memory.store).trans hv

theorem step_clock (w : Schedule Memory) (y : Step) : (w.step y).host.clock = (w.enter y).host.clock :=
  step_induct (I := fun v => v.host.clock = (w.enter y).host.clock) rfl fun v hv => v.turn_clock.trans hv

/-- The time that passes in a run. -/
theorem run_elapsed (w : Schedule Memory) (ys : List Step) :
    (w.run ys).elapsed = w.elapsed + (ys.map Step.milliseconds).sum := by
  induction ys generalizing w with
  | nil => rfl
  | cons y ys ih =>
    show ((w.step y).run ys).elapsed = _
    rw [ih, step_elapsed, List.map_cons, List.sum_cons, Nat.add_assoc]

/-- Work that is submitted is a job that is created and then work that is begun, unless the creation fails. -/
theorem submit_eq_run (w : Schedule Memory) (m : Manager) (id : JobId) (request : NewJob) (work : Work) :
    ∃ ys : List Step, (∀ y ∈ ys, ∃ c, y = .spawn m c work) ∧ (w.submit Memory.store m id request work).2 =
      w.run (.operation (.create m id request) (m.create id request) rfl :: ys) := by
  rw [submit]
  split
  case h_1 r c v hcreate =>
    refine ⟨[.spawn m c work], fun y hy => ⟨c, List.mem_singleton.mp hy⟩, ?_⟩
    show _ = ((w.perform Memory.store (m.create id request)).2.spawn Memory.store m c work).2
    rw [hcreate]
  case h_2 e v hcreate =>
    refine ⟨[], List.forall_mem_nil _, ?_⟩
    show _ = (w.perform Memory.store (m.create id request)).2
    rw [hcreate]

end Schedule

end JobLedger
