import JobLedger.Lifecycle.Schedule
import Mathlib.Algebra.BigOperators.Group.List.Basic
import Mathlib.Algebra.GroupWithZero.Nat
import Mathlib.Data.List.Perm.Basic

/-!
# Turns of a schedule

Whatever a process runs is in one of four places: ready, postponed, waiting for a signal or for a time. A turn takes one
runner and puts at most one in its place, a job with fewer turns left or the sweeper with a later time; all others
stay, though a job may become ready. So the turns come to an end: nothing is ready then. Main statements: `turn_cases`,
`isIdle_settle`.
-/
namespace JobLedger.Schedule

variable {σ : Type} {s : StatusStore σ} {w v u : Schedule σ} {js ks : List RunningJob}

/-- All that a process runs, wherever it is. -/
def runners (w : Schedule σ) : List Runner :=
  w.ready ++ w.postponed.map .job ++ w.waiting.map (fun j => .job j.2) ++ w.timers.map Prod.snd

/-- Nothing can run. -/
def IsIdle (w : Schedule σ) : Prop := w.ready = [] ∧ w.postponed = []

/-- Whether a runner is a sweeper. -/
def sweeps : Runner → Bool
  | .sweeper _ => true
  | .job _ => false

/-- A later process in which nothing that was ready or waited for a time has run, and some jobs were added. -/
structure Extends (w v : Schedule σ) (js : List RunningJob) : Prop where
  elapsed : v.elapsed = w.elapsed
  sweepers : v.sweepers = w.sweepers
  ready : w.ready ⊆ v.ready
  timers : w.timers ⊆ v.timers
  /-- Only jobs became ready. -/
  sweeping : v.ready.countP sweeps = w.ready.countP sweeps
  runners : v.runners.Perm (js.map .job ++ w.runners)

theorem Extends.refl (w : Schedule σ) : w.Extends w [] :=
  ⟨rfl, rfl, List.Subset.refl _, List.Subset.refl _, rfl, List.Perm.refl _⟩

theorem Extends.trans (h : w.Extends v js) (h' : v.Extends u ks) : w.Extends u (ks ++ js) where
  elapsed := h'.elapsed.trans h.elapsed
  sweepers := h'.sweepers.trans h.sweepers
  ready := List.Subset.trans h.ready h'.ready
  timers := List.Subset.trans h.timers h'.timers
  sweeping := h'.sweeping.trans h.sweeping
  runners := by
    rw [List.map_append, List.append_assoc]
    exact h'.runners.trans (h.runners.append_left _)

/-! ### Signals -/

private theorem countP_sweeps_jobs {α : Type} (f : α → RunningJob) (xs : List α) :
    (xs.map fun a => Runner.job (f a)).countP sweeps = 0 := by
  rw [List.countP_eq_zero]
  simp [sweeps]

private theorem extends_wakeFor (w : Schedule σ) (context : Nat) : w.Extends (w.wakeFor context) [] where
  elapsed := rfl
  sweepers := rfl
  ready := List.subset_append_left _ _
  timers := List.Subset.refl _
  sweeping := by rw [wakeFor, List.countP_append, countP_sweeps_jobs, Nat.add_zero]
  runners := by
    have hwaiting := (List.filter_append_perm (fun j => j.1 == context) w.waiting).map fun j => Runner.job j.2
    rw [List.map_append] at hwaiting
    simp only [Schedule.runners, wakeFor, List.map_nil, List.nil_append, List.append_assoc]
    refine List.Perm.append_left _ ((List.perm_append_comm_assoc _ _ _).trans (List.Perm.append_left _ ?_))
    rw [← List.append_assoc]
    exact hwaiting.append_right _

private theorem extends_foldl_wakeFor (contexts : List Nat) (w : Schedule σ) :
    w.Extends (contexts.foldl wakeFor w) [] := by
  induction contexts generalizing w with
  | nil => exact .refl w
  | cons context contexts ih => exact (extends_wakeFor w context).trans (ih _)

private theorem host_foldl_wakeFor (contexts : List Nat) (w : Schedule σ) :
    (contexts.foldl wakeFor w).host = w.host := by
  induction contexts generalizing w with
  | nil => rfl
  | cons context contexts ih => exact ih _

/-- What waited for the signals that fired is ready. -/
theorem extends_update (w : Schedule σ) (h : Host σ) : w.Extends (w.update h) [] :=
  have hw : w.Extends { w with host := h } [] :=
    ⟨rfl, rfl, List.Subset.refl _, List.Subset.refl _, rfl, List.Perm.refl _⟩
  hw.trans (extends_foldl_wakeFor _ _)

@[simp] theorem host_update (w : Schedule σ) (h : Host σ) : (w.update h).host = h := host_foldl_wakeFor _ _

/-! ### Timers -/

theorem addTimer_perm (t : Nat) (r : Runner) (ts : List (Nat × Runner)) : (addTimer t r ts).Perm ((t, r) :: ts) := by
  induction ts with
  | nil => exact List.Perm.refl _
  | cons e ts ih =>
    rw [addTimer]
    split
    · exact (ih.cons e).trans (List.Perm.swap _ _ _)
    · exact List.Perm.refl _

private theorem runners_addTimer (w : Schedule σ) (t : Nat) (r : Runner) :
    ({ w with timers := addTimer t r w.timers } : Schedule σ).runners.Perm (r :: w.runners) := by
  have htimers := (addTimer_perm t r w.timers).map Prod.snd
  simp only [Schedule.runners]
  exact (htimers.append_left _).trans List.perm_middle

theorem subset_addTimer (t : Nat) (r : Runner) (ts : List (Nat × Runner)) : ts ⊆ addTimer t r ts := fun _ he =>
  (addTimer_perm t r ts).mem_iff.mpr (List.mem_cons_of_mem _ he)

/-! ### Jobs -/

/-- A job that was put aside: it goes on with its task, perhaps after a wait that is already over. -/
structure Suspends (j k : RunningJob) : Prop where
  turns : k.turns = j.turns
  task : k.task = j.task ∨ ∃ x, k.task = .ask (.wait x) fun _ => j.task

private theorem extends_suspend (w : Schedule σ) (j : RunningJob) (x : Wait) :
    ∃ k, w.Extends (w.suspend j x) [k] ∧ Suspends j k := by
  have hready : ∀ k, w.Extends { w with ready := .job k :: w.ready } [k] := fun k =>
    ⟨rfl, rfl, List.subset_cons_self _ _, List.Subset.refl _, by simp [sweeps], List.Perm.refl _⟩
  cases x with
  | turn =>
    refine ⟨{ j with sleeps := sleepsPerTurn }, ⟨rfl, rfl, List.subset_append_left _ _, List.Subset.refl _, ?_, ?_⟩,
      rfl, .inl rfl⟩
    · simp [suspend, sweeps]
    · simp only [suspend, Schedule.runners, List.append_assoc, List.cons_append, List.nil_append]
      exact List.perm_middle
  | signal context =>
    rw [suspend]
    split
    · exact ⟨j, hready j, rfl, .inl rfl⟩
    · refine ⟨{ j with sleeps := sleepsPerTurn }, ⟨rfl, rfl, List.Subset.refl _, List.Subset.refl _, rfl, ?_⟩,
        rfl, .inl rfl⟩
      simp only [Schedule.runners, List.map_append, List.append_assoc, List.map_cons, List.map_nil, List.cons_append,
        List.nil_append]
      rw [← List.append_assoc, ← List.append_assoc]
      refine List.perm_middle.trans ?_
      simp only [List.append_assoc]
      exact List.Perm.refl _
  | time ms =>
    rw [suspend]
    split
    · refine ⟨{ j with task := .ask (.wait (.time ms)) fun _ => j.task, sleeps := sleepsPerTurn },
        ⟨rfl, rfl, List.Subset.refl _, List.Subset.refl _, rfl, ?_⟩, rfl, .inr ⟨_, rfl⟩⟩
      simp only [Schedule.runners, List.map_cons, List.append_assoc, List.cons_append, List.map_nil, List.nil_append]
      exact List.perm_middle
    · split
      · exact ⟨{ j with sleeps := _ }, hready _, rfl, .inl rfl⟩
      · exact ⟨{ j with sleeps := sleepsPerTurn - 1 }, ⟨rfl, rfl, List.Subset.refl _, subset_addTimer _ _ _, rfl,
          runners_addTimer _ _ _⟩, rfl, .inl rfl⟩

/-- What is left of a job after a turn: the rest of its task, with a turn less, or nothing. -/
structure Leaves (s : StatusStore σ) (h : Host σ) (j : RunningJob) (js : List RunningJob) : Prop where
  turns : (js.map fun k => k.turns + 1).sum ≤ j.turns
  tasks : ∀ k ∈ js, ∃ x task, (advanceTask s j.task h).1 = some (x, task) ∧
    (k.task = task ∨ ∃ y, k.task = .ask (.wait y) fun _ => task)

private theorem extends_runJob (s : StatusStore σ) (j : RunningJob) (w : Schedule σ) :
    ∃ js, w.Extends (runJob s j w) js ∧ Leaves s w.host j js := by
  have hend : w.Extends { w.update (advanceTask s j.task w.host).2 with
      through := (w.update (advanceTask s j.task w.host).2).through ++ [j.number] } [] := by
    have h := extends_update w (advanceTask s j.task w.host).2
    exact ⟨h.elapsed, h.sweepers, h.ready, h.timers, h.sweeping, h.runners⟩
  rw [runJob]
  dsimp only
  split
  case h_1 x task turns hrest hturns =>
    obtain ⟨k, hk, hsuspends⟩ := extends_suspend (w.update (advanceTask s j.task w.host).2)
      { j with task := task, turns := turns } x
    refine ⟨[k], (extends_update w _).trans hk, ?_, ?_⟩
    · simp only [List.map_cons, List.map_nil, List.sum_cons, List.sum_nil, hsuspends.turns, hturns]
      omega
    · intro k' hk'
      obtain rfl := List.mem_singleton.mp hk'
      exact ⟨x, task, hrest, hsuspends.task⟩
  case h_2 => exact ⟨[], hend, Nat.zero_le _, nofun⟩

private theorem host_suspend (w : Schedule σ) (j : RunningJob) (x : Wait) : (w.suspend j x).host = w.host := by
  cases x with
  | turn => rfl
  | signal context =>
    rw [suspend]
    split <;> rfl
  | time ms =>
    rw [suspend]
    split
    · rfl
    · split <;> rfl

private theorem host_runJob (s : StatusStore σ) (j : RunningJob) (w : Schedule σ) :
    (runJob s j w).host = (advanceTask s j.task w.host).2 := by
  rw [runJob]
  dsimp only
  split
  · rw [host_suspend, host_update]
  · exact host_update _ _

/-! ### Turns -/

theorem extends_resume (w : Schedule σ) : w.Extends w.resume [] := by
  rw [resume]
  split
  case isTrue h =>
    have hnil : w.ready = [] := List.isEmpty_iff.mp h
    refine ⟨rfl, rfl, by simp [hnil], List.Subset.refl _, ?_, ?_⟩
    · rw [countP_sweeps_jobs, hnil, List.countP_nil]
    · simp [Schedule.runners, hnil]
  case isFalse => exact .refl w

@[simp] theorem host_resume (w : Schedule σ) : w.resume.host = w.host := by
  rw [resume]
  split <;> rfl

private theorem IsIdle.resume_eq (h : w.IsIdle) : w.resume = w := by
  obtain ⟨hready, hpostponed⟩ := h
  rw [resume, hready, List.isEmpty_nil, if_pos rfl, hpostponed, List.map_nil, ← hready, ← hpostponed]

private theorem isIdle_of_resume (h : w.resume.ready = []) : w.IsIdle := by
  have hready : w.ready = [] := List.subset_nil.mp (h ▸ w.extends_resume.ready)
  rw [resume, hready, List.isEmpty_nil, if_pos rfl] at h
  exact ⟨hready, List.map_eq_nil_iff.mp h⟩

/-- The process with other runners ready. -/
def withReady (w : Schedule σ) (rs : List Runner) : Schedule σ := { w with ready := rs }

theorem runners_of_ready {r : Runner} {rest : List Runner} (h : w.ready = r :: rest) :
    w.runners = r :: (w.withReady rest).runners := by
  simp [runners, withReady, h]

/-- The process with a sweeper that waits for its time. -/
def withSweeper (w : Schedule σ) (x : Sweeper) : Schedule σ :=
  { w with timers := addTimer x.due (.sweeper x) w.timers }

theorem runners_withSweeper (w : Schedule σ) (x : Sweeper) :
    (w.withSweeper x).runners.Perm (.sweeper x :: w.runners) := runners_addTimer w x.due (.sweeper x)

/-- A turn is that of the first runner that is ready, if there is one. A job leaves the rest of it, and a sweeper that
caught up waits for the next time. -/
theorem turn_cases (s : StatusStore σ) (w : Schedule σ) :
    (w.IsIdle ∧ w.turn s = w) ∨
      (∃ j rest js, w.resume.ready = .job j :: rest ∧ (w.resume.withReady rest).Extends (w.turn s) js ∧
        (w.turn s).host = (advanceTask s j.task w.host).2 ∧ Leaves s w.host j js) ∨
      ∃ x rest v, w.resume.ready = .sweeper x :: rest ∧ (w.resume.withReady rest).Extends v [] ∧
        v.host = (x.catchUp s w.elapsed w.host).2 ∧ w.turn s = v.withSweeper (x.catchUp s w.elapsed w.host).1 := by
  have hhost : ∀ rest, (w.resume.withReady rest).host = w.host := fun _ => w.host_resume
  have helapsed : ∀ rest, (w.resume.withReady rest).elapsed = w.elapsed := fun _ => w.extends_resume.elapsed
  rw [turn]
  split
  case h_1 hnil =>
    have hidle := isIdle_of_resume hnil
    exact .inl ⟨hidle, hidle.resume_eq⟩
  case h_2 j rest hj =>
    obtain ⟨js, hext, hjs⟩ := extends_runJob s j (w.resume.withReady rest)
    have hend := host_runJob s j (w.resume.withReady rest)
    rw [hhost] at hjs hend
    exact .inr (.inl ⟨j, rest, js, hj, hext, hend, hjs⟩)
  case h_3 x rest hx =>
    have hrun : runSweeper s x (w.resume.withReady rest) = withSweeper
        ((w.resume.withReady rest).update (x.catchUp s (w.resume.withReady rest).elapsed
          (w.resume.withReady rest).host).2)
        (x.catchUp s (w.resume.withReady rest).elapsed (w.resume.withReady rest).host).1 := rfl
    rw [hhost, helapsed] at hrun
    exact .inr (.inr ⟨x, rest, _, hx, extends_update _ _, host_update _ _, hrun⟩)

/-! ### The end of the turns -/

/-- The turns left to all, and one for each sweeper that is ready. -/
private theorem rank_eq (w : Schedule σ) : w.rank = (w.runners.map turnsLeft).sum + w.ready.countP sweeps := by
  have hready : ∀ rs : List Runner,
      (rs.map fun r => max (turnsLeft r) 1).sum = (rs.map turnsLeft).sum + rs.countP sweeps := by
    intro rs
    induction rs with
    | nil => rfl
    | cons r rs ih =>
      rw [List.map_cons, List.sum_cons, ih, List.map_cons, List.sum_cons, List.countP_cons]
      cases r with
      | job j =>
        simp only [turnsLeft, sweeps, Bool.false_eq_true, if_false]
        omega
      | sweeper x =>
        simp only [turnsLeft, sweeps, if_true]
        omega
  show List.sum _ = _
  simp only [runners, List.map_append, List.sum_append, List.map_map, hready]
  simp only [Function.comp_def]
  omega

private theorem Extends.rank_eq (h : w.Extends v js) : v.rank = (js.map fun j => j.turns + 1).sum + w.rank := by
  have hsum := (h.runners.map turnsLeft).sum_eq
  rw [List.map_append, List.sum_append, List.map_map] at hsum
  rw [Schedule.rank_eq, Schedule.rank_eq, h.sweeping, hsum, Nat.add_assoc]
  rfl

private theorem rank_of_ready {r : Runner} {rest : List Runner} (h : w.ready = r :: rest) :
    w.rank = max (turnsLeft r) 1 + (w.withReady rest).rank := by
  simp only [rank, withReady, h, List.map_cons, List.cons_append, List.foldr_cons]

private theorem rank_withSweeper (w : Schedule σ) (x : Sweeper) : (w.withSweeper x).rank = w.rank := by
  rw [rank_eq, rank_eq, ((runners_withSweeper w x).map turnsLeft).sum_eq, List.map_cons, List.sum_cons, turnsLeft,
    Nat.zero_add]
  rfl

private theorem isIdle_or_rank_turn_lt (s : StatusStore σ) (w : Schedule σ) :
    (w.IsIdle ∧ w.turn s = w) ∨ (w.turn s).rank < w.rank := by
  -- Runners that only move do not change the rank; the one that runs gives up a turn.
  have hresume : w.resume.rank = w.rank := (w.extends_resume.rank_eq).trans (Nat.zero_add _)
  rcases turn_cases s w with hidle | ⟨j, rest, js, hj, hext, -, hjs⟩ | ⟨x, rest, v, hx, hext, -, hturn⟩
  · exact .inl hidle
  · have hsum := hjs.turns
    right
    rw [hext.rank_eq, ← hresume, rank_of_ready hj, turnsLeft]
    omega
  · right
    rw [hturn, rank_withSweeper, hext.rank_eq, ← hresume, rank_of_ready hx, turnsLeft]
    simp

private theorem IsIdle.turnsFor_eq (h : w.IsIdle) (s : StatusStore σ) (n : Nat) : turnsFor s n w = w := by
  induction n with
  | zero => rfl
  | succ n ih =>
    rcases turn_cases s w with ⟨-, hturn⟩ | ⟨j, rest, js, hj, -⟩ | ⟨x, rest, v, hx, -⟩
    · rw [turnsFor, hturn, ih]
    · rw [h.resume_eq, h.1] at hj
      cases hj
    · rw [h.resume_eq, h.1] at hx
      cases hx

private theorem isIdle_turnsFor (s : StatusStore σ) {n : Nat} (h : w.rank ≤ n) : (turnsFor s n w).IsIdle := by
  induction n generalizing w with
  | zero =>
    rcases isIdle_or_rank_turn_lt s w with ⟨hidle, -⟩ | hlt
    · exact hidle
    · omega
  | succ n ih =>
    rcases isIdle_or_rank_turn_lt s w with ⟨hidle, -⟩ | hlt
    · rwa [hidle.turnsFor_eq]
    · exact ih (by omega)

/-- Nothing can run after all turns were taken. -/
theorem isIdle_settle (s : StatusStore σ) (w : Schedule σ) : (w.settle s).IsIdle := isIdle_turnsFor s (Nat.le_refl _)

end JobLedger.Schedule
