import JobLedger.Lifecycle.Host
import JobLedger.Lifecycle.Sweep
import JobLedger.Lifecycle.Work
/-!
# Schedules

Tasks and sweepers taking turns on one process. The ready ones run in the order in which they became ready,
each until it waits, or until so many of its sleeps were over at once that the others go first. Time moves
only when it is told to, in one jump, and then wakes what has come due in the order of the due times.
-/
namespace JobLedger

/-- How many sleeps of a job may be over in one turn. -/
def sleepsPerTurn : Nat := 128

/-- The task of a job, how often it may still wait, and how many more of its sleeps may be over in this
turn. -/
structure RunningJob where
  number : Nat
  task : Task Unit
  turns : Nat
  sleeps : Nat := sleepsPerTurn

/-- The longest wait in milliseconds: thirty years of 365 days. A longer one ends after this time. -/
def longestWait : Nat := 30 * 365 * 86400 * 1000

private theorem longestWait_pos : 0 < longestWait := by decide

/-- A sweeper that sweeps again and again. Times are milliseconds since the start of the process. -/
structure Sweeper where
  number : Nat
  manager : Manager
  interval : Span
  due : Nat

namespace Sweeper

/-- Milliseconds between two sweeps. -/
def period (x : Sweeper) : Nat := min (Sweep.normalize x.interval).milliseconds longestWait

private theorem period_pos (x : Sweeper) : 0 < x.period :=
  Nat.lt_min.2 ⟨Nat.lt_of_lt_of_le Nat.zero_lt_one (Nat.le_max_right x.interval.milliseconds 1),
    longestWait_pos⟩

/-- How late a sweep may be without moving those after it. -/
def tolerance : Nat := 5

/-- When to sweep next. After a late sweep the whole interval passes again. -/
def next (x : Sweeper) (elapsed : Nat) : Nat :=
  (if x.due + tolerance < elapsed then elapsed else x.due) + x.period

private theorem due_lt_next (x : Sweeper) (elapsed : Nat) : x.due < x.next elapsed := by
  have := x.period_pos
  unfold next; split <;> omega

/-- Sweep as often as it has come due. -/
def catchUp {σ : Type} (s : StatusStore σ) (elapsed : Nat) (x : Sweeper) (h : Host σ) :
    Sweeper × Host σ :=
  if x.due ≤ elapsed then
    catchUp s elapsed { x with due := x.next elapsed } (h.perform s (x.manager.sweepOnce h.clock)).2
  else (x, h)
termination_by elapsed + 1 - x.due
decreasing_by
  have := x.due_lt_next elapsed
  omega

end Sweeper

/-- What takes turns. -/
inductive Runner where
  | job (job : RunningJob)
  | sweeper (sweeper : Sweeper)

/-- A process with its tasks and sweepers. -/
structure Schedule (σ : Type) where
  host : Host σ
  /-- Milliseconds since the start of the process. -/
  elapsed : Nat := 0
  /-- What can run, first come first served. -/
  ready : List Runner := []
  /-- The jobs that have slept too often in one turn, the last one first. They go on when nothing is ready. -/
  postponed : List RunningJob := []
  waiting : List (Nat × RunningJob) := []
  /-- What waits for a time, in order. -/
  timers : List (Nat × Runner) := []
  started : Nat := 0
  through : List Nat := []
  sweepers : Nat := 0
  stopped : List Nat := []

namespace Schedule

variable {σ α : Type}

def start (now : Instant) (store : σ) : Schedule σ where
  host := { clock := now, store := store }

def wakeFor (w : Schedule σ) (context : Nat) : Schedule σ :=
  { w with
    ready := w.ready ++ (w.waiting.filter fun j => j.1 == context).map fun j => .job j.2
    waiting := w.waiting.filter fun j => j.1 != context }

/-- The process with a later state of its host. What waits for the signals fired meanwhile becomes ready,
in the order of firing. -/
def update (w : Schedule σ) (h : Host σ) : Schedule σ :=
  (h.fired.drop w.host.fired.length).foldl wakeFor { w with host := h }

/-- Timers with one more, which comes after those of the same time. -/
def addTimer (time : Nat) (r : Runner) : List (Nat × Runner) → List (Nat × Runner)
  | [] => [(time, r)]
  | (t, x) :: ts => if t ≤ time then (t, x) :: addTimer time r ts else (time, r) :: (t, x) :: ts

/-- A task carried on until it waits or ends. -/
def advanceTask (s : StatusStore σ) : Task Unit → Host σ → Option (Wait × Task Unit) × Host σ
  | .done _, h => (none, h)
  | .ask (.request q) k, h => advanceTask s (k (h.answer s q).1) (h.answer s q).2
  | .ask (.wait x) k, h => (some (x, k ()), h)

/-- A job that waits is put where it will be found. One that need not wait goes first. If no more sleeps may
be over in this turn, the sleep is postponed. -/
def suspend (w : Schedule σ) (j : RunningJob) : Wait → Schedule σ
  | .turn => { w with ready := w.ready ++ [.job { j with sleeps := sleepsPerTurn }] }
  | .signal context =>
    if w.host.isCancelled context then { w with ready := .job j :: w.ready }
    else { w with waiting := w.waiting ++ [(context, { j with sleeps := sleepsPerTurn })] }
  | .time ms =>
    match j.sleeps with
    | 0 =>
      let later := { j with task := .ask (.wait (.time ms)) fun _ => j.task, sleeps := sleepsPerTurn }
      { w with postponed := later :: w.postponed }
    | sleeps + 1 =>
      if ms = 0 then { w with ready := .job { j with sleeps := sleeps } :: w.ready }
      else
        let due := w.elapsed + min ms longestWait
        { w with timers := addTimer due (.job { j with sleeps := sleepsPerTurn - 1 }) w.timers }

def runJob (s : StatusStore σ) (j : RunningJob) (w : Schedule σ) : Schedule σ :=
  let (rest, h) := advanceTask s j.task w.host
  let w := w.update h
  match rest, j.turns with
  | some (x, task), turns + 1 => w.suspend { j with task := task, turns := turns } x
  | _, _ => { w with through := w.through ++ [j.number] }

def runSweeper (s : StatusStore σ) (x : Sweeper) (w : Schedule σ) : Schedule σ :=
  let (x, h) := x.catchUp s w.elapsed w.host
  let w := w.update h
  { w with timers := addTimer x.due (.sweeper x) w.timers }

/-- The process with the postponed jobs ready if nothing else is. -/
def resume (w : Schedule σ) : Schedule σ :=
  if w.ready.isEmpty then { w with ready := w.postponed.map .job, postponed := [] } else w

def turn (s : StatusStore σ) (w : Schedule σ) : Schedule σ :=
  let w := w.resume
  match w.ready with
  | [] => w
  | .job j :: rest => runJob s j { w with ready := rest }
  | .sweeper x :: rest => runSweeper s x { w with ready := rest }

/-- The turns left to a job. A sweeper that waits for a time has none. -/
def turnsLeft : Runner → Nat
  | .job j => j.turns + 1
  | .sweeper _ => 0

/-- A bound on the turns until nothing is ready: each turn takes one from it. -/
def rank (w : Schedule σ) : Nat :=
  let all := w.ready.map (fun r => max (turnsLeft r) 1) ++ w.postponed.map (fun j => turnsLeft (.job j)) ++
    w.waiting.map (fun j => turnsLeft (.job j.2)) ++ w.timers.map fun t => turnsLeft t.2
  all.foldr (· + ·) 0

def turnsFor (s : StatusStore σ) : Nat → Schedule σ → Schedule σ
  | 0, w => w
  | n + 1, w => turnsFor s n (w.turn s)

def settle (s : StatusStore σ) (w : Schedule σ) : Schedule σ := turnsFor s w.rank w

/-- An operation from outside, after which all that became ready runs. -/
def perform (s : StatusStore σ) (a : Action α) (w : Schedule σ) : α × Schedule σ :=
  let (r, h) := w.host.perform s a
  (r, (w.update h).settle s)

/-- Start the work of a job. Each of its waits may be postponed once. Answers the number of the task. -/
def spawn (s : StatusStore σ) (m : Manager) (c : JobContext) (work : Work) (w : Schedule σ) :
    Nat × Schedule σ :=
  let j : RunningJob := { number := w.started, task := work.task m c, turns := 2 * work.turns }
  let next : Schedule σ := { w with started := w.started + 1, ready := w.ready ++ [.job j] }
  (w.started, next.settle s)

def submit (s : StatusStore σ) (m : Manager) (id : JobId) (request : NewJob) (work : Work)
    (w : Schedule σ) : Except JobError JobRecord × Schedule σ :=
  match w.perform s (m.create id request) with
  | (.ok (r, c), w) => (.ok r, (w.spawn s m c work).2)
  | (.error e, w) => (.error e, w)

/-- Start a sweeper, which sweeps at once. Answers its number. -/
def startSweeper (s : StatusStore σ) (m : Manager) (interval : Span) (w : Schedule σ) :
    Nat × Schedule σ :=
  let x : Sweeper := ⟨w.sweepers, m, interval, w.elapsed⟩
  let next : Schedule σ := { w with sweepers := w.sweepers + 1, ready := w.ready ++ [.sweeper x] }
  (w.sweepers, next.settle s)

def isSweeper (number : Nat) : Runner → Bool
  | .sweeper x => x.number == number
  | .job _ => false

def stopSweeper (number : Nat) (w : Schedule σ) : Schedule σ :=
  { w with
    ready := w.ready.filter fun r => !isSweeper number r
    timers := w.timers.filter fun t => !isSweeper number t.2
    stopped := w.stopped ++ [number] }

/-- Set the clock, which moves no timer. -/
def setClock (now : Instant) (w : Schedule σ) : Schedule σ :=
  { w with host := { w.host with clock := now } }

/-- Let time pass: the clock and the timers move together, then what has come due runs. -/
def pass (s : StatusStore σ) (d : Span) (w : Schedule σ) : Schedule σ :=
  let elapsed := w.elapsed + d.milliseconds
  let next : Schedule σ := { w.setClock (w.host.clock.plus d) with
    elapsed := elapsed
    ready := w.ready ++ (w.timers.filter fun t => t.1 ≤ elapsed).map Prod.snd
    timers := w.timers.filter fun t => elapsed < t.1 }
  next.settle s

end Schedule

end JobLedger
