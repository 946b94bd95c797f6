import JobLedger.Lifecycle.Sweep
import JobLedger.Proofs.HostAnswers
import JobLedger.Proofs.RecordMarks

/-!
# The accounts of a sweep

Whatever a store answers, a sweep asks it for the expired jobs and then to replace the record of each one that is
open, once and in the order in which they were found. The report tells what became of all of them, and a signal fires
exactly for a tracked job that the store let be timed out. Main statement: `sweep_accounts_for_every_job`.
-/
namespace JobLedger

/-- The call of the store that a request is, with its answer. -/
def Request.call? : (q : Request) → q.Answer → Option ((c : StoreCall) × c.Answer)
  | .store c, a => some ⟨c, a⟩
  | _, _ => none

namespace Host

variable {σ α β : Type} {S : StatusStore σ} {h h' : Host σ}

/-- The calls that an operation makes of the store if nothing interrupts it, each with its answer. -/
def calls (S : StatusStore σ) : Action α → Host σ → List ((c : StoreCall) × c.Answer)
  | .done _, _ => []
  | .ask q k, h => (q.call? (h.answer S q).1).toList ++ calls S (k (h.answer S q).1) (h.answer S q).2

@[simp] theorem calls_done (a : α) (h : Host σ) : h.calls S (.done a) = [] := rfl

private theorem calls_ask {q : Request} {k : q.Answer → Action α} {a : q.Answer} (ha : h.answer S q = (a, h')) :
    h.calls S (.ask q k) = (q.call? a).toList ++ h'.calls S (k a) := by
  rw [calls, ha]

private theorem calls_bind (a : Action α) (f : α → Action β) (h : Host σ) :
    h.calls S (a >>= f) = h.calls S a ++ (h.perform S a).2.calls S (f (h.perform S a).1) := by
  induction a generalizing h with
  | done a => rfl
  | ask q k ih =>
    have hperform : h.perform S (.ask q k) = (h.answer S q).2.perform S (k (h.answer S q).1) := perform_ask rfl
    rw [hperform, Dialogue.bind_ask, calls, calls, ih, List.append_assoc]

end Host

namespace Sweep

/-- The record of an open job after it was timed out. -/
def timedOut (clock : Instant) (r : JobRecord) : JobRecord :=
  { r with
    state := .timedOut, lastUpdatedAt := clock, completedAt := some clock
    resultPayload := none, errorDetail := none
    errorMessage := some ("job exceeded its timeout of " ++ toString r.timeoutSeconds.toNat ++ "s") }

private theorem timeoutMessage_eq (seconds : UInt64) :
    timeoutMessage seconds = "job exceeded its timeout of " ++ toString seconds.toNat ++ "s" :=
  congrArg (fun number => "job exceeded its timeout of " ++ number ++ "s") (Decimal.text_eq_toString _)

@[simp] theorem timedOut_id (clock : Instant) (r : JobRecord) : (timedOut clock r).id = r.id := rfl

private theorem marked_timedOut (clock : Instant) (r : JobRecord) :
    r.marked clock (.timedOut (timeoutMessage r.timeoutSeconds)) = timedOut clock r := by
  rw [timeoutMessage_eq, JobRecord.marked, timedOut]

/-- What became of a job that a sweep found. -/
inductive Fate where
  | timedOut
  | skipped
  | failed
deriving DecidableEq

/-- What the answer to the replacement of a record says about its job. -/
def fate : Except StoreError JobRecord → Fate
  | .ok _ => .timedOut
  | .error (.alreadyTerminal _ _) | .error (.notFound _) => .skipped
  | .error (.duplicateId _) | .error (.unavailable _) | .error (.serialization _) => .failed

/-- The report with one more job. -/
def enter (report : SweepReport) : Fate → SweepReport
  | .timedOut => { report with timedOut := report.timedOut + 1 }
  | .skipped => { report with skipped := report.skipped + 1 }
  | .failed => { report with failed := report.failed + 1 }

variable {m : Manager} {r : JobRecord} {report : SweepReport}

/-- A job that has ended is passed over. -/
private theorem expire_of_terminal (hr : r.isTerminal = true) :
    expire m r report = .ask .clock fun _ => .done (enter report .skipped) := by
  rw [expire, Action.clock, Dialogue.question_bind]
  congr 1
  funext clock
  have hmark := JobRecord.mark_eq r (.timedOut (timeoutMessage r.timeoutSeconds)) clock
  rw [if_pos hr] at hmark
  change r.markTimedOut _ clock = _ at hmark
  simp only [hmark]
  rfl

/-- An open job is replaced, and signalled if the store allows it. -/
private theorem expire_of_open (hr : r.isTerminal = false) :
    expire m r report = .ask .clock fun clock => .ask (.store (.update (timedOut clock r))) fun a =>
      match a with
      | .ok _ => .ask (.signal m.number r.id) fun _ => .done (enter report (fate a))
      | .error _ => .done (enter report (fate a)) := by
  rw [expire, Action.clock, Dialogue.question_bind]
  congr 1
  funext clock
  have hmark := JobRecord.mark_of_open hr (.timedOut (timeoutMessage r.timeoutSeconds)) clock
  change r.markTimedOut _ clock = _ at hmark
  simp only [hmark]
  rw [Action.call, Dialogue.question_bind, marked_timedOut]
  congr 1
  funext a
  rcases a with e | _
  · cases e <;> rfl
  · rfl

section
variable {σ : Type} {S : StatusStore σ} {h h' : Host σ} {a : Except StoreError JobRecord}

/-- What the process is like after an open job was to be timed out and the store has answered. -/
structure Expires (S : StatusStore σ) (m : Manager) (r : JobRecord) (h : Host σ) (a : Except StoreError JobRecord)
    (h' : Host σ) : Prop where
  answer : S.perform h.clock (.update (timedOut h.clock r)) h.store = (a, h'.store)
  frame : h' = { h with store := h'.store, fired := h'.fired }
  fired : ∀ n, h'.isCancelled n = true ↔
    h.isCancelled n = true ∨ fate a = .timedOut ∧ h.tracked.get? (m.number, r.id) = some n

theorem Expires.clock (he : Expires S m r h a h') : h'.clock = h.clock := by rw [he.frame]

theorem Expires.tracked (he : Expires S m r h a h') : h'.tracked = h.tracked := by rw [he.frame]

private theorem perform_expire_of_terminal (hr : r.isTerminal = true) :
    h.perform S (expire m r report) = (enter report .skipped, h) := by
  rw [expire_of_terminal hr]
  rfl

private theorem calls_expire_of_terminal (hr : r.isTerminal = true) : h.calls S (expire m r report) = [] := by
  rw [expire_of_terminal hr]
  rfl

/-- An open job costs one call of the store. -/
theorem expires_of_open (m : Manager) (hr : r.isTerminal = false) (report : SweepReport) (h : Host σ) :
    ∃ a h', Expires S m r h a h' ∧ h.perform S (expire m r report) = (enter report (fate a), h') ∧
      h.calls S (expire m r report) = [⟨.update (timedOut h.clock r), a⟩] := by
  have hclock : h.answer S .clock = (h.clock, h) := rfl
  cases hp : S.perform h.clock (.update (timedOut h.clock r)) h.store with
  | mk a x =>
    rw [expire_of_open hr, Host.perform_ask hclock, Host.perform_ask (Host.answer_call hp), Host.calls_ask hclock,
      Host.calls_ask (Host.answer_call hp)]
    cases a with
    | error e =>
      refine ⟨.error e, { h with store := x }, ⟨hp, rfl, fun n => ?_⟩, rfl, rfl⟩
      have hfate : fate (.error e) ≠ .timedOut := by cases e <;> simp [fate]
      simp [hfate, Host.isCancelled]
    | ok next =>
      let h₁ : Host σ := { h with store := x }
      refine ⟨.ok next, (h₁.answer S (.signal m.number r.id)).2, ⟨?_, ?_, fun n => ?_⟩, rfl, rfl⟩
      · rw [Host.signal_eq, hp]
      · rw [Host.signal_eq]
      · rw [Host.isCancelled_signal]
        simp [h₁, fate, Host.isCancelled]

/-- The jobs that have not ended. -/
def openJobs (rs : List JobRecord) : List JobRecord := rs.filter fun r => !r.isTerminal

private theorem openJobs_cons_of_terminal (hr : r.isTerminal = true) (rs : List JobRecord) :
    openJobs (r :: rs) = openJobs rs := by simp [openJobs, hr]

private theorem openJobs_cons_of_open (hr : r.isTerminal = false) (rs : List JobRecord) :
    openJobs (r :: rs) = r :: openJobs rs := by simp [openJobs, hr]

/-- What timing out jobs comes to if the store answers so for those that are open. -/
structure Accounts (S : StatusStore σ) (m : Manager) (rs : List JobRecord) (report : SweepReport) (h : Host σ)
    (answers : List (Except StoreError JobRecord)) : Prop where
  length : answers.length = (openJobs rs).length
  calls : h.calls S (expireAll m rs report) =
    List.zipWith (fun r a => ⟨.update (timedOut h.clock r), a⟩) (openJobs rs) answers
  reported : (h.perform S (expireAll m rs report)).1 =
    { report with
      timedOut := report.timedOut + (answers.map fate).count .timedOut
      skipped := report.skipped + (rs.countP JobRecord.isTerminal + (answers.map fate).count .skipped)
      failed := report.failed + (answers.map fate).count .failed }
  fired : ∀ n, (h.perform S (expireAll m rs report)).2.isCancelled n = true ↔ h.isCancelled n = true ∨
    ∃ r a, (r, a) ∈ (openJobs rs).zip answers ∧ fate a = .timedOut ∧ h.tracked.get? (m.number, r.id) = some n

/-- A job that has ended is only counted. -/
private theorem Accounts.cons_of_terminal {rs : List JobRecord} {answers : List (Except StoreError JobRecord)}
    (hr : r.isTerminal = true) (hacc : Accounts S m rs (enter report .skipped) h answers) :
    Accounts S m (r :: rs) report h answers := by
  have hperform : h.perform S (expireAll m (r :: rs) report) =
      h.perform S (expireAll m rs (enter report .skipped)) := by
    rw [expireAll, Host.perform_bind, perform_expire_of_terminal hr]
  constructor
  case length => rw [openJobs_cons_of_terminal hr, hacc.length]
  case calls =>
    rw [expireAll, Host.calls_bind, perform_expire_of_terminal hr, calls_expire_of_terminal hr, List.nil_append,
      openJobs_cons_of_terminal hr, hacc.calls]
  case reported =>
    rw [hperform, hacc.reported, List.countP_cons_of_pos hr]
    simp only [enter, SweepReport.mk.injEq, true_and, and_true]
    omega
  case fired =>
    rw [hperform, openJobs_cons_of_terminal hr]
    exact hacc.fired

/-- An open job is replaced before the others that follow, whatever the store answers. -/
private theorem Accounts.cons_of_open {rs : List JobRecord} {answers : List (Except StoreError JobRecord)}
    (hr : r.isTerminal = false) (he : Expires S m r h a h')
    (hperform : h.perform S (expire m r report) = (enter report (fate a), h'))
    (hcalls : h.calls S (expire m r report) = [⟨.update (timedOut h.clock r), a⟩])
    (hacc : Accounts S m rs (enter report (fate a)) h' answers) : Accounts S m (r :: rs) report h (a :: answers) := by
  have hrest : h.perform S (expireAll m (r :: rs) report) =
      h'.perform S (expireAll m rs (enter report (fate a))) := by
    rw [expireAll, Host.perform_bind, hperform]
  constructor
  case length => rw [openJobs_cons_of_open hr, List.length_cons, List.length_cons, hacc.length]
  case calls =>
    rw [expireAll, Host.calls_bind, hperform, hcalls, openJobs_cons_of_open hr, hacc.calls, he.clock]
    rfl
  case reported =>
    rw [hrest, hacc.reported, List.countP_cons_of_neg (by simp [hr])]
    rw [List.map_cons]
    simp only [List.count_cons]
    cases fate a <;> simp [enter] <;> omega
  case fired =>
    intro n
    rw [hrest, hacc.fired, he.fired, he.tracked, openJobs_cons_of_open hr, List.zip_cons_cons]
    simp only [List.mem_cons, Prod.mk.injEq]
    constructor
    · rintro ((hn | ⟨hfate, hn⟩) | ⟨x, b, hx, hb, hn⟩)
      · exact .inl hn
      · exact .inr ⟨r, a, .inl ⟨rfl, rfl⟩, hfate, hn⟩
      · exact .inr ⟨x, b, .inr hx, hb, hn⟩
    · rintro (hn | ⟨x, b, ⟨rfl, rfl⟩ | hx, hb, hn⟩)
      · exact .inl (.inl hn)
      · exact .inl (.inr ⟨hb, hn⟩)
      · exact .inr ⟨x, b, hx, hb, hn⟩

private theorem exists_accounts (S : StatusStore σ) (m : Manager) (rs : List JobRecord) (report : SweepReport)
    (h : Host σ) :
    ∃ answers, Accounts S m rs report h answers := by
  induction rs generalizing report h with
  | nil => exact ⟨[], rfl, rfl, by simp [expireAll, Host.perform], by simp [expireAll, Host.perform, openJobs]⟩
  | cons r rs ih =>
    cases hr : r.isTerminal with
    | true =>
      obtain ⟨answers, hacc⟩ := ih (enter report .skipped) h
      exact ⟨answers, hacc.cons_of_terminal hr⟩
    | false =>
      obtain ⟨a, h', he, hperform, hcalls⟩ := expires_of_open m hr report h
      obtain ⟨answers, hacc⟩ := ih (enter report (fate a)) h'
      exact ⟨a :: answers, hacc.cons_of_open hr he hperform hcalls⟩

end

private theorem length_eq_counts (fates : List Fate) :
    fates.length = fates.count .timedOut + fates.count .skipped + fates.count .failed := by
  induction fates with
  | nil => rfl
  | cons f fates ih =>
    simp only [List.length_cons, List.count_cons]
    cases f <;> simp <;> omega

private theorem length_eq_terminal_add_open (rs : List JobRecord) :
    rs.length = rs.countP JobRecord.isTerminal + (openJobs rs).length := by
  rw [openJobs, ← List.countP_eq_length_filter]
  simpa using List.length_eq_countP_add_countP JobRecord.isTerminal

end Sweep

open Sweep in
/-- Of a store that may answer anything: if it finds expired jobs, it is asked to replace each one of them that is
open, once and in order, and no other; each job that was found is counted once, by what was answered; and the signals
fire of the tracked jobs for which the store allowed it. If it fails to find them, nothing else is asked. -/
theorem sweep_accounts_for_every_job {σ : Type} (S : StatusStore σ) (m : Manager) (now : Instant) (h : Host σ) :
    match (S.perform h.clock (.findExpired now) h.store).1 with
    | .error e => (h.perform S (m.sweepOnce now)).1 = .error e ∧
        h.calls S (m.sweepOnce now) = [⟨.findExpired now, .error e⟩] ∧
        (h.perform S (m.sweepOnce now)).2.fired = h.fired
    | .ok rs => ∃ report answers, (h.perform S (m.sweepOnce now)).1 = .ok report ∧
        report.expired = rs.length ∧ report.expired = report.timedOut + report.skipped + report.failed ∧
        answers.length = (openJobs rs).length ∧
        h.calls S (m.sweepOnce now) = ⟨.findExpired now, .ok rs⟩ ::
          List.zipWith (fun r a => ⟨.update (timedOut h.clock r), a⟩) (openJobs rs) answers ∧
        report.timedOut = (answers.map fate).count .timedOut ∧
        report.skipped = rs.countP JobRecord.isTerminal + (answers.map fate).count .skipped ∧
        report.failed = (answers.map fate).count .failed ∧
        ∀ n, (h.perform S (m.sweepOnce now)).2.isCancelled n = true ↔ h.isCancelled n = true ∨
          ∃ r a, (r, a) ∈ (openJobs rs).zip answers ∧ fate a = .timedOut ∧
            h.tracked.get? (m.number, r.id) = some n := by
  cases hp : S.perform h.clock (.findExpired now) h.store with
  | mk found x =>
    have hanswer : h.answer S (.store (.findExpired now)) = (found, { h with store := x }) := Host.answer_call hp
    rw [Manager.sweepOnce, Action.call, Dialogue.question_bind, Host.perform_ask hanswer, Host.calls_ask hanswer]
    cases found with
    | error e => exact ⟨rfl, rfl, rfl⟩
    | ok rs =>
      obtain ⟨answers, hacc⟩ := exists_accounts S m rs ⟨rs.length, 0, 0, 0⟩ { h with store := x }
      dsimp only
      rw [Host.perform_bind, Host.calls_bind, hacc.reported, hacc.calls, Host.perform]
      simp only [Nat.zero_add]
      refine ⟨_, answers, rfl, rfl, ?_, hacc.length, by simp [Request.call?], rfl, rfl, rfl, hacc.fired⟩
      have hfates := length_eq_counts (answers.map fate)
      rw [List.length_map, hacc.length] at hfates
      have hjobs := length_eq_terminal_add_open rs
      dsimp only
      omega

end JobLedger
