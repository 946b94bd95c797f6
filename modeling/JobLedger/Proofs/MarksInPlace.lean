import JobLedger.Proofs.RecordMarks

/-!
# Marks made in place

A record may be kept in one place and have its fields assigned one after another. A failure then leaves behind
what was assigned before it. Marks made in this way answer and change the record as marks do that yield a new
one: the only thing that can fail is the look at the state, which comes before every assignment. So a run of
marks ends with its first terminal one, and the marks that fail after it leave no trace.
-/
namespace JobLedger.JobRecord

/-- A course of assignments to a record. What was assigned before a failure stays. -/
abbrev Edit (α : Type) : Type := ExceptT JobError (StateM JobRecord) α

namespace Edit

/-- The assignment of fields, which never fails. -/
def assign (f : JobRecord → JobRecord) : Edit Unit := modify f

/-- The move of a record to another state at a time. -/
def transition (next : JobState) (now : Instant) : Edit Unit := do
  let r ← get
  if r.state.canBecome next then
    assign fun r => { r with state := next }
    assign fun r => { r with lastUpdatedAt := now }
    if next.isTerminal then assign fun r => { r with completedAt := some now }
  else throw (.conflict r.id r.state)

/-- The assignments of a mark at a time. -/
def ofMark (now : Instant) : Mark → Edit Unit
  | .running percent => do
    transition .running now
    assign fun r => { r with percentComplete := clampPercent percent }
  | .succeeded payload => do
    transition .succeeded now
    assign fun r => { r with percentComplete := 100 }
    assign fun r => { r with resultPayload := some payload }
    assign fun r => { r with errorMessage := none }
    assign fun r => { r with errorDetail := none }
  | .failed message detail => do
    transition .failed now
    assign fun r => { r with resultPayload := none }
    assign fun r => { r with errorMessage := some message }
    assign fun r => { r with errorDetail := detail }
  | .cancelled => do
    transition .cancelled now
    assign fun r => { r with cancellationRequested := true }
    assign fun r => { r with resultPayload := none }
  | .timedOut message => do
    transition .timedOut now
    assign fun r => { r with resultPayload := none }
    assign fun r => { r with errorMessage := some message }
    assign fun r => { r with errorDetail := none }

/-- The answer of a course of assignments, and the record after it. -/
def perform (e : Edit Unit) (r : JobRecord) : Except JobError Unit × JobRecord := (e.run.run r).run

/-- A course goes on from where another ends, unless that one fails. -/
theorem perform_bind (e : Edit Unit) (k : Unit → Edit Unit) (r : JobRecord) :
    (e >>= k).perform r = match e.perform r with
      | (.ok (), s) => (k ()).perform s
      | (.error x, s) => (.error x, s) := by
  change (ExceptT.bindCont k (e.perform r).1).run (e.perform r).2 = _
  rcases e.perform r with ⟨⟨⟩ | ⟨⟩, s⟩ <;> rfl

end Edit

/-- A record in one place, when a new one was to be put there. -/
def replacedBy (r : JobRecord) : Except JobError JobRecord → Except JobError Unit × JobRecord
  | .ok s => (.ok (), s)
  | .error e => (.error e, r)

namespace Edit

/-- The look at the state comes before every assignment. -/
private theorem perform_transition (r : JobRecord) (next : JobState) (now : Instant) :
    (transition next now).perform r = r.replacedBy (r.transition next now) := by
  change (if r.state.canBecome next then _ else _ : Edit Unit).perform r = _
  by_cases h : r.state.canBecome next
  · rw [JobRecord.transition, if_pos h, if_pos h]
    cases next.isTerminal <;> rfl
  · rw [JobRecord.transition, if_neg h, if_neg h]
    rfl

private theorem perform_transition_bind {k : Unit → Edit Unit} {f : JobRecord → JobRecord}
    (hk : ∀ s, (k ()).perform s = (.ok (), f s)) (r : JobRecord) (next : JobState) (now : Instant) :
    (transition next now >>= k).perform r = r.replacedBy ((r.transition next now).map f) := by
  rw [perform_bind, perform_transition]
  cases r.transition next now with
  | ok s => exact hk s
  | error e => rfl

/-- A mark made in place is the mark that yields a new record. One that fails leaves the record as it is. -/
private theorem perform_ofMark (r : JobRecord) (m : Mark) (now : Instant) :
    (ofMark now m).perform r = r.replacedBy (r.mark m now) := by
  cases m <;> exact perform_transition_bind (fun _ => rfl) r _ now

end Edit

/-- A mark with the time at which it is made. -/
structure Attempt where
  mark : Mark
  time : Instant

/-- Whether the mark ends the job. -/
def Attempt.isTerminal (a : Attempt) : Bool := a.mark.isTerminal

/-- The answer to a mark made in place, and the record after it. -/
def attempt (r : JobRecord) (a : Attempt) : Except JobError Unit × JobRecord := (Edit.ofMark a.time a.mark).perform r

/-- The record after marks made in place one after another, whatever is answered to them. -/
def after (r : JobRecord) (attempts : List Attempt) : JobRecord := attempts.foldl (fun r a => (r.attempt a).2) r

section
variable (r : JobRecord) (a : Attempt) (attempts : List Attempt)

private theorem attempt_eq : r.attempt a = if r.isTerminal then (.error (.conflict r.id r.state), r)
    else (.ok (), r.marked a.time a.mark) := by
  rw [attempt, Edit.perform_ofMark, mark_eq]
  cases r.isTerminal <;> rfl

private theorem attempt_of_terminal {r : JobRecord} (h : r.isTerminal = true) (a : Attempt) :
    r.attempt a = (.error (.conflict r.id r.state), r) := by
  rw [attempt_eq, if_pos h]

private theorem attempt_of_open {r : JobRecord} (h : r.isTerminal = false) (a : Attempt) :
    r.attempt a = (.ok (), r.marked a.time a.mark) := by
  rw [attempt_eq, if_neg (by simp [h])]

private theorem attempt_origin : (r.attempt a).2.origin = r.origin := by
  rw [attempt_eq]
  split
  · rfl
  · exact marked_origin r a.time a.mark

private theorem after_origin : (r.after attempts).origin = r.origin := by
  induction attempts generalizing r with
  | nil => rfl
  | cons a attempts ih => exact (ih _).trans (attempt_origin r a)

/-- A mark that ends jobs leaves an ended job behind, by itself or because it found one. -/
private theorem isTerminal_attempt (h : a.isTerminal = true) : (r.attempt a).2.isTerminal = true := by
  rw [attempt_eq]
  split
  · assumption
  · exact (marked_isTerminal r a.time a.mark).trans h

private theorem after_of_terminal {r : JobRecord} (h : r.isTerminal = true) (attempts : List Attempt) :
    r.after attempts = r := by
  induction attempts with
  | nil => rfl
  | cons a attempts ih =>
    change (r.attempt a).2.after attempts = r
    rw [attempt_of_terminal h, ih]

/-- The first mark that ends jobs decides the record, whether it succeeds or not. -/
private theorem after_take_findIdx :
    r.after (attempts.take (attempts.findIdx Attempt.isTerminal + 1)) = r.after attempts := by
  induction attempts generalizing r with
  | nil => rfl
  | cons a attempts ih =>
    cases ha : a.isTerminal with
    | true =>
      rw [List.findIdx_cons, ha]
      exact (after_of_terminal (r.isTerminal_attempt a ha) attempts).symm
    | false =>
      rw [List.findIdx_cons, ha]
      exact ih _

private theorem toNat_clampPercent (percent : Int) :
    ((clampPercent percent).toNat : Int) = max 0 (min percent 100) := by
  have h : (max 0 (min percent 100)).toNat < 256 := by omega
  rw [clampPercent, UInt8.toNat_ofNat_of_lt' h]
  omega

end

/-- Marks made in place are all or nothing. Each of a run fails exactly if it finds an ended record, and then leaves it
as it is. So the run comes to the same record as its part up to the first mark that ends jobs. -/
theorem marks_are_all_or_nothing (r : JobRecord) (attempts : List Attempt) :
    (∀ before a later, attempts = before ++ a :: later →
      (r.after before).attempt a = (r.after before).replacedBy ((r.after before).mark a.mark a.time) ∧
      (∀ e, ((r.after before).attempt a).1 = .error e ↔
        (r.after before).isTerminal = true ∧ e = .conflict (r.after before).id (r.after before).state) ∧
      (∀ e, ((r.after before).attempt a).1 = .error e → r.after (before ++ [a]) = r.after before) ∧
      (∀ percent, a.mark = .running percent → ((r.after before).attempt a).1 = .ok () →
        ((r.after (before ++ [a])).percentComplete.toNat : Int) = max 0 (min percent 100)) ∧
      (r.after (before ++ [a])).origin = (r.after before).origin) ∧
    r.after attempts = r.after (attempts.take (attempts.findIdx Attempt.isTerminal + 1)) ∧
    (r.after attempts).origin = r.origin := by
  refine ⟨fun before a later _ => ⟨Edit.perform_ofMark _ _ _, ?_⟩, (r.after_take_findIdx attempts).symm,
    r.after_origin attempts⟩
  obtain ⟨s, hs⟩ : ∃ s, r.after before = s := ⟨_, rfl⟩
  have hnext : r.after (before ++ [a]) = (s.attempt a).2 := by
    rw [← hs, after, List.foldl_append]
    rfl
  rw [hnext, hs]
  cases h : s.isTerminal with
  | true =>
    rw [attempt_of_terminal h]
    simp [eq_comm]
  | false =>
    rw [attempt_of_open h]
    refine ⟨by simp, by simp, fun percent hm _ => ?_, marked_origin s a.time a.mark⟩
    rw [hm]
    exact toNat_clampPercent percent

/-- A record that no run of marks leaves: it is open, and tells of an end, an error and more than the whole. -/
def muddledRecord : JobRecord :=
  { accepted ⟨7⟩ { name := "job", timeoutSeconds := 60 } ⟨"a"⟩ .epoch with
    state := .running, percentComplete := 200, completedAt := some .epoch, errorMessage := some "left over" }

/-- Progress, a cancellation, and two marks that come too late. -/
def lateAttempts : List Attempt :=
  [⟨.running 150, .epoch⟩, ⟨.cancelled, .epoch⟩, ⟨.succeeded (.bool true), .epoch⟩, ⟨.running (-5), .epoch⟩]

/-- The muddled record is cancelled at the whole of its progress, and stays so. -/
theorem muddled_record_stays_cancelled :
    (muddledRecord.after lateAttempts).state = .cancelled ∧
    (muddledRecord.after lateAttempts).percentComplete.toNat = 100 ∧
    ((muddledRecord.after (lateAttempts.take 2)).attempt ⟨.succeeded (.bool true), .epoch⟩).1 =
      .error (.conflict ⟨7⟩ .cancelled) ∧
    muddledRecord.after (lateAttempts.take 3) = muddledRecord.after (lateAttempts.take 2) := by
  obtain ⟨hcalls, hfinal, -⟩ := marks_are_all_or_nothing muddledRecord lateAttempts
  obtain ⟨-, -, -, hpercent, -⟩ := hcalls [] ⟨.running 150, .epoch⟩ (lateAttempts.drop 1) rfl
  obtain ⟨-, hconflict, hkeeps, -⟩ :=
    hcalls (lateAttempts.take 2) ⟨.succeeded (.bool true), .epoch⟩ (lateAttempts.drop 3) rfl
  have hlate := (hconflict (.conflict ⟨7⟩ .cancelled)).2 ⟨rfl, rfl⟩
  have hwhole := hpercent 150 rfl rfl
  rw [hfinal]
  exact ⟨rfl, Int.ofNat.inj hwhole, hlate, hkeeps _ hlate⟩

end JobLedger.JobRecord
