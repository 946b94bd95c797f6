import JobLedger.Postgres.Row

/-!
# Deadlines in exact numbers

Between instants outside leap seconds time is counted in nanoseconds. An instant that would come after the last one is
replaced by it, and so is the deadline of a job whose timeout is too long to be a span; no clock ever shows a later
instant, so neither shortening of the sum changes whether the job is past its deadline. Main statement:
`JobRecord.expiry_is_exact`.
-/
namespace JobLedger

namespace Instant

variable {s t u : Instant}

/-- The instant does not lie in a leap second. -/
def IsPlain (t : Instant) : Prop := t.nano < 1000000000

private theorem last_isPlain : last.IsPlain := by
  simp [IsPlain, last]

private theorem make?_eq_none {second : Int} {nano : Nat} (hnano : nano < 1000000000) :
    make? second nano = none ↔ second < -8334601228800 ∨ 8210266876799 < second := by
  simp only [make?, dite_eq_right_iff, reduceCtorEq, imp_false]
  omega

/-- Instants in the order of their nanoseconds. -/
private theorem before_iff_nanos_lt (hs : s.IsPlain) (ht : t.IsPlain) : s.before t = true ↔ s.nanos < t.nanos := by
  simp only [IsPlain] at hs ht
  simp only [before, nanos, Bool.or_eq_true, Bool.and_eq_true, decide_eq_true_eq, beq_iff_eq]
  omega

private theorem nanos_le_last (h : t.IsPlain) : t.nanos ≤ last.nanos := by
  have hrange := t.inRange
  simp only [IsPlain] at h
  simp only [nanos, last]
  omega

/-- Outside leap seconds nanoseconds are added to the second and to the part of a second at once. -/
private theorem plusNanos?_eq (h : t.IsPlain) (n : Nat) :
    t.plusNanos? n = make? (t.second + (t.nano + n : Nat) / 1000000000) ((t.nano + n) % 1000000000) := by
  have hnot : ¬nanosPerSecond ≤ t.nano := Nat.not_le.mpr h
  simp only [plusNanos?, hnot, false_and, if_false]
  simp only [nanosPerSecond]
  congr 1 <;> omega

/-- The later instant is the one so many nanoseconds later. -/
private theorem plusNanos?_eq_some (h : t.IsPlain) {n : Nat} :
    t.plusNanos? n = some u ↔ u.IsPlain ∧ u.nanos = t.nanos + n := by
  rw [plusNanos?_eq h, make?_eq_some]
  simp only [IsPlain, nanos]
  omega

/-- There is no later instant exactly if it would come after the last one. -/
private theorem plusNanos?_eq_none (h : t.IsPlain) {n : Nat} : t.plusNanos? n = none ↔ last.nanos < t.nanos + n := by
  have hrange := t.inRange
  rw [plusNanos?_eq h, make?_eq_none (Nat.mod_lt _ (by decide))]
  simp only [IsPlain] at h
  simp only [nanos, last]
  omega

/-- An instant a number of nanoseconds later, or the last one. -/
private theorem getD_plusNanos? (h : t.IsPlain) (n : Nat) : ((t.plusNanos? n).getD last).IsPlain ∧
    ((t.plusNanos? n).getD last).nanos = min (t.nanos + n) last.nanos := by
  cases hu : t.plusNanos? n with
  | none =>
    have hlast := (plusNanos?_eq_none h).mp hu
    exact ⟨last_isPlain, by simp only [Option.getD_none]; omega⟩
  | some u =>
    obtain ⟨hplain, hnanos⟩ := (plusNanos?_eq_some h).mp hu
    have hlast := nanos_le_last hplain
    exact ⟨hplain, by simp only [Option.getD_some]; omega⟩

end Instant

namespace JobRecord

open Postgres (JobRow)

/-- A timeout too long to be a span ends after the last instant, and so does the longest span. -/
private theorem min_timeoutNanos (t : Instant) (seconds : UInt64) :
    min (t.nanos + timeoutNanos seconds) Instant.last.nanos =
      min (t.nanos + seconds.toNat * 1000000000) Instant.last.nanos := by
  have hrange := t.inRange
  have h63 : Nat.pow 2 63 = 9223372036854775808 := by decide
  simp only [timeoutNanos, maxSpanSeconds, h63, Instant.nanos, Instant.last]
  split <;> omega

/-- The deadline is so many seconds after the creation of the job, or the last instant. -/
private theorem deadline_nanos {r : JobRecord} (h : r.createdAt.IsPlain) : r.deadline.IsPlain ∧
    r.deadline.nanos = min (r.createdAt.nanos + r.timeoutSeconds.toNat * 1000000000) Instant.last.nanos := by
  have hsum := Instant.getD_plusNanos? h (timeoutNanos r.timeoutSeconds)
  rw [min_timeoutNanos] at hsum
  exact hsum

private theorem isExpired_iff {r : JobRecord} {now : Instant} :
    r.isExpired now = true ↔ r.isTerminal = false ∧ r.deadline.before now = true := by
  simp [isExpired]

/-- The record with a timeout that fits into a column of the database. -/
def withColumnTimeout (r : JobRecord) : JobRecord :=
  { r with timeoutSeconds := UInt64.ofNat (min r.timeoutSeconds.toNat (Nat.pow 2 63 - 1)) }

private theorem toNat_withColumnTimeout (r : JobRecord) :
    r.withColumnTimeout.timeoutSeconds.toNat = min r.timeoutSeconds.toNat (Nat.pow 2 63 - 1) :=
  UInt64.toNat_ofNat_of_lt' (Nat.lt_of_le_of_lt (Nat.min_le_right _ _) (by decide))

theorem deadline_withColumnTimeout (r : JobRecord) : r.withColumnTimeout.deadline = r.deadline := by
  have hnanos : timeoutNanos r.withColumnTimeout.timeoutSeconds = timeoutNanos r.timeoutSeconds := by
    rw [timeoutNanos, toNat_withColumnTimeout, Nat.min_assoc, Nat.min_self]
    rfl
  rw [deadline, hnanos]
  rfl

/-- Outside leap seconds the deadline of a job is exactly its timeout after its creation, or the last instant if that
is earlier, and an open job is expired exactly if more nanoseconds than its timeout have passed since its creation.
The timeout that is sent to the database has the same effect. -/
theorem expiry_is_exact {r : JobRecord} {now : Instant} (hcreated : r.createdAt.IsPlain) (hnow : now.IsPlain) :
    (r.deadline.IsPlain ∧
      r.deadline.nanos = min (r.createdAt.nanos + r.timeoutSeconds.toNat * 1000000000) Instant.last.nanos) ∧
    (r.isExpired now = true ↔
      r.isTerminal = false ∧ (r.timeoutSeconds.toNat * 1000000000 : Int) < now.nanos - r.createdAt.nanos) ∧
    (JobRow.ofRecord r).timeoutSeconds = r.withColumnTimeout.timeoutSeconds.toNat ∧
    r.withColumnTimeout.deadline = r.deadline ∧ r.withColumnTimeout.isExpired now = r.isExpired now := by
  obtain ⟨hplain, hnanos⟩ := deadline_nanos hcreated
  refine ⟨⟨hplain, hnanos⟩, ?_, ?_, deadline_withColumnTimeout r, ?_⟩
  · -- The clock does not get past the last instant, so a deadline cut down to it is not passed either.
    have hlast := Instant.nanos_le_last hnow
    rw [isExpired_iff, Instant.before_iff_nanos_lt hplain hnow, hnanos]
    exact and_congr_right fun _ => by omega
  · simp only [toNat_withColumnTimeout, JobRow.ofRecord, JobRow.maxTimeout]
    omega
  · rw [isExpired, isExpired, deadline_withColumnTimeout]
    rfl

/-- A job that may take longer than there is time has not expired at the end of it. -/
theorem endless_job_does_not_expire :
    let r := JobRecord.accepted ⟨1⟩ { name := "n", timeoutSeconds := 18446744073709551615 } ⟨"a"⟩ .epoch
    r.createdAt.IsPlain ∧ Instant.last.IsPlain ∧ r.deadline.nanos = Instant.last.nanos ∧
      r.isExpired .last = false := by
  intro r
  have hcreated : r.createdAt.IsPlain := by simp [r, accepted, Instant.epoch, Instant.IsPlain]
  obtain ⟨⟨-, hnanos⟩, hexpired, -⟩ := expiry_is_exact hcreated Instant.last_isPlain
  refine ⟨hcreated, Instant.last_isPlain, hnanos.trans (by decide), ?_⟩
  rw [Bool.eq_false_iff, Ne, hexpired]
  decide

end JobRecord

end JobLedger
