import JobLedger.Job.Record

/-!
# What marks do to a record

A mark succeeds exactly on an open record and then yields one determined record. It keeps what the record was
given at its creation, keeps the record well formed, and decides by itself what the record says about the
end of the job.
-/
namespace JobLedger.JobRecord

/-- What a record is given when its job is created. -/
structure Origin where
  id : JobId
  name : String
  createdAt : Instant
  owningInstanceId : InstanceId
  timeoutSeconds : UInt64
  createdBy : Option String
  correlationId : Option String

/-- What the record was given when its job was created. -/
def origin (r : JobRecord) : Origin :=
  ⟨r.id, r.name, r.createdAt, r.owningInstanceId, r.timeoutSeconds, r.createdBy, r.correlationId⟩

/-- What a record says about the end of its job. -/
structure Outcome where
  state : JobState
  resultPayload : Option Json := none
  errorMessage : Option String := none
  errorDetail : Option String := none
  cancellationRequested : Bool := false

/-- What the record says about the end of its job. -/
def outcome (r : JobRecord) : Outcome :=
  ⟨r.state, r.resultPayload, r.errorMessage, r.errorDetail, r.cancellationRequested⟩

/-- The fields of a record that belong to some states only are set in these states only. -/
structure WellFormed (r : JobRecord) : Prop where
  completedAt_iff : r.completedAt.isSome ↔ r.isTerminal
  resultPayload_iff : r.resultPayload.isSome ↔ r.state = .succeeded
  errorMessage_iff : r.errorMessage.isSome ↔ r.state = .failed ∨ r.state = .timedOut
  errorDetail_imp : r.errorDetail.isSome → r.state = .failed
  cancellationRequested_iff : r.cancellationRequested ↔ r.state = .cancelled
  percent_le : r.percentComplete ≤ 100
  percent_of_succeeded : r.state = .succeeded → r.percentComplete = 100

theorem accepted_wellFormed (id : JobId) (request : NewJob) (owner : InstanceId) (now : Instant) :
    (accepted id request owner now).WellFormed := by
  constructor <;> simp [accepted, isTerminal, JobState.isTerminal]

/-- The state that a mark moves to. -/
def Mark.state : Mark → JobState
  | .running _ => .running
  | .succeeded _ => .succeeded
  | .failed _ _ => .failed
  | .cancelled => .cancelled
  | .timedOut _ => .timedOut

/-- Whether a mark ends the job. -/
def Mark.isTerminal (m : Mark) : Bool := m.state.isTerminal

/-- What a record says about the end of its job after a mark. -/
def Mark.outcome : Mark → Outcome
  | .running _ => { state := .running }
  | .succeeded payload => { state := .succeeded, resultPayload := some payload }
  | .failed message detail =>
    { state := .failed, errorMessage := some message, errorDetail := detail }
  | .cancelled => { state := .cancelled, cancellationRequested := true }
  | .timedOut message => { state := .timedOut, errorMessage := some message }

/-- An open record after a mark. -/
def marked (r : JobRecord) (now : Instant) : Mark → JobRecord
  | .running percent =>
    { r with state := .running, lastUpdatedAt := now, percentComplete := clampPercent percent }
  | .succeeded payload =>
    { r with
      state := .succeeded, lastUpdatedAt := now, completedAt := some now, percentComplete := 100
      resultPayload := some payload, errorMessage := none, errorDetail := none }
  | .failed message detail =>
    { r with
      state := .failed, lastUpdatedAt := now, completedAt := some now
      resultPayload := none, errorMessage := some message, errorDetail := detail }
  | .cancelled =>
    { r with
      state := .cancelled, lastUpdatedAt := now, completedAt := some now
      resultPayload := none, cancellationRequested := true }
  | .timedOut message =>
    { r with
      state := .timedOut, lastUpdatedAt := now, completedAt := some now
      resultPayload := none, errorMessage := some message, errorDetail := none }

private theorem transition_of_open {r : JobRecord} (h : r.isTerminal = false) {next : JobState}
    (hn : next ≠ .accepted) (now : Instant) :
    r.transition next now = .ok { r with
      state := next
      lastUpdatedAt := now
      completedAt := if next.isTerminal then some now else r.completedAt } :=
  if_pos (JobState.canBecome_iff.mpr ⟨h, hn⟩)

theorem Mark.state_ne_accepted (m : Mark) : m.state ≠ .accepted := by cases m <;> simp [state]

/-- A mark succeeds exactly on an open record; else the error names its state. -/
theorem mark_eq (r : JobRecord) (m : Mark) (now : Instant) :
    r.mark m now = if r.isTerminal then .error (.conflict r.id r.state) else .ok (r.marked now m) := by
  cases hr : r.isTerminal with
  | true =>
    cases m <;> simp only [mark, markRunning, markSucceeded, markFailed, markCancelled, markTimedOut,
      transition_of_terminal hr, Except.map, if_true]
  | false =>
    have ht := transition_of_open hr m.state_ne_accepted now
    cases m <;> exact congrArg (Except.map _) ht

theorem mark_of_open {r : JobRecord} (h : r.isTerminal = false) (m : Mark) (now : Instant) :
    r.mark m now = .ok (r.marked now m) := by simp [mark_eq, h]

section
variable (r : JobRecord) (now : Instant) (m : Mark)

@[simp] theorem marked_origin : (r.marked now m).origin = r.origin := by cases m <;> rfl

@[simp] theorem marked_id : (r.marked now m).id = r.id := congrArg Origin.id (marked_origin r now m)

@[simp] theorem marked_timeoutSeconds : (r.marked now m).timeoutSeconds = r.timeoutSeconds :=
  congrArg Origin.timeoutSeconds (marked_origin r now m)

@[simp] theorem marked_state : (r.marked now m).state = m.state := by cases m <;> rfl

@[simp] theorem marked_isTerminal : (r.marked now m).isTerminal = m.isTerminal := by cases m <;> rfl

end

private theorem clampPercent_le (percent : Int) : clampPercent percent ≤ 100 := by
  have h : (max 0 (min percent 100)).toNat ≤ 100 := by omega
  rw [UInt8.le_iff_toNat_le, clampPercent, UInt8.toNat_ofNat']
  exact Nat.le_trans (Nat.mod_le _ _) h

/-- An open well-formed record says nothing yet about the end of its job. -/
private theorem WellFormed.fields_of_open {r : JobRecord} (h : r.WellFormed) (hr : r.isTerminal = false) :
    r.resultPayload = none ∧ r.errorMessage = none ∧ r.errorDetail = none ∧
      r.cancellationRequested = false ∧ r.completedAt = none := by
  have hs : r.state.isTerminal = false := hr
  refine ⟨?_, ?_, ?_, ?_, ?_⟩
  · rw [← Option.not_isSome_iff_eq_none, h.resultPayload_iff]
    intro he; simp [he, JobState.isTerminal] at hs
  · rw [← Option.not_isSome_iff_eq_none, h.errorMessage_iff]
    rintro (he | he) <;> simp [he, JobState.isTerminal] at hs
  · rw [← Option.not_isSome_iff_eq_none]
    intro he; simp [h.errorDetail_imp he, JobState.isTerminal] at hs
  · rw [← Bool.not_eq_true, h.cancellationRequested_iff]
    intro he; simp [he, JobState.isTerminal] at hs
  · rw [← Option.not_isSome_iff_eq_none, h.completedAt_iff, hr]
    decide

theorem WellFormed.marked {r : JobRecord} (h : r.WellFormed) (hr : r.isTerminal = false) (now : Instant)
    (m : Mark) : (r.marked now m).WellFormed := by
  obtain ⟨hp, he, hd, hc, ht⟩ := h.fields_of_open hr
  have hle := h.percent_le
  cases m with
  | running percent =>
    have hclamp := clampPercent_le percent
    constructor <;> simp [JobRecord.marked, isTerminal, JobState.isTerminal, hp, he, hd, hc, ht, hclamp]
  | succeeded payload =>
    constructor <;> simp [JobRecord.marked, isTerminal, JobState.isTerminal, hc]
  | failed message detail =>
    constructor <;> simp [JobRecord.marked, isTerminal, JobState.isTerminal, hc, hle]
  | cancelled =>
    constructor <;> simp [JobRecord.marked, isTerminal, JobState.isTerminal, he, hd, hle]
  | timedOut message =>
    constructor <;> simp [JobRecord.marked, isTerminal, JobState.isTerminal, hc, hle]

/-- What a mark says about the end of the job does not depend on the record. -/
theorem WellFormed.marked_outcome {r : JobRecord} (h : r.WellFormed) (hr : r.isTerminal = false)
    (now : Instant) (m : Mark) : (r.marked now m).outcome = m.outcome := by
  obtain ⟨hp, he, hd, hc, -⟩ := h.fields_of_open hr
  cases m <;> simp [JobRecord.marked, outcome, Mark.outcome, hp, he, hd, hc]

/-- A record as a store keeps it after an update. -/
def stamped (r : JobRecord) (now : Instant) : JobRecord := { r with lastUpdatedAt := now }

section
variable (r : JobRecord) (now : Instant)

@[simp] theorem stamped_id : (r.stamped now).id = r.id := rfl

@[simp] theorem stamped_marked (m : Mark) : (r.marked now m).stamped now = r.marked now m := by cases m <;> rfl

@[simp] theorem stamped_isTerminal : (r.stamped now).isTerminal = r.isTerminal := rfl

@[simp] theorem stamped_outcome : (r.stamped now).outcome = r.outcome := rfl

end

theorem WellFormed.stamped {r : JobRecord} (h : r.WellFormed) (now : Instant) :
    (r.stamped now).WellFormed :=
  ⟨h.completedAt_iff, h.resultPayload_iff, h.errorMessage_iff, h.errorDetail_imp,
    h.cancellationRequested_iff, h.percent_le, h.percent_of_succeeded⟩

end JobLedger.JobRecord
