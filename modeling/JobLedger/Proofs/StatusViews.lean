import JobLedger.Proofs.CodecLaws
import JobLedger.Proofs.RoundTrip

/-!
# What a status tells

The text of a status hides what does not belong to the state of its job: two records that differ in hidden fields
only have the same text, even if their fields do not fit their state. For a stored record the members of the text
tell the state: a hint to ask again while the job is open, its end, result and errors afterwards.
-/
namespace JobLedger

open Json (Document nat)

namespace Json

/-- What stands under a name in a text that is an object. -/
def memberOfText? (name s : String) : Option Document :=
  match Document.ofText? s with
  | some (.object ms) => ms.lookup (some name)
  | _ => none

private theorem lookup_writtenMembers (name : String) : ∀ ms : List (String × Json),
    (Document.writtenMembers ms).lookup (some name) = (ms.lookup name).map Document.written
  | [] => rfl
  | (k, v) :: ms => by
    rw [Document.writtenMembers, List.lookup_cons, List.lookup_cons, lookup_writtenMembers name ms,
      Option.some_beq_some]
    cases name == k <;> rfl

private theorem memberOfText?_object (name : String) (ms : List (String × Json)) :
    memberOfText? name (Json.object ms).text = (ms.lookup name).map Document.written := by
  rw [memberOfText?, Document.ofText?_text, Document.written]
  exact lookup_writtenMembers name ms

private theorem written_word64 (n : UInt64) : Document.written (nat n.toNat) = .number (some (.integer n.toNat)) := by
  have hlt : (n.toNat : Int) < UInt64.size := Int.ofNat_lt.mpr n.toNat_lt
  rw [nat, Document.written, Number.reread_integer (by omega) hlt]

end Json

/-- The members of the text of a view that may be left out. -/
private theorem JobStatusView.memberOfText?_text (v : JobStatusView) :
    Json.memberOfText? "completed_at" v.toJson.text = v.completedAt.map (fun t => Document.written t.toJson) ∧
      Json.memberOfText? "retry_after_seconds" v.toJson.text =
        v.retryAfterSeconds.map (fun n => .number (some (.integer n.toNat))) ∧
      Json.memberOfText? "result" v.toJson.text = v.result.map Document.written ∧
      Json.memberOfText? "error_message" v.toJson.text = v.errorMessage.map (fun s => Document.written (.string s)) ∧
      Json.memberOfText? "error_detail" v.toJson.text = v.errorDetail.map fun s => Document.written (.string s) := by
  obtain ⟨ms, hms⟩ : ∃ ms, v.toJson = .object ms := ⟨_, rfl⟩
  have hlookup := v.lookup_members hms
  simp only [memberNames, List.map_cons, List.cons.injEq] at hlookup
  obtain ⟨-, -, -, -, -, -, hcompleted, -, hretry, hresult, hmessage, hdetail, -⟩ := hlookup
  simp [hms, Json.memberOfText?_object, hcompleted, hretry, hresult, hmessage, hdetail, Function.comp_def,
    Json.written_word64]

namespace JobRecord

/-- Two records agree on all that their state allows to be shown. -/
structure ShowsAs (r r' : JobRecord) : Prop where
  id : r.id = r'.id
  name : r.name = r'.name
  state : r.state = r'.state
  percentComplete : r.percentComplete = r'.percentComplete
  createdAt : r.createdAt = r'.createdAt
  lastUpdatedAt : r.lastUpdatedAt = r'.lastUpdatedAt
  completedAt : r.completedAt = r'.completedAt
  cancellationRequested : r.cancellationRequested = r'.cancellationRequested
  resultPayload : r.state = .succeeded → r.resultPayload = r'.resultPayload
  errorMessage : r.state = .failed ∨ r.state = .timedOut → r.errorMessage = r'.errorMessage
  errorDetail : r.state = .failed ∨ r.state = .timedOut → r.errorDetail = r'.errorDetail

/-- Fields that a state does not allow to be shown are the same once they are hidden. -/
private theorem shown_eq {α : Type} {p : Prop} [Decidable p] {o o' : Option α} (h : p → o = o') :
    (if p then o else none) = if p then o' else none := by
  split
  · exact h ‹_›
  · rfl

private theorem isSome_shown {α : Type} {p : Prop} [Decidable p] {o : Option α} :
    (if p then o else none).isSome ↔ p ∧ o.isSome := by
  split <;> simp [*]

private theorem ShowsAs.ofRecord_eq {r r' : JobRecord} (h : r.ShowsAs r') (pollInterval : Span) :
    JobStatusView.ofRecord r pollInterval = JobStatusView.ofRecord r' pollInterval := by
  have hterminal : r.isTerminal = r'.isTerminal := congrArg JobState.isTerminal h.state
  have hresult := shown_eq h.resultPayload
  have hmessage := shown_eq h.errorMessage
  have hdetail := shown_eq h.errorDetail
  rw [JobStatusView.ofRecord, JobStatusView.ofRecord, hresult, hmessage, hdetail, hterminal, h.id, h.name, h.state,
    h.percentComplete, h.createdAt, h.lastUpdatedAt, h.completedAt, h.cancellationRequested]

/-- The members of a text are there in the states of the record that they belong to. -/
structure IsToldBy (r : JobRecord) (text : String) : Prop where
  retryAfterSeconds_iff : (Json.memberOfText? "retry_after_seconds" text).isSome ↔ r.isTerminal = false
  retryAfterSeconds_pos : ∀ d ∈ Json.memberOfText? "retry_after_seconds" text,
    ∃ n : Nat, 1 ≤ n ∧ d = .number (some (.integer n))
  completedAt_iff : (Json.memberOfText? "completed_at" text).isSome ↔ r.isTerminal = true
  result_iff : (Json.memberOfText? "result" text).isSome ↔ r.state = .succeeded
  errorMessage_iff : (Json.memberOfText? "error_message" text).isSome ↔ r.state = .failed ∨ r.state = .timedOut
  errorDetail_imp : (Json.memberOfText? "error_detail" text).isSome → r.state = .failed

/-- A well-formed record is told by the text of its view. A poll interval has at most as many seconds as a word of
64 bits holds. -/
private theorem WellFormed.isToldBy {r : JobRecord} (h : r.WellFormed) {pollInterval : Span}
    (hpoll : pollInterval.seconds < UInt64.size) :
    r.IsToldBy (JobStatusView.ofRecord r pollInterval).toJson.text := by
  obtain ⟨hcompleted, hretry, hresult, hmessage, hdetail⟩ :=
    (JobStatusView.ofRecord r pollInterval).memberOfText?_text
  have hseconds : (UInt64.ofNat (max pollInterval.seconds 1)).toNat = max pollInterval.seconds 1 :=
    UInt64.toNat_ofNat_of_lt (by simp only [UInt64.size] at *; omega)
  constructor
  case retryAfterSeconds_iff =>
    rw [hretry, Option.isSome_map, JobStatusView.ofRecord]
    cases r.isTerminal <;> simp
  case retryAfterSeconds_pos =>
    intro d hd
    rw [hretry, JobStatusView.ofRecord] at hd
    cases hr : r.isTerminal with
    | true => simp [hr] at hd
    | false =>
      refine ⟨max pollInterval.seconds 1, Nat.le_max_right _ _, ?_⟩
      simpa [hr, hseconds, eq_comm] using hd
  case completedAt_iff =>
    rw [hcompleted, Option.isSome_map]
    exact h.completedAt_iff
  case result_iff =>
    rw [hresult, Option.isSome_map]
    exact isSome_shown.trans (and_iff_left_of_imp h.resultPayload_iff.mpr)
  case errorMessage_iff =>
    rw [hmessage, Option.isSome_map]
    exact isSome_shown.trans (and_iff_left_of_imp h.errorMessage_iff.mpr)
  case errorDetail_imp =>
    rw [hdetail, Option.isSome_map]
    intro hsome
    exact h.errorDetail_imp (isSome_shown.mp hsome).2

end JobRecord

/-- Records that agree on what their state allows to be shown have the same status text, and the status text of a record
stored in any run on a store in memory has exactly the members that its state allows. -/
theorem status_texts_show_what_states_allow :
    (∀ (r r' : JobRecord) (pollInterval : Span), r.ShowsAs r' →
      (JobStatusView.ofRecord r pollInterval).toJson.text = (JobStatusView.ofRecord r' pollInterval).toJson.text) ∧
    ∀ (w : World) (id : JobId) (r : JobRecord) (m : Manager), w.Reachable .empty → w.stored id = some r →
      m.pollInterval.seconds < UInt64.size → ∃ view, (w.host.perform Memory.store (m.statusView id)).1 = .ok view ∧
        view = JobStatusView.ofRecord r m.pollInterval ∧ r.IsToldBy view.toJson.text := by
  constructor
  · intro r r' pollInterval h
    rw [h.ofRecord_eq]
  · intro w id r m hw hr hpoll
    have hformed := (hw.sound Memory.empty_keyed).ledger.wellFormed hr rfl
    exact ⟨_, perform_statusView (congrArg (fun o => (Except.ok o, w.host.store)) hr) m, rfl, hformed.isToldBy hpoll⟩

/-- An error that a running job should not have is not told, and a result of null is told as a member. -/
theorem stale_error_is_hidden_and_null_result_told :
    (JobRecord.ShowsAs { World.sampleRecord with state := .running }
        { World.sampleRecord with state := .running, errorMessage := some "stale" } ∧
      (JobStatusView.ofRecord { World.sampleRecord with state := .running } (.ofSeconds 5)).toJson.text =
        (JobStatusView.ofRecord { World.sampleRecord with state := .running, errorMessage := some "stale" }
          (.ofSeconds 5)).toJson.text) ∧
    World.nullSet.Reachable .empty ∧ ∃ r view, World.nullSet.stored ⟨1⟩ = some r ∧ r.resultPayload = some .null ∧
      (World.nullSet.host.perform Memory.store (World.sampleManager.statusView ⟨1⟩)).1 = .ok view ∧
      (Json.memberOfText? "result" view.toJson.text).isSome := by
  have hshows : JobRecord.ShowsAs { World.sampleRecord with state := .running }
      { World.sampleRecord with state := .running, errorMessage := some "stale" } := by
    constructor <;> simp
  have hreachable : World.nullSet.Reachable .empty := World.sample_reachable _
  refine ⟨⟨hshows, status_texts_show_what_states_allow.1 _ _ _ hshows⟩, hreachable, ?_⟩
  obtain ⟨view, hview, -, htold⟩ := status_texts_show_what_states_allow.2 World.nullSet ⟨1⟩ _ World.sampleManager
    hreachable rfl (by decide)
  exact ⟨_, view, rfl, rfl, hview, htold.result_iff.mpr rfl⟩

end JobLedger
