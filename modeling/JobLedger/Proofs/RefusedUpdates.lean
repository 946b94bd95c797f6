import JobLedger.Lifecycle.Manager
import JobLedger.Proofs.HostAnswers
import JobLedger.Proofs.Interleaving
import JobLedger.Proofs.RecordMarks
import JobLedger.Proofs.SharedTable

/-!
# Updates that are refused

An update that matches no row asks for the state of the job in a second statement, and what that tells is called the
state in which the job has ended. Others may do anything in between. An open state is named only if there was no row at
first and one was created since; so no cancellation and no completion, which look at the row before, is refused for an
open job. Main statement: `refusals_name_ended_jobs`.
-/
namespace JobLedger.Postgres

/-! ### What an update answers -/

namespace Exchange

private theorem decodeState_error {row : Row} {e : StoreError} (h : decodeState row = .error e) :
    ∃ cause, e = .serialization cause := by
  unfold decodeState at h
  split at h
  · cases h
    exact ⟨.column, rfl⟩
  · split at h
    · cases h
      exact ⟨_, rfl⟩
    · cases h

private theorem decodeState_singleton (text : String) : decodeState [("state", .text text)] =
    match JobState.spelled? text with
    | none => .error (.serialization (.storedState text))
    | some state => .ok state := rfl

/-- Why no row was matched, by what the second statement tells. -/
def refusal (id : JobId) : Except Failure (List Row) → StoreError
  | .error f => .unavailable (f.outage "fetch_state")
  | .ok [] => .notFound id
  | .ok (row :: _) =>
    match decodeState row with
    | .ok state => .alreadyTerminal id state
    | .error e => e

private theorem refusal_eq_alreadyTerminal_iff {id id' : JobId} {state : JobState} {a : Except Failure (List Row)} :
    refusal id a = .alreadyTerminal id' state ↔
      id' = id ∧ ∃ row rows, a = .ok (row :: rows) ∧ decodeState row = .ok state := by
  unfold refusal
  split
  · simp
  · simp
  · rename_i row rows
    cases h : decodeState row with
    | ok state' => simp [h, eq_comm]
    | error e =>
      obtain ⟨cause, rfl⟩ := decodeState_error h
      simp [h]

section
variable {σ : Type} {answer : (q : Statement) → σ → Except Failure (List Row) × σ} {s t : σ}

private theorem run_of_answer {α : Type} {q : Statement} {a : Except Failure (List Row)} (h : answer q s = (a, t))
    (next : Except Failure (List Row) → Exchange α) :
    (Dialogue.ask q next : Exchange α).run answer s = (next a).run answer t := by
  rw [Dialogue.run_ask, h]

/-- An update is decided by its first statement, and if that matches no row, its error by the second. -/
private theorem run_update (answer : (q : Statement) → σ → Except Failure (List Row) × σ) (r : JobRecord) (s : σ) :
    (update r).run answer s =
      match answer (.updateOpen (.ofRecord r)) s with
      | (.error f, t) => (.error (.unavailable (f.outage "update")), t)
      | (.ok (row :: _), t) => (JobRow.decode row, t)
      | (.ok [], t) => (.error (refusal r.id (answer (.selectState r.id) t).1), (answer (.selectState r.id) t).2) := by
  rcases h : answer (.updateOpen (.ofRecord r)) s with ⟨f | _ | ⟨row, rows⟩, t⟩
  · exact (run_of_answer h _).trans rfl
  · refine (run_of_answer h _).trans ?_
    show _ = (_, _)
    rcases h' : answer (.selectState r.id) t with ⟨f | _ | ⟨row, rows⟩, u⟩
    · exact (run_of_answer h' _).trans rfl
    · exact (run_of_answer h' _).trans rfl
    · refine (run_of_answer h' _).trans ?_
      show ((decodeState row).bind fun state => .error (.alreadyTerminal r.id state), u) = _
      simp only [refusal]
      cases decodeState row <;> rfl
  · exact (run_of_answer h _).trans rfl

/-- An update says that a job has ended in the state that the second statement tells, whatever that is. -/
private theorem run_update_eq_alreadyTerminal_iff {r : JobRecord} {id : JobId} {state : JobState} :
    (update r).run answer s = (.error (.alreadyTerminal id state), t) ↔
      id = r.id ∧ ∃ u row rows, answer (.updateOpen (.ofRecord r)) s = (.ok [], u) ∧
        answer (.selectState r.id) u = (.ok (row :: rows), t) ∧ decodeState row = .ok state := by
  rw [run_update]
  rcases answer (.updateOpen (.ofRecord r)) s with ⟨f | _ | ⟨row, rows⟩, u⟩
  · simp
  · simp only [Prod.mk.injEq, Except.error.injEq, refusal_eq_alreadyTerminal_iff]
    constructor
    · rintro ⟨⟨rfl, row, rows, ha, hrow⟩, rfl⟩
      exact ⟨rfl, u, row, rows, ⟨trivial, rfl⟩, Prod.ext ha rfl, hrow⟩
    · rintro ⟨rfl, _, row, rows, ⟨-, rfl⟩, ha, hrow⟩
      rw [ha]
      exact ⟨⟨rfl, row, rows, rfl, hrow⟩, rfl⟩
  · constructor
    · intro h
      obtain ⟨cause, hcause⟩ := JobRow.decode_error (congrArg Prod.fst h)
      cases hcause
    · rintro ⟨-, _, _, _, h, -⟩
      cases h

private theorem run_get (answer : (q : Statement) → σ → Except Failure (List Row) × σ) (id : JobId) (s : σ) :
    (get id).run answer s =
      match answer (.select id) s with
      | (.error f, t) => (.error (.unavailable (f.outage "get")), t)
      | (.ok [], t) => (.ok none, t)
      | (.ok (row :: _), t) => ((JobRow.decode row).map some, t) := by
  rcases h : answer (.select id) s with ⟨f | _ | ⟨row, rows⟩, t⟩
  all_goals exact (run_of_answer h _).trans rfl

end

end Exchange

/-! ### Rows that statements find and leave -/

namespace Statement

variable {new : JobRow} {now : Instant} {listing rows : List Row} {t u : Rows}

private theorem carryOut_matched {row : Row}
    (h : (updateOpen new).carryOut now listing t = (.ok (row :: rows), u)) :
    ∃ old : JobRow, u.get? new.id = some (old.updated new now) := by
  simp only [carryOut] at h
  split at h
  · cases h
  · rename_i old _
    split at h
    · unfold Rows.put at h
      split at h
      · cases h
        exact ⟨old, by rw [Table.get?_insert, if_pos rfl]⟩
      · cases h
    · cases h

private theorem carryOut_unmatched (h : (updateOpen new).carryOut now listing t = (.ok [], u)) :
    u = t ∧ ∀ old, t.get? new.id = some old → old.isOpen = false := by
  simp only [carryOut] at h
  split at h
  · rename_i hnone
    cases h
    refine ⟨rfl, fun old hold => ?_⟩
    cases hnone.symm.trans hold
  · rename_i old hold
    split at h
    · unfold Rows.put at h
      split at h <;> cases h
    · rename_i hended
      cases h
      refine ⟨rfl, fun old' hold' => ?_⟩
      obtain rfl := Option.some.inj (hold.symm.trans hold')
      simpa using hended

end Statement

namespace Shared

variable {r : JobRecord} {id : JobId} {state : JobState} {x y : Shared}

/-- The table holds the row of a job in a state. -/
def Holds (x : Shared) (id : JobId) (state : JobState) : Prop :=
  ∃ row, x.rows.get? id = some row ∧ row.state = state.name

private theorem Holds.found_ne_none (hx : x.Holds id state) : x.found.get? id ≠ none := by
  obtain ⟨row, hrow, -⟩ := hx
  obtain ⟨row', hrow', -⟩ := (keeps_found x).kept id row hrow
  rw [hrow']
  exact Option.some_ne_none row'

/-- What is known after a look at a job. -/
inductive Looked (id : JobId) (x y : Shared) : Except StoreError (Option JobRecord) → Prop where
  | failed (e : StoreError) (he : e.isFailure = true) : Looked id x y (.error e)
  | missing (h : x.found.get? id = none) : Looked id x y (.ok none)
  | seen (r : JobRecord) (hid : r.id = id) (hy : y.Holds id r.state) : Looked id x y (.ok (some r))

/-- What is known after an update of a job. -/
inductive Updated (r : JobRecord) (x y : Shared) : Except StoreError JobRecord → Prop where
  | failed (e : StoreError) (he : e.isFailure = true) : Updated r x y (.error e)
  | written (r' : JobRecord) (hy : y.Holds r.id r.state) : Updated r x y (.ok r')
  | missing (h : x.found.get? r.id = none) : Updated r x y (.error (.notFound r.id))
  | refused (state : JobState) (hy : y.Holds r.id state)
    (hopen : state.isTerminal = false → x.found.get? r.id = none) :
    Updated r x y (.error (.alreadyTerminal r.id state))

private theorem looked (hx : x.rows.Lawful) {a : Except StoreError (Option JobRecord)}
    (h : (Exchange.get id).run answer x = (a, y)) : Looked id x y a := by
  rw [Exchange.run_get] at h
  rcases hanswer : answer (.select id) x with ⟨b, t⟩
  rw [hanswer] at h
  rcases answer_cases hanswer with ⟨f, rfl⟩ | hcarried
  · cases h
    exact .failed _ rfl
  · obtain ⟨rfl, hrows⟩ := Prod.mk.inj hcarried
    cases hrow : x.found.get? id with
    | none =>
      simp only [hrow, Option.toList_none, List.map_nil] at h
      cases h
      exact .missing hrow
    | some row =>
      simp only [hrow, Option.toList_some, List.map_cons, List.map_nil, JobRow.decode_toRow] at h
      obtain ⟨rfl, rfl⟩ := Prod.mk.inj h
      cases hr : row.toRecord with
      | error e =>
        obtain ⟨cause, rfl⟩ := JobRow.toRecord_error hr
        exact .failed _ rfl
      | ok r =>
        obtain ⟨hid, s, hs⟩ := (keeps_found x).lawful hx id row hrow
        obtain ⟨-, hrid, hstate⟩ := JobRow.of_toRecord hr
        rw [hs, JobState.spelled?_name] at hstate
        obtain rfl := Option.some.inj hstate
        exact .seen r (hrid.trans hid) ⟨row, hrows ▸ hrow, hs⟩

/-- A row that is there when an update matches none is that of a job that has ended, and it still is when the state is
asked for. -/
private theorem updated_of_unmatched (hx : x.rows.Lawful) {t : Shared} (ht : t.rows = x.found)
    (hended : ∀ old, x.found.get? r.id = some old → old.isOpen = false) {b : Except Failure (List Row)}
    (h : answer (.selectState r.id) t = (b, y)) : Updated r x y (.error (Exchange.refusal r.id b)) := by
  have hkeeps : x.found.Keeps t.found := ht ▸ keeps_found t
  rcases answer_cases h with ⟨f, rfl⟩ | hcarried
  · exact .failed _ rfl
  · obtain ⟨rfl, hrows⟩ := Prod.mk.inj hcarried
    cases hrow : t.found.get? r.id with
    | none => exact .missing (hkeeps.get?_eq_none hrow)
    | some row =>
      obtain ⟨-, s, hs⟩ := hkeeps.lawful ((keeps_found x).lawful hx) r.id row hrow
      have hstate : Exchange.decodeState [("state", .text row.state)] = .ok s := by
        rw [Exchange.decodeState_singleton, hs, JobState.spelled?_name]
      have hrefusal : Exchange.refusal r.id (.ok [[("state", .text row.state)]]) = .alreadyTerminal r.id s :=
        Exchange.refusal_eq_alreadyTerminal_iff.mpr ⟨rfl, _, _, rfl, hstate⟩
      simp only [Option.toList_some, List.map_cons, List.map_nil, hrefusal]
      refine .refused s ⟨row, hrows ▸ hrow, hs⟩ fun hopen => ?_
      refine Option.eq_none_iff_forall_ne_some.mpr fun old hold => ?_
      obtain rfl := Option.some.inj ((hkeeps.ended hold (hended old hold)).symm.trans hrow)
      have hnot := hended old hold
      rw [JobRow.isOpen_of_name hs, hopen] at hnot
      cases hnot

theorem updated (hx : x.rows.Lawful) {a : Except StoreError JobRecord}
    (h : (Exchange.update r).run answer x = (a, y)) : Updated r x y a := by
  rw [Exchange.run_update] at h
  rcases hanswer : answer (.updateOpen (.ofRecord r)) x with ⟨b, t⟩
  rw [hanswer] at h
  rcases answer_cases hanswer with ⟨f, rfl⟩ | hcarried
  · cases h
    exact .failed _ rfl
  · rcases b with f | _ | ⟨row, rows⟩
    · cases h
      exact .failed _ rfl
    · obtain ⟨hrows, hended⟩ := Statement.carryOut_unmatched hcarried
      obtain ⟨rfl, rfl⟩ := Prod.mk.inj h
      exact updated_of_unmatched hx hrows hended rfl
    · obtain ⟨rfl, rfl⟩ := Prod.mk.inj h
      obtain ⟨old, hrow⟩ := Statement.carryOut_matched hcarried
      cases hr : JobRow.decode row with
      | error e =>
        obtain ⟨cause, rfl⟩ := JobRow.decode_error hr
        exact .failed _ rfl
      | ok r' => exact .written r' ⟨_, hrow, rfl⟩

end Shared

/-! ### Cancellations and completions -/

namespace Shared

variable {h h' g : Host Shared} {m : Manager} {c : JobContext} {r : JobRecord} {id id' : JobId} {s state : JobState}
  {a : Except JobError Unit}

private theorem lawful_perform {now : Instant} {c : StoreCall} {a : c.Answer} {x y : Shared} (hx : x.rows.Lawful)
    (h : store.perform now c x = (a, y)) : y.rows.Lawful := by
  have hkeeps := keeps_perform now c x
  rw [h] at hkeeps
  exact hkeeps.lawful hx

/-- If there was a row before an update, the update is refused only if the job has ended. -/
private theorem Updated.isTerminal_of_holds {x y : Shared} (hu : Updated r x y (.error (.alreadyTerminal id state)))
    (hx : x.Holds r.id s) : id = r.id ∧ state.isTerminal = true ∧ y.Holds r.id state := by
  cases hu with
  | failed e he => cases he
  | refused s' hy hopen =>
    refine ⟨rfl, ?_, hy⟩
    rw [← Bool.not_eq_false]
    exact fun hs => hx.found_ne_none (hopen hs)

private theorem perform_update_conflict (hl : g.store.rows.Lawful) (hx : g.store.Holds r.id s)
    (hrun : g.perform store (do return (← Action.call (.update r)).mapError StoreError.toJobError) =
      (.error (.conflict id state), h')) : id = r.id ∧ state.isTerminal = true ∧ h'.store.Holds r.id state := by
  rcases hupdate : store.perform g.clock (.update r) g.store with ⟨b, y⟩
  replace hrun := (Host.perform_ask (q := .store (.update r)) (Host.answer_call hupdate)).symm.trans hrun
  have hu := updated hl hupdate
  cases b with
  | ok r' => cases hrun
  | error e =>
    obtain ⟨herror, rfl⟩ := Prod.mk.inj hrun
    obtain rfl : e = .alreadyTerminal id state := by
      cases e <;> cases herror
      rfl
    exact hu.isTerminal_of_holds hx

/-- A cancellation is refused only for a job that has ended. -/
private theorem perform_cancel_conflict (hx : h.store.rows.Lawful)
    (hrun : h.perform store (m.cancel id) = (.error (.conflict id' state), h')) :
    id' = id ∧ state.isTerminal = true ∧ h'.store.Holds id state := by
  rcases hget : store.perform h.clock (.get id) h.store with ⟨b, x⟩
  replace hrun := (Host.perform_ask (q := .store (.get id)) (Host.answer_call hget)).symm.trans hrun
  cases looked hx hget with
  | failed e he =>
    cases e with
    | unavailable _ | serialization _ => cases hrun
    | duplicateId _ | notFound _ | alreadyTerminal _ _ => cases he
  | missing => cases hrun
  | seen r hid hy =>
    change Host.perform store (if r.isTerminal = true then _ else _) _ = _ at hrun
    cases hterm : r.isTerminal with
    | true =>
      rw [hterm] at hrun
      cases hrun
      exact ⟨rfl, hterm, hy⟩
    | false =>
      rw [hterm] at hrun
      rcases hsignal : Host.answer store (.signal m.number id) { h with store := x } with ⟨b, g⟩
      have hg : x = g.store := by
        have hstore := Host.answer_store (S := store) (q := .signal m.number id) trivial { h with store := x }
        rw [hsignal] at hstore
        exact hstore.symm
      replace hrun := (Host.perform_ask (q := .signal m.number id) hsignal).symm.trans hrun
      replace hrun := (Host.perform_ask (q := .clock) rfl).symm.trans hrun
      have hmark : r.markCancelled g.clock = .ok (r.marked g.clock .cancelled) :=
        JobRecord.mark_of_open hterm .cancelled g.clock
      simp only [Dialogue.andThen, hmark] at hrun
      have hid' : (r.marked g.clock .cancelled).id = id := (JobRecord.marked_id r g.clock .cancelled).trans hid
      rw [← hid'] at hy ⊢
      exact perform_update_conflict (hg ▸ lawful_perform hx hget) (hg ▸ hy) hrun

/-- A record that is written without an error is there, unless the job has ended before. -/
private theorem perform_write (hl : g.store.rows.Lawful) (hx : g.store.Holds r.id s) (hr : r.isTerminal = true)
    (hrun : g.perform store (JobContext.write r) = (a, h')) : h'.completed = g.completed ∧
      (a = .ok () → ∃ state : JobState, state.isTerminal = true ∧ h'.store.Holds r.id state) := by
  rcases hupdate : store.perform g.clock (.update r) g.store with ⟨b, y⟩
  replace hrun := (Host.perform_ask (q := .store (.update r)) (Host.answer_call hupdate)).symm.trans hrun
  have hu := updated hl hupdate
  cases hu with
  | failed e he =>
    cases e with
    | unavailable _ | serialization _ =>
      cases hrun
      exact ⟨rfl, nofun⟩
    | duplicateId _ | notFound _ | alreadyTerminal _ _ => cases he
  | written r' hy =>
    cases hrun
    exact ⟨rfl, fun _ => ⟨r.state, hr, hy⟩⟩
  | missing hnone => exact absurd hnone hx.found_ne_none
  | refused s' hy hopen =>
    cases hrun
    obtain ⟨-, hended, -⟩ := Updated.isTerminal_of_holds (.refused s' hy hopen) hx
    exact ⟨rfl, fun _ => ⟨s', hended, hy⟩⟩

private theorem store_complete {n : Nat} (hrun : g.perform store (do Action.complete n; return .ok ()) = (a, h')) :
    h'.store = g.store := by
  have hlast : (Host.answer store (.complete n) g).2 = h' := congrArg Prod.snd hrun
  rw [← hlast]
  exact Host.answer_store (q := .complete n) trivial g

/-- An outcome counts as recorded only for a job that has ended, or for one without a row when it was looked at. -/
private theorem perform_finish {mark : JobRecord.Mark} (hmark : mark.isTerminal = true) (hx : h.store.rows.Lawful)
    (hrun : h.perform store (c.finish mark) = (a, h')) :
    h'.completed = h.completed ∨ h.store.found.get? c.job = none ∨
      ∃ state : JobState, state.isTerminal = true ∧ h'.store.Holds c.job state := by
  rcases hget : store.perform h.clock (.get c.job) h.store with ⟨b, x⟩
  replace hrun := (Host.perform_ask (q := .store (.get c.job)) (Host.answer_call hget)).symm.trans hrun
  cases looked hx hget with
  | failed e he =>
    cases hrun
    exact .inl rfl
  | missing hnone => exact .inr (.inl hnone)
  | seen r hid hy =>
    change Host.perform store (if r.isTerminal = true then _ else _) _ = _ at hrun
    cases hterm : r.isTerminal with
    | true =>
      rw [hterm] at hrun
      have hstore : h'.store = x := store_complete hrun
      exact .inr (.inr ⟨r.state, hterm, hstore ▸ hy⟩)
    | false =>
      rw [hterm] at hrun
      replace hrun := (Host.perform_ask (q := .clock) rfl).symm.trans hrun
      simp only [Dialogue.andThen, JobRecord.mark_of_open hterm] at hrun
      rcases hwrite : Host.perform store (JobContext.write (r.marked h.clock mark)) { h with store := x } with ⟨b, g⟩
      replace hrun := (Host.perform_bind _ _ _).symm.trans hrun
      rw [hwrite] at hrun
      have hid' : (r.marked h.clock mark).id = c.job := (JobRecord.marked_id r h.clock mark).trans hid
      obtain ⟨hsame, hended⟩ := perform_write (lawful_perform hx hget) (hid'.symm ▸ hy)
        ((JobRecord.marked_isTerminal r h.clock mark).trans hmark) hwrite
      cases b with
      | error e =>
        cases hrun
        exact .inl hsame
      | ok =>
        obtain ⟨state, hstate, hg⟩ := hended rfl
        have hstore : h'.store = g.store := store_complete hrun
        exact .inr (.inr ⟨state, hstate, hstore ▸ hid' ▸ hg⟩)

end Shared

/-- Whatever a database answers, an update names the state that its second statement tells. In a table that only stores
write to, however many others do so at the same time and whatever fails, that is the state in which the job has ended,
unless the first statement found no row at all and one was created since. A cancellation is never refused for an open
job, and no outcome that was not recorded counts as recorded while the job that was looked at is open. -/
theorem refusals_name_ended_jobs {h : Host Shared} (hx : h.store.rows.Lawful) :
    (∀ (σ : Type) (answer : (q : Statement) → σ → Except Failure (List Row) × σ) (r : JobRecord) (id : JobId)
      (state : JobState) (s t : σ),
      (Exchange.update r).run answer s = (.error (.alreadyTerminal id state), t) ↔
        id = r.id ∧ ∃ u row rows, answer (.updateOpen (.ofRecord r)) s = (.ok [], u) ∧
          answer (.selectState r.id) u = (.ok (row :: rows), t) ∧ Exchange.decodeState row = .ok state) ∧
    (∀ (r : JobRecord) (id : JobId) (state : JobState) (y : Shared),
      Shared.store.perform h.clock (.update r) h.store = (.error (.alreadyTerminal id state), y) →
      id = r.id ∧ y.Holds id state ∧ (state.isTerminal = true ∨ h.store.found.get? id = none)) ∧
    (∀ (m : Manager) (id id' : JobId) (state : JobState) (h' : Host Shared),
      h.perform Shared.store (m.cancel id) = (.error (.conflict id' state), h') →
      id' = id ∧ state.isTerminal = true ∧ h'.store.Holds id state) ∧
    ∀ (c : JobContext) (completion : Action (Except JobError Unit)) (a : Except JobError Unit) (h' : Host Shared),
      (∃ payload, completion = c.setResult payload) ∨ (∃ message detail, completion = c.setFailed message detail) →
      h.perform Shared.store completion = (a, h') →
      h'.completed = h.completed ∨ h.store.found.get? c.job = none ∨
        ∃ state : JobState, state.isTerminal = true ∧ h'.store.Holds c.job state := by
  refine ⟨fun σ answer r id state s t => Exchange.run_update_eq_alreadyTerminal_iff, ?_, ?_, ?_⟩
  · intro r id state y hrun
    cases Shared.updated hx hrun with
    | failed e he => cases he
    | refused s hy hopen =>
      refine ⟨rfl, hy, ?_⟩
      cases hstate : state.isTerminal with
      | true => exact .inl rfl
      | false => exact .inr (hopen hstate)
  · exact fun m id id' state h' => Shared.perform_cancel_conflict hx
  · rintro c completion a h' (⟨payload, rfl⟩ | ⟨message, detail, rfl⟩) hrun
    · exact Shared.perform_finish rfl hx hrun
    · exact Shared.perform_finish rfl hx hrun

/-- A job that has just been created. -/
def newJob : JobRecord := .accepted ⟨1⟩ { name := "n", timeoutSeconds := 60 } ⟨"a"⟩ .epoch

/-- A process whose next three statements are a look at a job, an update of it, just before which another client
cancels the job, and a look at its state. -/
def overtaken : Host Shared where
  clock := .epoch
  store.rows := (Shared.store.perform .epoch (.create newJob) ⟨.empty, []⟩).2.rows
  store.turns := [{}, { changes := [(.update (newJob.marked .epoch .cancelled), .epoch)] }]

private theorem overtaken_lawful : overtaken.store.rows.Lawful :=
  (Shared.keeps_perform .epoch (.create newJob) ⟨.empty, []⟩).lawful Rows.lawful_empty

/-- A cancellation that is overtaken by another is refused for the job that this has ended. -/
theorem overtaken_cancellation_names_end :
    overtaken.store.rows.Lawful ∧
    ∃ h', overtaken.perform Shared.store (Manager.cancel ⟨0, ⟨"b"⟩, .ofSeconds 5⟩ ⟨1⟩) =
      (.error (.conflict ⟨1⟩ .cancelled), h') ∧ h'.store.Holds ⟨1⟩ .cancelled := by
  refine ⟨overtaken_lawful, _, Prod.ext rfl rfl, ?_⟩
  exact ((refusals_name_ended_jobs overtaken_lawful).2.2.1 _ _ _ _ _ (Prod.ext rfl rfl)).2.2

/-- A database that tells of an open job, then matches no row, and then tells of the open job again. No store makes
its rows so, but another program may. -/
def reopened : Host Session where
  clock := .epoch
  store.replies := [.rows [(JobRow.ofRecord newJob).toRow], .rows [], .rows [[("state", .text "accepted")]]]

/-- A job that is created between the two statements of an update is said to have ended in the state accepted. If an
open job is there again after no row was matched, its cancellation is refused, and its result is dropped but counts as
recorded. -/
theorem created_job_is_said_to_have_ended :
    Rows.Lawful .empty ∧
    (Shared.store.perform .epoch (.update newJob) ⟨.empty, [{}, { changes := [(.create newJob, .epoch)] }]⟩).1 =
      .error (.alreadyTerminal ⟨1⟩ .accepted) ∧
    (reopened.perform store (Manager.cancel ⟨0, ⟨"b"⟩, .ofSeconds 5⟩ ⟨1⟩)).1 = .error (.conflict ⟨1⟩ .accepted) ∧
    (reopened.perform store (JobContext.setResult ⟨0, ⟨1⟩⟩ .null)).1 = .ok () ∧
    (reopened.perform store (JobContext.setResult ⟨0, ⟨1⟩⟩ .null)).2.completed = [0] ∧
    JobState.accepted.isTerminal = false :=
  ⟨Rows.lawful_empty, rfl, rfl, rfl, rfl, rfl⟩

end JobLedger.Postgres
