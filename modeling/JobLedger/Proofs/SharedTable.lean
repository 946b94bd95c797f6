import JobLedger.Postgres.Store
import JobLedger.Proofs.Contracts
import JobLedger.Proofs.DatabaseRows
import JobLedger.Table

/-!
# A table that others change

The rows of jobs in a table that is shared with other clients. Each statement is carried out in one step, and before it
the others may have created and updated any jobs. It may also fail, without having been carried out or after it.
Whoever asks what, no row goes away, and the row of a job that has ended stays as it is. Main statement:
`Shared.keeps_perform`.
-/
namespace JobLedger.Postgres

/-! ### Statements on rows -/

namespace JobRow

/-- An update may replace the row. Other than a state that is read, one that is matched is in lower case. -/
def isOpen (row : JobRow) : Bool := row.state == "accepted" || row.state == "running"

/-- The constraints of the table hold. -/
def isAllowed (row : JobRow) : Bool :=
  decide (0 ≤ row.percentComplete ∧ row.percentComplete ≤ 100) && row.completedAt.isNone == row.isOpen

/-- The row with the values that an update sets. -/
def updated (row new : JobRow) (now : Instant) : JobRow :=
  { row with
    state := new.state
    percentComplete := new.percentComplete
    lastUpdatedAt := now
    completedAt := new.completedAt
    resultPayload := new.resultPayload
    errorMessage := new.errorMessage
    errorDetail := new.errorDetail
    cancellationRequested := new.cancellationRequested }

end JobRow

/-- The rows of a table, each under the identifier of its job. -/
abbrev Rows : Type := Table JobId JobRow

/-- A row is put into the table and some rows are told, unless a constraint is violated. -/
def Rows.put (id : JobId) (row : JobRow) (told : List Row) (t : Rows) : Except Failure (List Row) × Rows :=
  if row.isAllowed then (.ok told, t.insert id row) else (.error (.database "23514" "check constraint violated"), t)

/-- What a statement tells and what it makes of the rows, at a time. Which rows a listing tells is left open. -/
def Statement.carryOut (now : Instant) (listing : List Row) (t : Rows) :
    Statement → Except Failure (List Row) × Rows
  | .create _ => (.ok [], t)
  | .insert row =>
    if t.contains row.id then (.error (.database "23505" "unique constraint violated"), t) else t.put row.id row []
  | .select id => (.ok ((t.get? id).toList.map JobRow.toRow), t)
  | .selectState id => (.ok ((t.get? id).toList.map fun row => [("state", .text row.state)]), t)
  | .updateOpen new =>
    match t.get? new.id with
    | none => (.ok [], t)
    | some row =>
      if row.isOpen then t.put new.id (row.updated new now) [(row.updated new now).toRow] else (.ok [], t)
  | .selectExpired _ | .selectPage _ _ _ _ => (.ok listing, t)

/-! ### Other clients -/

/-- What another client asks for that changes rows. -/
inductive Change where
  | create (r : JobRecord)
  | update (r : JobRecord)

def Change.statement : Change → Statement
  | .create r => .insert (.ofRecord r)
  | .update r => .updateOpen (.ofRecord r)

/-- What becomes of a statement that is sent. -/
inductive Fate where
  | answered
  /-- It is carried out, but its answer is lost. -/
  | lost (f : Failure)
  | failed (f : Failure)

/-- What happens before a statement of one client and with it. -/
structure Turn where
  /-- What the others asked for before it, at their times. -/
  changes : List (Change × Instant) := []
  time : Instant := .epoch
  fate : Fate := .answered
  listing : List Row := []

/-- A shared table, with what happens at the statements to come. -/
structure Shared where
  rows : Rows
  turns : List Turn := []

namespace Shared

def turn (x : Shared) : Turn := x.turns.headD {}

/-- The rows that the next statement finds. -/
def found (x : Shared) : Rows :=
  x.turn.changes.foldl (fun t c => (c.1.statement.carryOut c.2 [] t).2) x.rows

def answer (q : Statement) (x : Shared) : Except Failure (List Row) × Shared :=
  let carried := q.carryOut x.turn.time x.turn.listing x.found
  match x.turn.fate with
  | .answered => (carried.1, ⟨carried.2, x.turns.tail⟩)
  | .lost f => (.error f, ⟨carried.2, x.turns.tail⟩)
  | .failed f => (.error f, ⟨x.found, x.turns.tail⟩)

/-- The store of one of the clients. -/
def store : StatusStore Shared where
  perform _ c x := (Exchange.ofCall c).run answer x

end Shared

/-! ### What statements keep -/

/-- The row of a job, in a state as a store writes it. -/
structure JobRow.IsOf (id : JobId) (row : JobRow) : Prop where
  id_eq : row.id = id
  state_eq : ∃ s : JobState, row.state = s.name

theorem JobRow.isOpen_of_name {row : JobRow} {s : JobState} (h : row.state = s.name) : row.isOpen = !s.isTerminal := by
  rw [isOpen, h]
  cases s <;> rfl

private theorem JobRow.isOf_ofRecord (r : JobRecord) : (ofRecord r).IsOf r.id := ⟨rfl, r.state, rfl⟩

namespace Rows

variable {t u v : Rows} {id : JobId} {row : JobRow}

def Lawful (t : Rows) : Prop := ∀ id row, t.get? id = some row → row.IsOf id

theorem lawful_empty : Lawful .empty := fun _ _ h => nomatch h

/-- No row is gone, and those of jobs that have ended are the same. -/
structure Keeps (t u : Rows) : Prop where
  kept : ∀ id row, t.get? id = some row → ∃ row', u.get? id = some row' ∧ (row.isOpen = false → row' = row)
  lawful : t.Lawful → u.Lawful

theorem Keeps.refl (t : Rows) : Keeps t t := ⟨fun _ row h => ⟨row, h, fun _ => rfl⟩, fun h => h⟩

theorem Keeps.trans (h : Keeps t u) (h' : Keeps u v) : Keeps t v where
  kept id row hrow := by
    obtain ⟨row', hrow', hsame⟩ := h.kept id row hrow
    obtain ⟨row'', hrow'', hsame'⟩ := h'.kept id row' hrow'
    refine ⟨row'', hrow'', fun hended => ?_⟩
    obtain rfl := hsame hended
    exact hsame' hended
  lawful hl := h'.lawful (h.lawful hl)

theorem Keeps.get?_eq_none (h : Keeps t u) (hu : u.get? id = none) : t.get? id = none := by
  refine Option.eq_none_iff_forall_ne_some.mpr fun row hrow => ?_
  obtain ⟨row', hrow', -⟩ := h.kept id row hrow
  rw [hu] at hrow'
  cases hrow'

theorem Keeps.ended (h : Keeps t u) (hrow : t.get? id = some row) (hended : row.isOpen = false) :
    u.get? id = some row := by
  obtain ⟨row', hrow', hsame⟩ := h.kept id row hrow
  rw [hrow', hsame hended]

/-- A row may be put where there is none or an open one. -/
private theorem keeps_put {told : List Row} (hfree : ∀ old, t.get? id = some old → old.isOpen = true)
    (hrow : t.Lawful → row.IsOf id) : Keeps t (t.put id row told).2 := by
  unfold put
  split
  · refine ⟨fun i old hold => ?_, fun hl i new hnew => ?_⟩
    · rw [Table.get?_insert]
      split
      · rename_i hi
        subst hi
        refine ⟨row, rfl, fun hended => ?_⟩
        rw [hfree old hold] at hended
        cases hended
      · exact ⟨old, hold, fun _ => rfl⟩
    · rw [Table.get?_insert] at hnew
      split at hnew
      · rename_i hi
        cases hnew
        exact hi ▸ hrow hl
      · exact hl i new hnew
  · exact .refl t

end Rows

namespace Statement

variable {q : Statement}

/-- The statement is one that a store asks: rows that it sends are those of records. -/
def IsSent : Statement → Prop
  | .insert row | .updateOpen row => ∃ r, row = .ofRecord r
  | _ => True

private theorem keeps_carryOut (h : q.IsSent) (now : Instant) (listing : List Row) (t : Rows) :
    t.Keeps (q.carryOut now listing t).2 := by
  cases q with
  | insert row =>
    obtain ⟨r, rfl⟩ := h
    simp only [carryOut]
    split
    · exact .refl t
    · rename_i hfree
      refine Rows.keeps_put (fun old hold => absurd ?_ hfree) fun _ => JobRow.isOf_ofRecord r
      show (t.get? r.id).isSome = true
      rw [show t.get? r.id = some old from hold]
      rfl
  | updateOpen new =>
    obtain ⟨r, rfl⟩ := h
    simp only [carryOut]
    split
    · exact .refl t
    · rename_i row hrow
      split
      · rename_i hopen
        refine Rows.keeps_put (fun old hold => ?_) fun hl => ⟨(hl _ row hrow).id_eq, r.state, rfl⟩
        obtain rfl := Option.some.inj (hrow.symm.trans hold)
        exact hopen
      · exact .refl t
  | create | select | selectState | selectExpired | selectPage => exact .refl t

end Statement

private theorem Change.isSent (c : Change) : c.statement.IsSent := by
  cases c with
  | create r | update r => exact ⟨r, rfl⟩

namespace Shared

variable {q : Statement} {x y : Shared} {a : Except Failure (List Row)}

/-- Whatever the others do. -/
theorem keeps_found (x : Shared) : x.rows.Keeps x.found := by
  unfold found
  generalize x.turn.changes = changes
  generalize x.rows = t
  induction changes generalizing t with
  | nil => exact .refl t
  | cons c cs ih => exact (Statement.keeps_carryOut c.1.isSent c.2 [] t).trans (ih _)

/-- A statement fails, or it tells what there is in the rows that it finds and leaves what it makes of them. -/
theorem answer_cases (h : answer q x = (a, y)) :
    (∃ f, a = .error f) ∨ q.carryOut x.turn.time x.turn.listing x.found = (a, y.rows) := by
  unfold answer at h
  split at h
  · cases h
    exact .inr rfl
  · cases h
    exact .inl ⟨_, rfl⟩
  · cases h
    exact .inl ⟨_, rfl⟩

private theorem keeps_answer (hq : q.IsSent) (h : answer q x = (a, y)) : x.found.Keeps y.rows := by
  have hcarried := Statement.keeps_carryOut hq x.turn.time x.turn.listing x.found
  unfold answer at h
  split at h
  · cases h
    exact hcarried
  · cases h
    exact hcarried
  · cases h
    exact .refl x.found

end Shared

/-- The contract of the statements of a store. -/
def Exchange.asked : Contract Statement.interface := ⟨Statement.IsSent, fun _ _ => True⟩

theorem Exchange.honours_ofCall (c : StoreCall) : (ofCall c).Honours asked fun _ => True := by
  cases c with
  | create r => exact ⟨⟨r, rfl⟩, fun a _ => by cases a <;> trivial⟩
  | get id => exact ⟨trivial, fun a _ => by rcases a with f | _ | ⟨row, rows⟩ <;> trivial⟩
  | findExpired now => exact ⟨trivial, fun a _ => by cases a <;> trivial⟩
  | list q => exact ⟨trivial, fun a _ => by cases a <;> trivial⟩
  | update r =>
    refine ⟨⟨r, rfl⟩, fun a _ => ?_⟩
    rcases a with f | _ | ⟨row, rows⟩
    · trivial
    · exact ⟨trivial, fun b _ => by rcases b with f | _ | ⟨row, rows⟩ <;> trivial⟩
    · trivial

namespace Shared

private theorem keeps_run {α : Type} {d : Exchange α} (hd : d.Honours Exchange.asked fun _ => True) (x : Shared) :
    x.rows.Keeps (d.run answer x).2.rows := by
  induction d generalizing x with
  | done a => exact .refl x.rows
  | ask q k ih => exact ((keeps_found x).trans (keeps_answer hd.1 rfl)).trans (ih _ (hd.2 _ trivial) _)

theorem keeps_perform (now : Instant) (c : StoreCall) (x : Shared) : x.rows.Keeps (store.perform now c x).2.rows :=
  keeps_run (Exchange.honours_ofCall c) x

end Shared

end JobLedger.Postgres
