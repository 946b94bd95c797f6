import JobLedger.Postgres.Store
import JobLedger.Proofs.Deadlines
import JobLedger.Proofs.RecordText

/-!
# Records as rows of a database

The values that are sent for a record, read as a row again, are that record, but for a timeout that is too long for
its column. In the other direction a row is a record exactly if its state is the name of one in some letter case and
its numbers are in range, and it is then the row of that record, unless its state is not in lower case. Main
statement: `rows_are_records`.
-/
namespace JobLedger

namespace JobState

private theorem toLower_name (s : JobState) : s.name.toList.map Char.toLower = s.name.toList := by
  cases s <;> rfl

private theorem name_injective : Function.Injective name := by
  intro s t h
  exact Option.some.inj ((named?_name s).symm.trans (h ▸ named?_name t))

/-- No two names are the same up to the case of letters. -/
private theorem spelled?_eq_some_iff {text : String} {s : JobState} :
    spelled? text = some s ↔ Text.sameAsciiCase s.name text = true := by
  constructor
  · intro h
    have hsame := List.find?_some h
    exact hsame
  · intro h
    obtain ⟨t, ht⟩ : ∃ t, spelled? text = some t :=
      Option.isSome_iff_exists.mp (List.find?_isSome.mpr ⟨s, mem_all s, h⟩)
    have hnames : t.name.toList = s.name.toList := by
      have hsame := List.find?_some ht
      simp only [Text.sameAsciiCase, beq_iff_eq, toLower_name] at h hsame
      exact hsame.trans h.symm
    rw [ht, name_injective (String.toList_inj.mp hnames)]

/-- A text in lower case is the name of the state that it spells. -/
private theorem name_of_lower {text : String} {s : JobState} (h : Text.sameAsciiCase s.name text = true)
    (hlower : text.toList.map Char.toLower = text.toList) : s.name = text := by
  rw [Text.sameAsciiCase, beq_iff_eq, toLower_name, hlower] at h
  exact String.toList_inj.mp h

end JobState

namespace Postgres

namespace JobRow

variable {row : JobRow} {r : JobRecord}

/-- The state is one of the six in some letter case, and the numbers are in range. -/
structure Convertible (row : JobRow) : Prop where
  state : ∃ s : JobState, Text.sameAsciiCase s.name row.state = true
  percent : 0 ≤ row.percentComplete ∧ row.percentComplete ≤ 100
  timeout : 0 ≤ row.timeoutSeconds

/-! ### Rows with all columns -/

private theorem ofRow?_toRow (row : JobRow) : ofRow? row.toRow = some row := by
  obtain ⟨_, _, _, _, _, _, _ | _, _ | _, _ | _, _ | _, _, _, _, _ | _, _ | _⟩ := row <;> rfl

theorem decode_toRow (row : JobRow) : decode row.toRow = row.toRecord := by
  rw [decode, ofRow?_toRow]

private theorem toRecord_of_convertible (h : row.Convertible) : ∃ r, row.toRecord = .ok r := by
  obtain ⟨⟨s, hs⟩, hpercent, htimeout⟩ := h
  unfold toRecord
  rw [JobState.spelled?_eq_some_iff.mpr hs]
  simp [hpercent, Int.not_lt.mpr htimeout]

theorem of_toRecord (h : row.toRecord = .ok r) :
    row.Convertible ∧ r.id = row.id ∧ JobState.spelled? row.state = some r.state := by
  unfold toRecord at h
  split at h
  · cases h
  · rename_i s hs
    split at h
    · cases h
    · split at h
      · cases h
      · cases h
        exact ⟨⟨⟨s, JobState.spelled?_eq_some_iff.mp hs⟩, by omega, by omega⟩, rfl, hs⟩

theorem toRecord_error {e : StoreError} (h : row.toRecord = .error e) : ∃ cause, e = .serialization cause := by
  unfold toRecord at h
  split at h
  · cases h
    exact ⟨_, rfl⟩
  · split at h
    · cases h
      exact ⟨_, rfl⟩
    · split at h
      · cases h
        exact ⟨_, rfl⟩
      · cases h

private theorem toRecord_ok_iff : (∃ r, row.toRecord = .ok r) ↔ row.Convertible := by
  constructor
  · rintro ⟨r, hr⟩
    exact (of_toRecord hr).1
  · exact toRecord_of_convertible

/-! ### Rows of any columns -/

private theorem decode_ok_iff {row : Row} :
    (∃ r, decode row = .ok r) ↔ ∃ t, ofRow? row = some t ∧ t.Convertible := by
  cases ht : ofRow? row with
  | none => simp [decode, ht]
  | some t => simpa [decode, ht] using toRecord_ok_iff

theorem decode_error {row : Row} {e : StoreError} (h : decode row = .error e) : ∃ cause, e = .serialization cause := by
  unfold decode at h
  split at h
  · exact toRecord_error h
  · cases h
    exact ⟨.row, rfl⟩

/-! ### Rows of records -/

private theorem toRecord_ofRecord (h : r.percentComplete ≤ 100) : (ofRecord r).toRecord = .ok r.withColumnTimeout := by
  have hpercent : r.percentComplete.toNat ≤ 100 := UInt8.le_iff_toNat_le.mp h
  have htimeout : (min (r.timeoutSeconds.toNat : Int) maxTimeout).toNat = min r.timeoutSeconds.toNat maxTimeout := by
    omega
  unfold toRecord
  rw [show JobState.spelled? (ofRecord r).state = some r.state from JobState.spelled?_name r.state]
  dsimp only
  rw [if_neg (by simp only [ofRecord]; omega), if_neg (by simp only [ofRecord]; omega)]
  simp only [ofRecord, htimeout, Int.toNat_natCast, UInt8.ofNat_toNat]
  rfl

/-- A row that is a record is the row of that record. -/
private theorem ofRecord_of_toRecord (h : row.toRecord = .ok r)
    (hlower : row.state.toList.map Char.toLower = row.state.toList) (htimeout : row.timeoutSeconds ≤ maxTimeout) :
    ofRecord r = row := by
  unfold toRecord at h
  split at h
  · cases h
  · rename_i s hs
    split at h
    · cases h
    · rename_i hpercent
      split at h
      · cases h
      · cases h
        have hname := JobState.name_of_lower (JobState.spelled?_eq_some_iff.mp hs) hlower
        have hpercent : ((UInt8.ofNat row.percentComplete.toNat).toNat : Int) = row.percentComplete := by
          rw [UInt8.toNat_ofNat_of_lt' (by simp only [UInt8.size]; omega)]
          omega
        have htimeout : min ((UInt64.ofNat row.timeoutSeconds.toNat).toNat : Int) maxTimeout = row.timeoutSeconds := by
          have hmax : maxTimeout < UInt64.size := by decide
          rw [UInt64.toNat_ofNat_of_lt' (by omega)]
          omega
        simp only [ofRecord, hname, hpercent, htimeout]

end JobRow

/-- What is sent for a record is, as a row again, the record with a timeout that fits its column, and its deadline is
the same. A row is a record exactly if all its columns can be read, its state is one of the six in some letter case,
its percentage is one and its timeout is not negative, and else there is an error of serialization. What is sent for
that record is the row again if its state is in lower case; no column holds a longer timeout than the longest. -/
theorem rows_are_records :
    (∀ r : JobRecord, r.percentComplete ≤ 100 →
      (∃ next, Exchange.create r = .ask (.insert (.ofRecord r)) next) ∧
      JobRow.decode (JobRow.columns.zip ((Statement.insert (.ofRecord r)).parameters.map Prod.snd)) =
        .ok r.withColumnTimeout ∧
      r.withColumnTimeout.deadline = r.deadline) ∧
    (∀ row : Row,
      ((∃ r, JobRow.decode row = .ok r) ↔ ∃ t, JobRow.ofRow? row = some t ∧ t.Convertible) ∧
      ((¬∃ r, JobRow.decode row = .ok r) → ∃ cause, JobRow.decode row = .error (.serialization cause))) ∧
    ∀ row : JobRow,
      JobRow.ofRow? row.toRow = some row ∧
      ∀ r, JobRow.decode row.toRow = .ok r → row.state.toList.map Char.toLower = row.state.toList →
        row.timeoutSeconds ≤ JobRow.maxTimeout → ∃ next, Exchange.create r = .ask (.insert row) next := by
  refine ⟨?_, ?_, ?_⟩
  · intro r hr
    refine ⟨⟨_, rfl⟩, ?_, r.deadline_withColumnTimeout⟩
    exact (JobRow.decode_toRow (.ofRecord r)).trans (JobRow.toRecord_ofRecord hr)
  · intro row
    refine ⟨JobRow.decode_ok_iff, fun h => ?_⟩
    cases hr : JobRow.decode row with
    | ok r => exact absurd ⟨r, hr⟩ h
    | error e =>
      obtain ⟨cause, rfl⟩ := JobRow.decode_error hr
      exact ⟨cause, rfl⟩
  · intro row
    refine ⟨JobRow.ofRow?_toRow row, fun r hr hlower htimeout => ?_⟩
    rw [JobRow.decode_toRow] at hr
    rw [← JobRow.ofRecord_of_toRecord hr hlower htimeout]
    exact ⟨_, rfl⟩

/-- A record with the longest timeout of all. -/
def endless : JobRecord := .accepted ⟨1⟩ { name := "n", timeoutSeconds := 18446744073709551615 } ⟨"a"⟩ .epoch

/-- The longest timeout is cut to that of its column. A state in upper case can be read, a percentage of 101 cannot. -/
theorem endless_row :
    (∃ r, JobRow.decode (JobRow.ofRecord endless).toRow = .ok r ∧ r.timeoutSeconds = 9223372036854775807 ∧
      r.deadline = endless.deadline) ∧
    (∃ r, JobRow.decode { JobRow.ofRecord endless with state := "RUNNING" }.toRow = .ok r) ∧
    (∃ cause, JobRow.decode { JobRow.ofRecord endless with percentComplete := 101 }.toRow =
      .error (.serialization cause)) ∧
    ∃ next, Exchange.create endless.withColumnTimeout = .ask (.insert (.ofRecord endless)) next := by
  obtain ⟨hsent, hread, hbound⟩ := rows_are_records
  obtain ⟨-, hdecode, hdeadline⟩ := hsent endless (by decide)
  refine ⟨⟨_, hdecode, by decide, hdeadline⟩, ?_, ?_, ?_⟩
  · refine (hread _).1.mpr ⟨_, (hbound _).1, ⟨.running, by decide⟩, by decide, by decide⟩
  · refine (hread _).2 fun h => ?_
    obtain ⟨t, ht, hconvertible⟩ := (hread _).1.mp h
    obtain rfl := Option.some.inj ((hbound _).1.symm.trans ht)
    exact absurd hconvertible.percent (by decide)
  · exact (hbound (.ofRecord endless)).2 _ hdecode (by decide) (by decide)

end Postgres

end JobLedger
