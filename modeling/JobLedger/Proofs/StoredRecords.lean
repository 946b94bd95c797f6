import JobLedger.Proofs.RecordMarks
import JobLedger.Proofs.RedisCalls

/-!
# Records stored on the server

Under every record key is the text of a record of its job, and under the key of the index a list. If the records
can be read back, so can the texts under any record keys.
-/
namespace JobLedger

/-- The value can be read as the payload of a stored record. One level of nesting is taken by the record. -/
def Json.IsReadable (v : Json) : Prop := (Json.Document.value? 126 (Json.Document.written v)).isSome

namespace JobRecord

/-- What is stored for the record can be read. -/
def IsReadable (r : JobRecord) : Prop := r.rereadPayload?.isSome

/-- The record as it is read from what is stored for it. -/
def restored (r : JobRecord) : JobRecord := { r.timesRestored with resultPayload := r.rereadPayload?.getD none }

theorem IsReadable.decode?_encode {r : JobRecord} (h : r.IsReadable) : decode? r.encode = some r.restored := by
  obtain ⟨p, hp⟩ := Option.isSome_iff_exists.1 h
  rw [JobRecord.decode?_encode, restored, hp]
  rfl

theorem IsRestorable.isReadable {r : JobRecord} (h : r.IsRestorable) : r.IsReadable := by
  rw [IsReadable, rereadPayload?_of_restorable h.payload]
  rfl

theorem isReadable_of_none {r : JobRecord} (h : r.resultPayload = none) : r.IsReadable := by
  rw [IsReadable, rereadPayload?_of_none h]
  rfl

theorem isReadable_of_some {r : JobRecord} {p : Json} (h : r.resultPayload = some p) (hp : p.IsReadable) :
    r.IsReadable := by
  cases p with
  | null =>
    rw [IsReadable, rereadPayload?_of_null h]
    rfl
  | _ =>
    rw [IsReadable, rereadPayload?_of_ne_null h nofun, Option.isSome_map]
    exact hp

theorem restored_resultPayload_of_none {r : JobRecord} (h : r.resultPayload = none) :
    r.restored.resultPayload = none := by
  rw [restored, rereadPayload?_of_none h]
  rfl

end JobRecord

namespace Redis

theorem decode_encode {r : JobRecord} (h : r.IsReadable) : Exchange.decode r.encode = .ok r.restored := by
  rw [Exchange.decode, h.decode?_encode]

/-- Every record key holds the text of a record of its job that has a property, the key of the index a list. -/
structure Stores (s : Settings) (P : JobRecord → Prop) (d : Database) : Prop where
  record : ∀ k e, d.entries.get? (s.recordKey k) = some e → ∃ r, e.content = .text r.encode ∧ k = r.id.text ∧ P r
  index : ∀ e, d.entries.get? s.indexKey = some e → ∃ items, e.content = .list items

namespace Stores

variable {s : Settings} {P : JobRecord → Prop} {d d' : Database} {r : JobRecord} {now : Int}

theorem empty (s : Settings) (P : JobRecord → Prop) : Stores s P .empty where
  record k e h := by simp [Database.empty] at h
  index e h := by simp [Database.empty] at h

theorem congr_database (h : Stores s P d) (hd : d' = d) : Stores s P d' := hd ▸ h

theorem put_record (h : Stores s P d) (hr : P r) (t : Option Int) :
    Stores s P (d.put (s.recordKey r.id.text) ⟨.text r.encode, t⟩) where
  record k e he := by
    rw [Database.get?_put] at he
    split at he
    · rename_i hk
      obtain rfl := Option.some.inj he
      exact ⟨r, rfl, s.recordKey_injective hk, hr⟩
    · exact h.record k e he
  index e he := by
    rw [Database.get?_put_of_ne (s.recordKey_ne_indexKey _).symm] at he
    exact h.index e he

/-- A list under the key of the index in the place of what was there. -/
theorem of_index (h : Stores s P d) {items : List String} {t : Option Int}
    (hd : ∀ k, d'.entries.get? k = if k = s.indexKey then some ⟨.list items, t⟩ else d.entries.get? k) :
    Stores s P d' where
  record k e he := by
    rw [hd, if_neg (s.recordKey_ne_indexKey k)] at he
    exact h.record k e he
  index e he := by
    rw [hd, if_pos rfl] at he
    obtain rfl := Option.some.inj he
    exact ⟨items, rfl⟩

theorem of_text? (h : Stores s P d) {k value : String} (hk : d.text? now (s.recordKey k) = some (some value)) :
    ∃ r, value = r.encode ∧ k = r.id.text ∧ P r := by
  obtain ⟨t, he⟩ := Database.text?_eq_some.1 hk
  obtain ⟨r, hr, hid, hP⟩ := h.record k _ (Database.entry?_eq_some.1 he).1
  exact ⟨r, Content.text.inj hr, hid, hP⟩

/-- The texts under record keys are read as the records of the jobs. -/
theorem decode_texts (h : Stores s P d) (hP : ∀ r, P r → r.IsReadable) (items : List String) :
    ∃ rs, ((d.texts now (items.map s.recordKey)).filterMap fun v => v).mapM Exchange.decode = .ok rs ∧
      rs.length ≤ items.length ∧ ∀ r, r ∈ rs ↔ ∃ k ∈ items, ∃ value, d.text? now (s.recordKey k) = some (some value) ∧
        Exchange.decode value = .ok r := by
  induction items with
  | nil => exact ⟨[], rfl, Nat.le_refl 0, by simp⟩
  | cons k items ih =>
    obtain ⟨rs, hrs, hlength, hmem⟩ := ih
    rw [Database.texts] at hrs ⊢
    rw [List.map_cons, List.map_cons]
    cases hk : (d.text? now (s.recordKey k)).join with
    | none =>
      refine ⟨rs, by rw [List.filterMap_cons_none rfl, hrs], Nat.le_succ_of_le hlength, fun r => ?_⟩
      have hnot : ∀ value, d.text? now (s.recordKey k) ≠ some (some value) := by
        intro value hv
        simp [hv] at hk
      simp [hmem, hnot]
    | some value =>
      have hv : d.text? now (s.recordKey k) = some (some value) := Option.join_eq_some_iff.1 hk
      obtain ⟨r₀, rfl, -, hr₀⟩ := h.of_text? hv
      have hdecode := decode_encode (hP r₀ hr₀)
      refine ⟨r₀.restored :: rs, ?_, Nat.succ_le_succ hlength, fun r => ?_⟩
      · rw [List.filterMap_cons_some (f := fun v => v) rfl, List.mapM_cons, hdecode, hrs]
        rfl
      · simp [hmem, hv, hdecode, eq_comm]

end Stores

section
variable {s : Settings} {now : Instant} {x : Server}

/-- Without failures that wait for commands, a record is put in the place of an open one. -/
theorem perform_update_of_open (hx : x.faults = []) {r old : JobRecord} {expiry : Int}
    (h : x.database.text? now.millis (s.recordKey r.id.text) = some (some old.encode)) (hread : old.IsReadable)
    (hopen : old.isTerminal = false) (he : expiry? now.millis (s.secondsFor r.state) = some expiry) :
    ∃ y, (store s).perform now (.update r) x = (.ok (r.stamped now), y) ∧ y.faults = [] ∧
      y.database = x.database.put (s.recordKey r.id.text) ⟨.text (r.stamped now).encode, some expiry⟩ := by
  have hstate : Server.isOpenState old.state.name = true := by
    rw [JobState.isOpenState_name, show old.state.isTerminal = false from hopen]
    rfl
  obtain ⟨y, hy, hfaults, hdatabase⟩ : ∃ y, Server.answer now.millis
      (.replaceOpen (s.recordKey r.id.text) (r.stamped now).encode (s.secondsFor r.state)) x =
        (.ok "OK", y) ∧ y.faults = [] ∧ y.database = x.database.put (s.recordKey r.id.text) ⟨_, some expiry⟩ :=
    Server.answer_replaceOpen_of_open hx h (JobRecord.storedState?_encode hread x.database) hstate he
  refine ⟨y, ?_, hfaults, hdatabase⟩
  exact (Exchange.run_send_of_answer hy).trans rfl

end

end Redis

end JobLedger
