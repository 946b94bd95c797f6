import JobLedger.Job.Codec
import JobLedger.Proofs.IdentifierText
import JobLedger.Proofs.InstantText
import JobLedger.Proofs.ReadJson
import JobLedger.Redis.Server

/-!
# Records written and read

A record reads back from its text as itself, but for leap seconds inside a minute and for its payload, which is read
as free JSON with the room for nesting that is left inside a record: null is read as no payload, and a payload nested
too deep makes the whole record unreadable. Main statements: `JobRecord.decode?_encode`, and
`JobRecord.storedState?_encode` for the state that the conditional replacement looks at.
-/
namespace JobLedger

open Json (orNull nat insertMember Reader)
open Json.Document (written writtenMembers value?)
open Json.Reader (members? single? required omittable word8 word64)

namespace Json

/-! ### Members of written objects -/

private theorem filter_writtenMembers (name : String) : ∀ ms : List (String × Json),
    (writtenMembers ms).filter (fun m => m.1 == some name) = writtenMembers (ms.filter fun m => m.1 == name)
  | [] => rfl
  | (k, v) :: ms => by
    rw [writtenMembers, List.filter_cons, List.filter_cons, filter_writtenMembers name ms]
    by_cases h : k = name <;> simp [h, writtenMembers]

private theorem filter_fst_of_nodup {α : Type} {ms : List (String × α)} (hnd : (ms.map Prod.fst).Nodup)
    (name : String) :
    ms.filter (fun m => m.1 == name) = ((ms.lookup name).map (Prod.mk name)).toList := by
  induction ms with
  | nil => rfl
  | cons m ms ih =>
    obtain ⟨k, v⟩ := m
    rw [List.map_cons, List.nodup_cons] at hnd
    by_cases h : k = name
    · subst h
      have hrest : ms.lookup k = none := by
        rw [List.lookup_eq_none_iff]
        intro m hm
        exact bne_iff_ne.2 fun heq => hnd.1 (List.mem_map.2 ⟨m, hm, heq.symm⟩)
      simp [ih hnd.2, hrest]
    · have hne : (name == k) = false := beq_eq_false_iff_ne.2 (Ne.symm h)
      rw [List.filter_cons_of_neg (by simpa using h), List.lookup_cons, hne, ih hnd.2]

private theorem lookup_of_mem {α : Type} {ms : List (String × α)} (hnd : (ms.map Prod.fst).Nodup) {m : String × α}
    (hm : m ∈ ms) : ms.lookup m.1 = some m.2 := by
  obtain ⟨front, back, rfl⟩ := List.append_of_mem hm
  refine List.lookup_eq_some_iff.2 ⟨front, back, rfl, fun l hl => bne_iff_ne.2 fun heq => ?_⟩
  rw [List.map_append, List.nodup_append] at hnd
  exact hnd.2.2 l.1 (List.mem_map_of_mem hl) m.1 List.mem_cons_self heq.symm

private theorem single?_writtenMembers {ms : List (String × Json)} (hnd : (ms.map Prod.fst).Nodup) (name : String) :
    single? name (writtenMembers ms) = some ((ms.lookup name).map written) := by
  rw [single?, filter_writtenMembers, filter_fst_of_nodup hnd]
  cases ms.lookup name <;> rfl

private theorem all_isSome_writtenMembers : ∀ ms : List (String × Json), (writtenMembers ms).all fun m => m.1.isSome
  | [] => rfl
  | (_, _) :: ms => by simpa [writtenMembers] using all_isSome_writtenMembers ms

/-- The members of a written object are found by their names, whether they are there or not. -/
theorem members?_written_lookup {ms : List (String × Json)} (hnd : (ms.map Prod.fst).Nodup) (names : List String)
    (room : Nat) : members? names (room + 1) (written (.object ms)) =
      some (room, names.map fun name => (ms.lookup name).map written) := by
  have hfound : names.mapM (fun name => single? name (writtenMembers ms)) =
      some (names.map fun name => (ms.lookup name).map written) := by
    induction names with
    | nil => rfl
    | cons name names ih =>
      rw [List.mapM_cons, single?_writtenMembers hnd, ih]
      rfl
  rw [written, members?, if_pos (all_isSome_writtenMembers ms), hfound, Option.map_some]

/-- The members of a written object are found by their names. -/
private theorem members?_written {ms : List (String × Json)} (hnd : (ms.map Prod.fst).Nodup) (room : Nat) :
    members? (ms.map Prod.fst) (room + 1) (written (.object ms)) = some (room, ms.map fun m => some (written m.2)) := by
  rw [members?_written_lookup hnd, List.map_map]
  congr 2
  refine List.map_congr_left fun m hm => ?_
  rw [Function.comp_apply, lookup_of_mem hnd hm, Option.map_some]

private theorem lookup_insertMember {α : Type} (k name : String) (v : α) (ms : List (String × α)) :
    (insertMember name v ms).lookup k = if k = name then some v else ms.lookup k := by
  induction ms with
  | nil => simp only [insertMember, List.lookup_cons, List.lookup_nil]; grind
  | cons m ms ih =>
    obtain ⟨l, w⟩ := m
    simp only [insertMember]
    split
    · simp only [List.lookup_cons]; grind
    split <;> simp only [List.lookup_cons] <;> grind

/-- A written object whose members can be read is read as an object with the members that were read. -/
private theorem lookup_members?_written {room : Nat} : ∀ {ms : List (String × Json)} (found : List (String × Json)),
    (ms.map Prod.fst).Nodup → (∀ m ∈ ms, (value? room (written m.2)).isSome) →
    ∃ out, Document.members? room (writtenMembers ms) found = some out ∧
      (∀ m ∈ ms, out.lookup m.1 = value? room (written m.2)) ∧
      ∀ k, k ∉ ms.map Prod.fst → out.lookup k = found.lookup k
  | [], found, _, _ => ⟨found, rfl, nofun, fun _ _ => rfl⟩
  | (k, v) :: ms, found, hnd, hr => by
    rw [List.map_cons, List.nodup_cons] at hnd
    obtain ⟨q, hq⟩ := Option.isSome_iff_exists.1 (hr (k, v) List.mem_cons_self)
    obtain ⟨out, hout, hin, hother⟩ := lookup_members?_written (insertMember k q found) hnd.2
      fun m hm => hr m (List.mem_cons_of_mem _ hm)
    refine ⟨out, by rw [writtenMembers, Document.members?, hq]; exact hout, fun m hm => ?_, fun l hl => ?_⟩
    · rcases List.mem_cons.1 hm with rfl | hm
      · rw [hother k hnd.1, lookup_insertMember, if_pos rfl, hq]
      · exact hin m hm
    · rw [List.map_cons, List.mem_cons, not_or] at hl
      rw [hother l hl.2, lookup_insertMember, if_neg hl.1]

/-- A written object with a member that cannot be read is not read. -/
private theorem members?_written_eq_none {room : Nat} {m : String × Json} (hm : value? room (written m.2) = none) :
    ∀ {ms found : List (String × Json)}, m ∈ ms → Document.members? room (writtenMembers ms) found = none
  | [], _, h => by cases h
  | (k, v) :: ms, found, h => by
    rw [writtenMembers, Document.members?]
    rcases List.mem_cons.1 h with rfl | h
    · rw [hm]
    · split
      · exact members?_written_eq_none hm h
      · rfl

/-! ### Readers of written values -/

private theorem written_nat {n : Nat} (h : n < UInt64.size) : written (nat n) = .number (some (.integer n)) := by
  rw [nat, written, Number.reread_integer (by omega) (by omega)]

namespace Reader

theorem bind_of_eq_some {α β : Type} {o : Option α} {a : α} {f : α → Option β} (h : o = some a) : (o >>= f) = f a := by
  rw [h]
  rfl

theorem required_some {α : Type} {r : Reader α} {room : Nat} {d : Document} {a : α} (h : r room d = some a) :
    required r room (some d) = some a := h

theorem string_written (s : String) (room : Nat) : string room (written (.string s)) = some s := rfl

theorem bool_written (b : Bool) (room : Nat) : bool room (written (.bool b)) = some b := rfl

private theorem natural_written {n bound : Nat} (h : n < bound) (hb : bound ≤ UInt64.size) (room : Nat) :
    natural bound room (written (nat n)) = some n := by
  rw [written_nat (by omega)]
  simp [natural, h]

theorem word8_written (n : UInt8) (room : Nat) : word8 room (written (nat n.toNat)) = some n := by
  rw [word8, natural_written n.toNat_lt (by decide)]
  simp

theorem word64_written (n : UInt64) (room : Nat) : word64 room (written (nat n.toNat)) = some n := by
  rw [word64, natural_written n.toNat_lt (by decide)]
  simp

/-- A value that is null when there is none, and is read as another when there is one. -/
theorem omittable_written_map {α β : Type} {r : Reader β} {f : α → Json} {g : α → β} {room : Nat}
    (hne : ∀ a, written (f a) ≠ .null) (hr : ∀ a, r room (written (f a)) = some (g a)) (o : Option α) :
    omittable r room (some (written (orNull f o))) = some (o.map g) := by
  cases o with
  | none => rfl
  | some a =>
    have hoptional : optional r room (written (f a)) = (r room (written (f a))).map some := by
      have := hne a
      unfold optional
      split
      · contradiction
      · rfl
    rw [omittable, orNull, hoptional, hr a, Option.map_some, Option.map_some]

/-- A value that is null when there is none, and is read as itself when there is one. -/
theorem omittable_written {α : Type} {r : Reader α} {f : α → Json} {room : Nat} (hne : ∀ a, written (f a) ≠ .null)
    (hr : ∀ a, r room (written (f a)) = some a) (o : Option α) :
    omittable r room (some (written (orNull f o))) = some o :=
  (omittable_written_map hne hr o).trans (congrArg some (o.map_id'))

end Reader

end Json

theorem JobId.reader_written (id : JobId) (room : Nat) : reader room (written id.toJson) = some id := by
  simp [reader, toJson, written, Reader.spelled, Reader.string]

theorem InstanceId.reader_written (i : InstanceId) (room : Nat) : reader room (written i.toJson) = some i := by
  simp [reader, toJson, written, Reader.string]

theorem Instant.reader_written (t : Instant) (room : Nat) : reader room (written t.toJson) = some t.restored := by
  simp [reader, toJson, written, Reader.spelled, Reader.string]

namespace JobState

theorem named?_name (s : JobState) : named? s.name = some s := by
  cases s <;> decide

theorem spelled?_name (s : JobState) : spelled? s.name = some s := by
  cases s <;> decide

theorem reader_written (s : JobState) (room : Nat) : reader room (written s.toJson) = some s := by
  simp [reader, toJson, written, Reader.choice, named?_name]

theorem isOpenState_name (s : JobState) : Redis.Server.isOpenState s.name = !s.isTerminal := by
  cases s <;> decide

end JobState

namespace JobRecord

/-! ### Whole records -/

/-- The record with its times as they are read from their texts. -/
def timesRestored (r : JobRecord) : JobRecord :=
  { r with
    createdAt := r.createdAt.restored
    lastUpdatedAt := r.lastUpdatedAt.restored
    completedAt := r.completedAt.map Instant.restored }

/-- Every leap second in the record ends a minute. -/
structure HasProperTimes (r : JobRecord) : Prop where
  createdAt : r.createdAt.IsProper
  lastUpdatedAt : r.lastUpdatedAt.IsProper
  completedAt : ∀ t ∈ r.completedAt, t.IsProper

theorem HasProperTimes.timesRestored {r : JobRecord} (h : r.HasProperTimes) : r.timesRestored = r := by
  rw [JobRecord.timesRestored, Instant.restored_of_isProper h.createdAt, Instant.restored_of_isProper h.lastUpdatedAt,
    Instant.map_restored h.completedAt]

/-- The payload as which the payload of a stored record is read, if the record can be read. One level of nesting
is taken by the record. -/
def rereadPayload? (r : JobRecord) : Option (Option Json) :=
  omittable Reader.json 126 (some (written (orNull (fun v => v) r.resultPayload)))

/-- What is stored for a record is read as the record with the times and the payload as they are read. -/
theorem decode?_encode (r : JobRecord) :
    decode? r.encode = r.rereadPayload?.map fun p => { r.timesRestored with resultPayload := p } := by
  have hmembers : members? memberNames Json.nestingLimit (written r.toJson) = _ :=
    Json.members?_written (by show memberNames.Nodup; decide) 126
  have hinstant : ∀ o, omittable Instant.reader 126 (some (written (orNull Instant.toJson o))) =
      some (o.map Instant.restored) :=
    Reader.omittable_written_map (fun t => by simp [Instant.toJson, written]) fun t => t.reader_written 126
  have hstring : ∀ o, omittable Reader.string 126 (some (written (orNull .string o))) = some o :=
    Reader.omittable_written (fun s => by simp [written]) fun s => Reader.string_written s 126
  rw [decode?, Reader.ofText?, encode, Json.Document.ofText?_text, Option.bind_some, reader]
  simp only [List.map_cons, List.map_nil] at hmembers
  refine (Reader.bind_of_eq_some hmembers).trans ?_
  dsimp only
  -- The members in front of the payload.
  refine (Reader.bind_of_eq_some (Reader.required_some (r.id.reader_written 126))).trans ?_
  refine (Reader.bind_of_eq_some (Reader.required_some (Reader.string_written r.name 126))).trans ?_
  refine (Reader.bind_of_eq_some (Reader.required_some (r.state.reader_written 126))).trans ?_
  refine (Reader.bind_of_eq_some (Reader.required_some (Reader.word8_written r.percentComplete 126))).trans ?_
  refine (Reader.bind_of_eq_some (Reader.required_some (r.createdAt.reader_written 126))).trans ?_
  refine (Reader.bind_of_eq_some (Reader.required_some (r.lastUpdatedAt.reader_written 126))).trans ?_
  refine (Reader.bind_of_eq_some (hinstant r.completedAt)).trans ?_
  cases hp : r.rereadPayload? with
  | none =>
    rw [rereadPayload?] at hp
    exact congrArg (· >>= _) hp
  | some p =>
    refine (Reader.bind_of_eq_some hp).trans ?_
    refine (Reader.bind_of_eq_some (hstring r.errorMessage)).trans ?_
    refine (Reader.bind_of_eq_some (hstring r.errorDetail)).trans ?_
    refine (Reader.bind_of_eq_some (Reader.required_some (r.owningInstanceId.reader_written 126))).trans ?_
    refine (Reader.bind_of_eq_some (Reader.required_some (Reader.word64_written r.timeoutSeconds 126))).trans ?_
    refine (Reader.bind_of_eq_some (Reader.required_some (Reader.bool_written r.cancellationRequested 126))).trans ?_
    refine (Reader.bind_of_eq_some (hstring r.createdBy)).trans ?_
    exact (Reader.bind_of_eq_some (hstring r.correlationId)).trans rfl

theorem rereadPayload?_of_none {r : JobRecord} (h : r.resultPayload = none) : r.rereadPayload? = some none := by
  rw [rereadPayload?, h]
  rfl

/-- A payload of null is lost. -/
theorem rereadPayload?_of_null {r : JobRecord} (h : r.resultPayload = some .null) : r.rereadPayload? = some none := by
  rw [rereadPayload?, h]
  rfl

theorem rereadPayload?_of_ne_null {r : JobRecord} {p : Json} (h : r.resultPayload = some p) (hne : p ≠ .null) :
    r.rereadPayload? = (value? 126 (written p)).map some := by
  rw [rereadPayload?, h]
  cases p <;> first | contradiction | rfl

/-- A payload that is nested too deep leaves nothing to be read. -/
theorem rereadPayload?_of_deep {r : JobRecord} {p : Json} (h : r.resultPayload = some p) (hdeep : 126 < p.depth) :
    r.rereadPayload? = none := by
  have hne : p ≠ .null := by
    rintro rfl
    simp [Json.depth] at hdeep
  rw [rereadPayload?_of_ne_null h hne, Json.Document.value?_written_of_lt hdeep, Option.map_none]

private theorem isSome_value?_orNull {α : Type} {f : α → Json} {room : Nat}
    (hr : ∀ a, (value? room (written (f a))).isSome)
    (o : Option α) : (value? room (written (orNull f o))).isSome := by
  cases o with
  | none => simp [orNull, written, value?]
  | some a => exact hr a

/-- What is stored for the payload of a record. -/
abbrev storedPayload (r : JobRecord) : Json := orNull (fun v => v) r.resultPayload

private theorem isSome_value?_payload (r : JobRecord) :
    (value? 126 (written r.storedPayload)).isSome = r.rereadPayload?.isSome := by
  simp only [rereadPayload?, omittable]
  cases written r.storedPayload <;> simp [Reader.optional, Reader.json, value?]

/-- The state is among what is stored for a record, if the payload can be read with the room that is left to it. -/
private theorem member?_state_encode {room : Nat} {r : JobRecord} (h : (value? room (written r.storedPayload)).isSome) :
    (Json.ofTextWithin? (room + 1) r.encode).bind (Json.member? "state") = some (.string r.state.name) := by
  obtain ⟨ms, hms⟩ : ∃ ms, r.toJson = .object ms := ⟨_, rfl⟩
  have hnames : (ms.map Prod.fst).Nodup := by
    cases hms
    show memberNames.Nodup
    decide
  have hstate : ("state", r.state.toJson) ∈ ms := by
    cases hms
    simp
  have hread : ∀ m ∈ ms, (value? room (written m.2)).isSome := by
    have hplain : ∀ s, (value? room (written (.string s))).isSome := fun s => by simp [written, value?]
    have hinstant : ∀ o, (value? room (written (orNull Instant.toJson o))).isSome :=
      isSome_value?_orNull fun t => hplain t.text
    have hstring : ∀ o, (value? room (written (orNull .string o))).isSome := isSome_value?_orNull hplain
    have hbool : ∀ b, (value? room (written (.bool b))).isSome := fun b => by simp [written, value?]
    have hnat : ∀ n : Nat, n < UInt64.size → (value? room (written (nat n))).isSome := by
      intro n hn
      simp [Json.written_nat hn, value?]
    cases hms
    simp only [List.forall_mem_cons, hinstant, hstring, h, hnat _ r.timeoutSeconds.toNat_lt,
      hnat _ (Nat.lt_trans r.percentComplete.toNat_lt (by decide)), true_and]
    exact ⟨hplain _, hplain _, hplain _, hplain _, hplain _, hplain _, hbool _, nofun⟩
  obtain ⟨out, hout, hin, -⟩ := Json.lookup_members?_written [] hnames hread
  have hvalue : Json.ofTextWithin? (room + 1) r.encode = some (.object out) := by
    rw [Json.ofTextWithin?, encode, Json.Document.ofText?_text, Option.bind_some, hms, written, value?, hout,
      Option.map_some]
  rw [hvalue, Option.bind_some, Json.member?, hin _ hstate]
  simp [JobState.toJson, written, value?]

/-- With a payload that cannot be read, nothing of the record is read. -/
private theorem ofTextWithin?_encode_eq_none {room : Nat} {r : JobRecord}
    (h : value? room (written r.storedPayload) = none) :
    Json.ofTextWithin? (room + 1) r.encode = none := by
  obtain ⟨ms, hms⟩ : ∃ ms, r.toJson = .object ms := ⟨_, rfl⟩
  have hpayload : ("result_payload", r.storedPayload) ∈ ms := by
    cases hms
    simp
  rw [Json.ofTextWithin?, encode, Json.Document.ofText?_text, Option.bind_some, hms, written, value?,
    Json.members?_written_eq_none h hpayload, Option.map_none]

private theorem nestingLimit_add (n : Nat) : Json.nestingLimit + n = 126 + n + 1 := by
  rw [Json.nestingLimit]
  omega

/-- The state that a script finds in what is stored for a record is the state of the record. -/
theorem storedState?_encode {r : JobRecord} (h : r.rereadPayload?.isSome) (d : Redis.Database) :
    d.storedState? r.encode = some r.state.name := by
  rw [← isSome_value?_payload] at h
  obtain ⟨v, hv⟩ := Option.isSome_iff_exists.1 h
  have hmore := Json.Document.value?_mono (Nat.le_add_right 126 d.leeway.levels) hv
  rw [Redis.Database.storedState?, nestingLimit_add, member?_state_encode (Option.isSome_of_eq_some hmore)]

/-- It finds no other state, even if the record cannot be read. -/
theorem eq_name_of_storedState?_encode {r : JobRecord} {d : Redis.Database} {state : String}
    (h : d.storedState? r.encode = some state) : state = r.state.name := by
  rw [Redis.Database.storedState?, nestingLimit_add] at h
  cases hp : value? (126 + d.leeway.levels) (written r.storedPayload) with
  | some v =>
    rw [member?_state_encode (Option.isSome_of_eq_some hp)] at h
    exact (Option.some.inj h).symm
  | none =>
    rw [ofTextWithin?_encode_eq_none hp] at h
    cases h

end JobRecord

/-- A payload that comes back from a stored record as it was. -/
structure Json.IsRestorable (v : Json) : Prop where
  ne_null : v ≠ .null
  isWhole : v.IsWhole
  isSorted : v.IsSorted
  depth_le : v.depth ≤ 126

namespace JobRecord

/-- The times come back as they were, and so does the payload if there is one. -/
structure IsRestorable (r : JobRecord) : Prop where
  times : r.HasProperTimes
  payload : ∀ p, r.resultPayload = some p → p.IsRestorable

theorem rereadPayload?_of_restorable {r : JobRecord} (h : ∀ p, r.resultPayload = some p → p.IsRestorable) :
    r.rereadPayload? = some r.resultPayload := by
  cases hp : r.resultPayload with
  | none => exact rereadPayload?_of_none hp
  | some p =>
    have hr := h p hp
    rw [rereadPayload?_of_ne_null hp hr.ne_null, Json.Document.written_eq_ofJson hr.isWhole,
      Json.Document.value?_ofJson hr.isSorted hr.depth_le, Option.map_some]

theorem decode?_encode_of_restorable {r : JobRecord} (h : ∀ p, r.resultPayload = some p → p.IsRestorable) :
    decode? r.encode = some r.timesRestored := by
  rw [JobRecord.decode?_encode, rereadPayload?_of_restorable h, Option.map_some]
  rfl

theorem IsRestorable.decode?_encode {r : JobRecord} (h : r.IsRestorable) : decode? r.encode = some r := by
  rw [decode?_encode_of_restorable h.payload, h.times.timesRestored]

theorem IsRestorable.storedState?_encode {r : JobRecord} (h : r.IsRestorable) (d : Redis.Database) :
    d.storedState? r.encode = some r.state.name :=
  JobRecord.storedState?_encode (by rw [rereadPayload?_of_restorable h.payload]; rfl) d

end JobRecord

/-- The leap second at the end of a day, half over. -/
def endOfDay : Instant := ⟨86399, 1500000000, by decide, by decide⟩

/-- A record of a job that was created in a leap second after 23:56:04. -/
def leapRecord : JobRecord :=
  .accepted ⟨1⟩ { name := "n", timeoutSeconds := 60 } ⟨"a"⟩ ⟨86164, 1333333333, by decide, by decide⟩

theorem leapRecord_decode? : JobRecord.decode? leapRecord.encode = some leapRecord.timesRestored :=
  JobRecord.decode?_encode_of_restorable nofun

end JobLedger
