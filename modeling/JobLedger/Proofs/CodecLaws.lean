import JobLedger.Proofs.FreeJson

/-!
# Nothing is lost in JSON

Records, status views and acknowledgements are read from their own texts as they are, but for a payload of null, which
is read as none, and for leap seconds inside a minute, which are read as the seconds after them. A text that is nested
too deep is refused. Whatever text a value was read from, its own text is read as the same value again. Main
statement: `codecs_are_lossless`.
-/
namespace JobLedger

open Json (orNull nat depth depthMembers optionalMember unlessNull Reader)
open Json.Document (written)
open Json.Reader (members? required omittable word8 word64)

namespace Json

/-- A codec of structures with a place for free JSON loses nothing but a null in that place, and leap seconds inside a
minute. -/
structure IsLossless {α : Type} (decode? : String → Option α) (toJson : α → Json) (payload : α → Option Json)
    (withPayload : α → Option Json → α) (HasProperTimes : α → Prop) : Prop where
  /-- The text of a value is read as the value, if its leap seconds end minutes, if its free JSON is sorted, as free
  JSON always is, and whole, and if the text is not nested too deep. -/
  decode_text : ∀ a, HasProperTimes a → (∀ v ∈ payload a, v.IsWhole ∧ v.IsSorted) →
    (toJson a).depth ≤ nestingLimit → decode? (toJson a).text = some (withPayload a (unlessNull (payload a)))
  decode_deep : ∀ a, nestingLimit < (toJson a).depth → decode? (toJson a).text = none
  /-- What was read from any text is read from its own text as it is. -/
  decode_again : ∀ s a, decode? s = some a → (∀ v ∈ payload a, v.IsWhole) → decode? (toJson a).text = some a

/-- What a codec does with the free JSON and the times in a structure: all of the rest is read as it was written. -/
structure HasPayload {α : Type} (decode? : String → Option α) (toJson : α → Json) (payload : α → Option Json)
    (withPayload : α → Option Json → α) (HasProperTimes : α → Prop) (timesRestored : α → α) : Prop where
  depth_eq : ∀ a, (toJson a).depth = (orNull (fun v => v) (payload a)).depth + 1
  decode_eq : ∀ a, decode? (toJson a).text =
    (omittable Reader.json 126 (some (written (orNull (fun v => v) (payload a))))).map (withPayload (timesRestored a))
  of_decode : ∀ s a, decode? s = some a → HasProperTimes a ∧ ∃ d?, omittable Reader.json 126 d? = some (payload a)
  timesRestored_eq : ∀ a, HasProperTimes a → timesRestored a = a
  withPayload_self : ∀ a, withPayload a (payload a) = a

private theorem depth_orNull {α : Type} {f : α → Json} (h : ∀ a, (f a).depth = 0) (o : Option α) :
    (orNull f o).depth = 0 := by
  cases o with
  | none => rfl
  | some a => exact h a

private theorem HasPayload.isLossless {α : Type} {decode? : String → Option α} {toJson : α → Json}
    {payload : α → Option Json}
    {withPayload : α → Option Json → α} {HasProperTimes : α → Prop} {timesRestored : α → α}
    (h : HasPayload decode? toJson payload withPayload HasProperTimes timesRestored) :
    IsLossless decode? toJson payload withPayload HasProperTimes where
  decode_text a hproper hpayload hdepth := by
    have hfits : ∀ v ∈ payload a, v.IsWhole ∧ v.IsSorted ∧ v.depth ≤ 126 := by
      intro v hv
      rw [h.depth_eq, hv] at hdepth
      exact ⟨(hpayload v hv).1, (hpayload v hv).2, Nat.le_of_succ_le_succ hdepth⟩
    rw [h.decode_eq, Reader.omittable_json_written hfits, h.timesRestored_eq a hproper, Option.map_some]
  decode_deep a hdepth := by
    rw [h.depth_eq] at hdepth
    rw [h.decode_eq, Reader.omittable_json_written_of_lt (Nat.lt_of_succ_lt_succ hdepth), Option.map_none]
  decode_again s a hdecode hwhole := by
    obtain ⟨hproper, d?, hread⟩ := h.of_decode s a hdecode
    obtain ⟨hnull, hread⟩ := Reader.of_omittable_json hread
    rw [h.decode_eq, Reader.omittable_json_written fun v hv => ⟨hwhole v hv, hread v hv⟩, hnull,
      h.timesRestored_eq a hproper, Option.map_some, h.withPayload_self]

/-! ### Members that may be left out -/

private theorem lookup_optionalMember {α : Type} (k name : String) (f : α → Json) (o : Option α) :
    (optionalMember name f o).lookup k = if k = name then o.map f else none := by
  cases o with
  | none => simp [optionalMember]
  | some a =>
    rw [optionalMember, List.lookup_cons, List.lookup_nil]
    by_cases h : k = name
    · simp [h]
    · simp [h, beq_eq_false_iff_ne.mpr h]

private theorem sublist_optionalMember {α : Type} (name : String) (f : α → Json) (o : Option α) :
    ((optionalMember name f o).map Prod.fst).Sublist [name] := by
  cases o with
  | none => exact List.nil_sublist _
  | some a => exact List.Sublist.refl _

@[simp] theorem depth_nat (n : Nat) : (nat n).depth = 0 := rfl

private theorem depthMembers_append (ms ns : List (String × Json)) :
    depthMembers (ms ++ ns) = max (depthMembers ms) (depthMembers ns) := by
  induction ms with
  | nil => simp [depthMembers]
  | cons m ms ih => rw [List.cons_append, depthMembers, depthMembers, ih, Nat.max_assoc]

private theorem depthMembers_optionalMember {α : Type} (name : String) (f : α → Json) (o : Option α) :
    depthMembers (optionalMember name f o) = (orNull f o).depth := by
  cases o <;> simp [optionalMember, orNull, depthMembers, depth]

namespace Reader

/-- A member that is left out is read as one that is null. -/
theorem omittable_map_written {α β : Type} (r : Reader β) (room : Nat) (f : α → Json) (o : Option α) :
    omittable r room ((o.map f).map written) = omittable r room (some (written (orNull f o))) := by
  cases o <;> rfl

/-- A member that is left out when there is nothing to say is read as one that is null then. -/
private theorem omittable_left_out {α β : Type} {r : Reader β} {f : α → Json} {g : α → β} {room : Nat}
    (hne : ∀ a, written (f a) ≠ .null) (hr : ∀ a, r room (written (f a)) = some (g a)) (o : Option α) :
    omittable r room ((o.map f).map written) = some (o.map g) :=
  (omittable_map_written r room f o).trans (omittable_written_map hne hr o)

theorem string_left_out (o : Option String) (room : Nat) :
    omittable string room ((o.map Json.string).map written) = some o :=
  (omittable_left_out (fun s => by simp [written]) (fun s => string_written s room) o).trans (congrArg some o.map_id')

theorem word64_left_out (o : Option UInt64) (room : Nat) :
    omittable word64 room ((o.map fun n => nat n.toNat).map written) = some o :=
  (omittable_left_out (fun n => by simp [nat, written]) (fun n => word64_written n room) o).trans
    (congrArg some o.map_id')

theorem instant_left_out (o : Option Instant) (room : Nat) :
    omittable Instant.reader room ((o.map Instant.toJson).map written) = some (o.map Instant.restored) :=
  omittable_left_out (fun t => by simp [Instant.toJson, written]) (fun t => t.reader_written room) o

private theorem room_of_members? {names : List String} {room : Nat} {d : Document}
    {found : Nat × List (Option Document)}
    (h : members? names room d = some found) : room = found.1 + 1 := by
  unfold members? at h
  split at h
  case h_1 =>
    split at h
    · obtain ⟨_, -, rfl⟩ := Option.map_eq_some_iff.mp h
      rfl
    · cases h
  case h_2 =>
    split at h
    · cases h
      rfl
    · cases h
  case h_3 => cases h

/-- In a structure that was read from a text there is room for 126 levels more. -/
theorem exists_of_ofText? {α : Type} {names : List String} {f : Nat × List (Option Document) → Option α} {s : String}
    {a : α} (h : ofText? (fun room d => members? names room d >>= f) s = some a) : ∃ ds, f (126, ds) = some a := by
  obtain ⟨d, -, h⟩ := Option.bind_eq_some_iff.mp h
  obtain ⟨⟨room, ds⟩, hmembers, h⟩ := Option.bind_eq_some_iff.mp h
  obtain rfl : room = 126 := Nat.succ.inj (room_of_members? hmembers).symm
  exact ⟨ds, h⟩

end Reader

end Json

namespace Instant

private theorem isProper_of_reader {room : Nat} {d : Json.Document} {t : Instant} (h : reader room d = some t) :
    t.IsProper := by
  obtain ⟨s, -, h⟩ := Option.bind_eq_some_iff.mp h
  exact isProper_of_ofText? h

private theorem isProper_of_required {room : Nat} {d? : Option Json.Document} {t : Instant}
    (h : required reader room d? = some t) : t.IsProper := by
  obtain ⟨d, -, h⟩ := Option.bind_eq_some_iff.mp h
  exact isProper_of_reader h

private theorem isProper_of_omittable {room : Nat} {d? : Option Json.Document} {o : Option Instant}
    (h : omittable reader room d? = some o) : ∀ t ∈ o, t.IsProper := by
  unfold omittable at h
  split at h
  case h_1 =>
    cases h
    simp
  case h_2 d =>
  unfold Reader.optional at h
  split at h
  case h_1 =>
    cases h
    simp
  case h_2 =>
    obtain ⟨t, ht, rfl⟩ := Option.map_eq_some_iff.mp h
    rintro _ ⟨⟩
    exact isProper_of_reader ht

end Instant

namespace JobRecord

private theorem depth_toJson (r : JobRecord) : r.toJson.depth = (orNull (fun v => v) r.resultPayload).depth + 1 := by
  have hinstant : ∀ o, (orNull Instant.toJson o).depth = 0 := Json.depth_orNull fun _ => rfl
  have hstring : ∀ o, (orNull Json.string o).depth = 0 := Json.depth_orNull fun _ => rfl
  simp only [toJson, JobId.toJson, JobState.toJson, Instant.toJson, InstanceId.toJson, depth, depthMembers,
    Json.depth_nat, hinstant, hstring, Nat.max_self, Nat.zero_max, Nat.max_zero]

/-- In a record that was read leap seconds end minutes, and its payload was read as free JSON. -/
private theorem of_decode? {s : String} {r : JobRecord} (h : decode? s = some r) :
    r.HasProperTimes ∧ ∃ d?, omittable Reader.json 126 d? = some r.resultPayload := by
  obtain ⟨ds, h⟩ := Reader.exists_of_ofText? h
  split at h
  case h_2 => cases h
  case h_1 heq =>
  cases heq
  -- Four members stand in front of the times, and seven behind the payload.
  iterate 4 obtain ⟨_, -, h⟩ := Option.bind_eq_some_iff.mp h
  obtain ⟨created, hcreated, h⟩ := Option.bind_eq_some_iff.mp h
  obtain ⟨updated, hupdated, h⟩ := Option.bind_eq_some_iff.mp h
  obtain ⟨completed, hcompleted, h⟩ := Option.bind_eq_some_iff.mp h
  obtain ⟨payload, hpayload, h⟩ := Option.bind_eq_some_iff.mp h
  iterate 7 obtain ⟨_, -, h⟩ := Option.bind_eq_some_iff.mp h
  cases h
  exact ⟨⟨Instant.isProper_of_required hcreated, Instant.isProper_of_required hupdated,
    Instant.isProper_of_omittable hcompleted⟩, _, hpayload⟩

private theorem hasPayload : Json.HasPayload decode? toJson resultPayload (fun r p => { r with resultPayload := p })
    HasProperTimes timesRestored where
  depth_eq := depth_toJson
  decode_eq := decode?_encode
  of_decode _ _ := of_decode?
  timesRestored_eq _ := HasProperTimes.timesRestored
  withPayload_self _ := rfl

end JobRecord

namespace JobStatusView

/-- The view with its times as they are read from their texts. -/
def timesRestored (v : JobStatusView) : JobStatusView :=
  { v with
    createdAt := v.createdAt.restored
    lastUpdatedAt := v.lastUpdatedAt.restored
    completedAt := v.completedAt.map Instant.restored }

/-- Every leap second in the view ends a minute. -/
structure HasProperTimes (v : JobStatusView) : Prop where
  createdAt : v.createdAt.IsProper
  lastUpdatedAt : v.lastUpdatedAt.IsProper
  completedAt : ∀ t ∈ v.completedAt, t.IsProper

theorem HasProperTimes.timesRestored {v : JobStatusView} (h : v.HasProperTimes) : v.timesRestored = v := by
  rw [JobStatusView.timesRestored, Instant.restored_of_isProper h.createdAt,
    Instant.restored_of_isProper h.lastUpdatedAt, Instant.map_restored h.completedAt]

/-- The members of a view in which everything is there. -/
private theorem sublist_memberNames (v : JobStatusView) {ms : List (String × Json)} (hms : v.toJson = .object ms) :
    (ms.map Prod.fst).Sublist memberNames := by
  cases hms
  simp only [List.map_append]
  change List.Sublist _ (memberNames.take 11 ++ ["error_detail"])
  refine List.Sublist.append ?_ (Json.sublist_optionalMember "error_detail" _ _)
  change List.Sublist _ (memberNames.take 10 ++ ["error_message"])
  refine List.Sublist.append ?_ (Json.sublist_optionalMember "error_message" _ _)
  change List.Sublist _ (memberNames.take 9 ++ ["result"])
  refine List.Sublist.append ?_ (Json.sublist_optionalMember "result" _ _)
  change List.Sublist _ (memberNames.take 8 ++ ["retry_after_seconds"])
  refine List.Sublist.append ?_ (Json.sublist_optionalMember "retry_after_seconds" _ _)
  change List.Sublist _ (memberNames.take 7 ++ ["cancellation_requested"])
  refine List.Sublist.append ?_ (List.Sublist.refl _)
  exact List.Sublist.append (List.Sublist.refl _) (Json.sublist_optionalMember "completed_at" _ _)

/-- What stands under each name in a view. -/
theorem lookup_members (v : JobStatusView) {ms : List (String × Json)} (hms : v.toJson = .object ms) :
    memberNames.map (fun name => ms.lookup name) =
      [some v.id.toJson, some (.string v.name), some v.state.toJson, some (nat v.percentComplete.toNat),
        some v.createdAt.toJson, some v.lastUpdatedAt.toJson, v.completedAt.map Instant.toJson,
        some (.bool v.cancellationRequested), v.retryAfterSeconds.map fun n => nat n.toNat, v.result.map fun v => v,
        v.errorMessage.map .string, v.errorDetail.map .string] := by
  cases hms
  simp [memberNames, List.lookup_append, List.lookup_cons, Json.lookup_optionalMember]

private theorem depth_toJson (v : JobStatusView) : v.toJson.depth = (orNull (fun v => v) v.result).depth + 1 := by
  have hinstant : ∀ o, (orNull Instant.toJson o).depth = 0 := Json.depth_orNull fun _ => rfl
  have hstring : ∀ o, (orNull Json.string o).depth = 0 := Json.depth_orNull fun _ => rfl
  have hnat : ∀ o, (orNull (fun n : UInt64 => nat n.toNat) o).depth = 0 := Json.depth_orNull fun _ => rfl
  simp only [toJson, JobId.toJson, JobState.toJson, Instant.toJson, depth, Json.depthMembers_append, depthMembers,
    Json.depthMembers_optionalMember, Json.depth_nat, hinstant, hstring, hnat, Nat.max_self, Nat.zero_max, Nat.max_zero]

/-- The text of a view is read as the view with the times and the result as they are read. -/
theorem ofText?_text (v : JobStatusView) : reader.ofText? v.toJson.text =
    (omittable Reader.json 126 (some (written (orNull (fun v => v) v.result)))).map
      fun p => { v.timesRestored with result := p } := by
  obtain ⟨ms, hms⟩ : ∃ ms, v.toJson = .object ms := ⟨_, rfl⟩
  have hnd : (ms.map Prod.fst).Nodup := (v.sublist_memberNames hms).nodup (by decide)
  have hmembers := Json.members?_written_lookup hnd memberNames 126
  have hlookup : memberNames.map (fun name => (ms.lookup name).map written) = _ :=
    List.map_map.symm.trans (congrArg (List.map (Option.map written)) (v.lookup_members hms))
  rw [hlookup] at hmembers
  rw [Reader.ofText?, Json.Document.ofText?_text, Option.bind_some, reader, hms]
  simp only [List.map_cons, List.map_nil] at hmembers
  refine (Reader.bind_of_eq_some hmembers).trans ?_
  dsimp only
  refine (Reader.bind_of_eq_some (Reader.required_some (v.id.reader_written 126))).trans ?_
  refine (Reader.bind_of_eq_some (Reader.required_some (Reader.string_written v.name 126))).trans ?_
  refine (Reader.bind_of_eq_some (Reader.required_some (v.state.reader_written 126))).trans ?_
  refine (Reader.bind_of_eq_some (Reader.required_some (Reader.word8_written v.percentComplete 126))).trans ?_
  refine (Reader.bind_of_eq_some (Reader.required_some (v.createdAt.reader_written 126))).trans ?_
  refine (Reader.bind_of_eq_some (Reader.required_some (v.lastUpdatedAt.reader_written 126))).trans ?_
  refine (Reader.bind_of_eq_some (Reader.instant_left_out v.completedAt 126)).trans ?_
  refine (Reader.bind_of_eq_some (Reader.required_some (Reader.bool_written v.cancellationRequested 126))).trans ?_
  refine (Reader.bind_of_eq_some (Reader.word64_left_out v.retryAfterSeconds 126)).trans ?_
  rw [Reader.omittable_map_written]
  cases omittable Reader.json 126 (some (written (orNull (fun v => v) v.result))) with
  | none => rfl
  | some p =>
    refine (Reader.bind_of_eq_some rfl).trans ?_
    refine (Reader.bind_of_eq_some (Reader.string_left_out v.errorMessage 126)).trans ?_
    exact (Reader.bind_of_eq_some (Reader.string_left_out v.errorDetail 126)).trans rfl

/-- In a view that was read leap seconds end minutes, and its result was read as free JSON. -/
private theorem of_ofText? {s : String} {v : JobStatusView} (h : reader.ofText? s = some v) :
    v.HasProperTimes ∧ ∃ d?, omittable Reader.json 126 d? = some v.result := by
  obtain ⟨ds, h⟩ := Reader.exists_of_ofText? h
  split at h
  case h_2 => cases h
  case h_1 heq =>
  cases heq
  -- Four members stand in front of the times, two between them and the result, and two behind it.
  iterate 4 obtain ⟨_, -, h⟩ := Option.bind_eq_some_iff.mp h
  obtain ⟨created, hcreated, h⟩ := Option.bind_eq_some_iff.mp h
  obtain ⟨updated, hupdated, h⟩ := Option.bind_eq_some_iff.mp h
  obtain ⟨completed, hcompleted, h⟩ := Option.bind_eq_some_iff.mp h
  iterate 2 obtain ⟨_, -, h⟩ := Option.bind_eq_some_iff.mp h
  obtain ⟨result, hresult, h⟩ := Option.bind_eq_some_iff.mp h
  iterate 2 obtain ⟨_, -, h⟩ := Option.bind_eq_some_iff.mp h
  cases h
  exact ⟨⟨Instant.isProper_of_required hcreated, Instant.isProper_of_required hupdated,
    Instant.isProper_of_omittable hcompleted⟩, _, hresult⟩

private theorem hasPayload : Json.HasPayload reader.ofText? toJson result (fun v p => { v with result := p })
    HasProperTimes timesRestored where
  depth_eq := depth_toJson
  decode_eq := ofText?_text
  of_decode _ _ := of_ofText?
  timesRestored_eq _ := HasProperTimes.timesRestored
  withPayload_self _ := rfl

end JobStatusView

/-- The text of an acknowledgement is read as the acknowledgement with the time as it is read. -/
theorem JobAcknowledgement.ofText?_text (a : JobAcknowledgement) :
    reader.ofText? a.toJson.text = some { a with createdAt := a.createdAt.restored } := by
  obtain ⟨ms, hms⟩ : ∃ ms, a.toJson = .object ms := ⟨_, rfl⟩
  have hnd : (ms.map Prod.fst).Nodup := by
    cases hms
    cases a.cancelLocator <;> simp [optionalMember]
  have hlookup : memberNames.map (fun name => (ms.lookup name).map written) =
      ([some a.id.toJson, some (.string a.name), some a.state.toJson, some (.string a.statusCheckLocator),
        a.cancelLocator.map .string, some (nat a.estimatedDurationSeconds.toNat),
        some a.createdAt.toJson] : List (Option Json)).map (Option.map written) := by
    cases hms
    simp [memberNames, List.lookup_append, List.lookup_cons, Json.lookup_optionalMember]
  have hmembers := Json.members?_written_lookup hnd memberNames 126
  rw [hlookup] at hmembers
  rw [Reader.ofText?, Json.Document.ofText?_text, Option.bind_some, reader, hms]
  simp only [List.map_cons, List.map_nil] at hmembers
  refine (Reader.bind_of_eq_some hmembers).trans ?_
  dsimp only
  refine (Reader.bind_of_eq_some (Reader.required_some (a.id.reader_written 126))).trans ?_
  refine (Reader.bind_of_eq_some (Reader.required_some (Reader.string_written a.name 126))).trans ?_
  refine (Reader.bind_of_eq_some (Reader.required_some (a.state.reader_written 126))).trans ?_
  refine (Reader.bind_of_eq_some (Reader.required_some (Reader.string_written a.statusCheckLocator 126))).trans ?_
  refine (Reader.bind_of_eq_some (Reader.string_left_out a.cancelLocator 126)).trans ?_
  refine (Reader.bind_of_eq_some
    (Reader.required_some (Reader.word64_written a.estimatedDurationSeconds 126))).trans ?_
  exact (Reader.bind_of_eq_some (Reader.required_some (a.createdAt.reader_written 126))).trans rfl

/-- What was read from any text as an acknowledgement is read from its own text as it is. -/
private theorem JobAcknowledgement.ofText?_again {s : String} {a : JobAcknowledgement} (h : reader.ofText? s = some a) :
    reader.ofText? a.toJson.text = some a := by
  have hproper : a.createdAt.IsProper := by
    obtain ⟨ds, h⟩ := Reader.exists_of_ofText? h
    split at h
    case h_2 => cases h
    case h_1 heq =>
    cases heq
    iterate 6 obtain ⟨_, -, h⟩ := Option.bind_eq_some_iff.mp h
    obtain ⟨created, hcreated, h⟩ := Option.bind_eq_some_iff.mp h
    cases h
    exact Instant.isProper_of_required hcreated
  rw [ofText?_text, Instant.restored_of_isProper hproper]

/-- Records, status views and acknowledgements are lossless in JSON, if their leap seconds end minutes, the first two
up to a payload or a result of null. What a view does not have is left out of its text. -/
theorem codecs_are_lossless :
    Json.IsLossless JobRecord.decode? JobRecord.toJson JobRecord.resultPayload
      (fun r p => { r with resultPayload := p }) JobRecord.HasProperTimes ∧
    Json.IsLossless JobStatusView.reader.ofText? JobStatusView.toJson JobStatusView.result
      (fun v p => { v with result := p }) JobStatusView.HasProperTimes ∧
    (∀ a : JobAcknowledgement, a.createdAt.IsProper → JobAcknowledgement.reader.ofText? a.toJson.text = some a) ∧
    (∀ (s : String) (a : JobAcknowledgement), JobAcknowledgement.reader.ofText? s = some a →
      JobAcknowledgement.reader.ofText? a.toJson.text = some a) ∧
    ∀ v : JobStatusView, v.toJson.member? "completed_at" = v.completedAt.map Instant.toJson ∧
      v.toJson.member? "retry_after_seconds" = v.retryAfterSeconds.map (fun n => nat n.toNat) ∧
      v.toJson.member? "result" = v.result ∧ v.toJson.member? "error_message" = v.errorMessage.map .string ∧
      v.toJson.member? "error_detail" = v.errorDetail.map .string := by
  refine ⟨JobRecord.hasPayload.isLossless, JobStatusView.hasPayload.isLossless, fun a ha => ?_,
    fun s a => JobAcknowledgement.ofText?_again, fun v => ?_⟩
  · rw [JobAcknowledgement.ofText?_text, Instant.restored_of_isProper ha]
  · obtain ⟨ms, hms⟩ : ∃ ms, v.toJson = .object ms := ⟨_, rfl⟩
    have hlookup := v.lookup_members hms
    simp only [JobStatusView.memberNames, List.map_cons, List.cons.injEq] at hlookup
    obtain ⟨-, -, -, -, -, -, hcompleted, -, hretry, hresult, hmessage, hdetail, -⟩ := hlookup
    rw [hms]
    exact ⟨hcompleted, hretry, hresult.trans v.result.map_id', hmessage, hdetail⟩

/-- A record with a payload, of a job that was created in the leap second at the end of a day. -/
def payloadRecord (payload : Json) : JobRecord :=
  { JobRecord.accepted ⟨1⟩ { name := "n", timeoutSeconds := 60 } ⟨"a"⟩ endOfDay with
    resultPayload := some payload }

private theorem payloadRecord_hasProperTimes (payload : Json) : (payloadRecord payload).HasProperTimes where
  createdAt := .inr rfl
  lastUpdatedAt := .inr rfl
  completedAt := by simp [payloadRecord, JobRecord.accepted]

/-- A payload is read back, one of null is lost, and one that is nested too deep makes the record unreadable. -/
theorem payloads_in_records :
    let payload : Json := .object [("k", .array [.number (.integer 5), .null])]
    JobRecord.decode? (payloadRecord payload).encode = some (payloadRecord payload) ∧
      JobRecord.decode? (payloadRecord .null).encode = some { payloadRecord .null with resultPayload := none } ∧
      JobRecord.decode? (payloadRecord (Nat.repeat (fun v => .array [v]) 127 .null)).encode = none := by
  intro payload
  obtain ⟨⟨hfits, hdeep, hagain⟩, -⟩ := codecs_are_lossless
  have hwhole : payload.IsWhole := by
    simp [payload, Json.IsWhole, Json.Everywhere, Json.EverywhereInMembers, Json.EverywhereInItems, Json.IsWholeNumber]
  have hsorted : payload.IsSorted := by
    simp [payload, Json.IsSorted, Json.Everywhere, Json.EverywhereInMembers, Json.EverywhereInItems,
      Json.HasSortedMembers]
  have hpayload : ∀ v ∈ (payloadRecord payload).resultPayload, v.IsWhole ∧ v.IsSorted := by
    rintro v ⟨⟩
    exact ⟨hwhole, hsorted⟩
  have hread := hfits (payloadRecord payload) (payloadRecord_hasProperTimes _) hpayload (by decide)
  refine ⟨hagain _ _ hread fun v hv => (hpayload v hv).1,
    hfits (payloadRecord .null) (payloadRecord_hasProperTimes _) ?_ (by decide), hdeep _ ?_⟩
  · rintro v ⟨⟩
    exact ⟨trivial, trivial⟩
  · decide +kernel

/-- A leap second inside a minute is read back as the second after it, which puts off the deadline by a second. -/
theorem leap_second_inside_minute_is_lost :
    leapRecord.resultPayload = none ∧ leapRecord.toJson.depth ≤ Json.nestingLimit ∧
    ∃ r, JobRecord.decode? leapRecord.encode = some r ∧
      r.createdAt = ⟨86165, 333333333, by decide, by decide⟩ ∧ r.createdAt ≠ leapRecord.createdAt ∧
      leapRecord.deadline = ⟨86224, 333333333, by decide, by decide⟩ ∧
      r.deadline = ⟨86225, 333333333, by decide, by decide⟩ :=
  ⟨rfl, by decide, _, leapRecord_decode?, by decide, by decide, by decide, by decide⟩

end JobLedger
