import JobLedger.Proofs.SetResults

/-!
# Results that cannot be read

A result that is nested more than 126 deep is stored like any other. From then on its job cannot be looked at, and
no job can be listed or timed out as long as the index names it.
-/
namespace JobLedger.Redis

section
variable {s : Settings} {h : Host Server}

/-- Neither the job can be looked at, nor any job be listed or timed out. -/
structure Blocks (s : Settings) (id : JobId) (h : Host Server) : Prop where
  getStatus : (h.perform (store s) (Manager.getStatus id)).1 = .error (.invalidPayload .document)
  list : ∀ q, (h.perform (store s) (Manager.list q)).1 = .error (.invalidPayload .document)
  sweepOnce : ∀ (m : Manager) (t : Instant),
    (h.perform (store s) (m.sweepOnce t)).1 = .error (.serialization .document)

private theorem decode_of_unreadable {r : JobRecord} (hr : r.rereadPayload? = none) :
    Exchange.decode r.encode = .error (.serialization .document) := by
  rw [Exchange.decode, JobRecord.decode?_encode, hr]
  rfl

/-- One text that is no record keeps all from being read. -/
private theorem mapM_decode_of_mem {values : List String} {value : String} (hmem : value ∈ values)
    (hvalue : Exchange.decode value = .error (.serialization .document)) :
    values.mapM Exchange.decode = .error (.serialization .document) := by
  induction values with
  | nil => cases hmem
  | cons v vs ih =>
    rw [List.mapM_cons]
    rcases List.mem_cons.1 hmem with rfl | hmem
    · rw [hvalue]
      rfl
    · rw [ih hmem, Exchange.decode]
      cases JobRecord.decode? v <;> rfl

private theorem mem_texts {d : Database} {now : Int} {id value : String} {items : List String}
    (htext : d.text? now (s.recordKey id) = some (some value)) (hmem : id ∈ items) :
    value ∈ (d.texts now (items.map s.recordKey)).filterMap fun v => v := by
  rw [Database.texts, List.map_map, List.mem_filterMap]
  exact ⟨some value, List.mem_map.2 ⟨id, hmem, Option.join_eq_some_iff.2 htext⟩, rfl⟩

/-- A record that cannot be read blocks what comes across it. -/
private theorem blocks_of_unreadable (hx : h.store.faults = []) {id : JobId} {r : JobRecord} {items : List String}
    (htext : h.store.database.text? h.clock.millis (s.recordKey id.text) = some (some r.encode))
    (hr : r.rereadPayload? = none) (hitems : h.store.database.list? h.clock.millis s.indexKey = some items)
    (hmem : id.text ∈ items) : Blocks s id h where
  getStatus := by
    have hget := perform_get_of_text? hx htext
    rw [decode_of_unreadable hr] at hget
    exact congrArg Prod.fst (Host.perform_ask (q := .store (.get id)) (Host.answer_call hget))
  list q := by
    have hlist := list_answer hitems (answered_list hx (q := q) (hitems ▸ rfl))
    rw [mapM_decode_of_mem (mem_texts htext hmem) (decode_of_unreadable hr)] at hlist
    exact (congrArg Prod.fst (Host.perform_ask (Host.answer_call (Prod.ext hlist rfl)))).trans rfl
  sweepOnce m t := by
    have hfound := findExpired_answer hitems (answered_findExpired hx (t := t) (hitems ▸ rfl))
    rw [mapM_decode_of_mem (mem_texts htext hmem) (decode_of_unreadable hr)] at hfound
    exact (congrArg Prod.fst (Host.perform_ask (Host.answer_call (Prod.ext hfound rfl)))).trans rfl

/-- A result that is nested too deep is accepted, and blocks its job and all the listings. -/
theorem deep_result_blocks {c : JobContext} {r : JobRecord} (ho : HoldsOpen s h c r) {expiry : Int}
    (he : expiry? h.clock.millis (Settings.seconds s.terminalTtl) = some expiry) {items : List String}
    (hitems : h.store.database.list? h.clock.millis s.indexKey = some items) (hmem : c.job.text ∈ items)
    {payload : Json} (hdeep : 126 < payload.depth) :
    ∃ h', h.perform (store s) (c.setResult payload) = (.ok (), h') ∧ Blocks s c.job h' := by
  obtain ⟨h', hperform, -, hx', htext, hindex⟩ := perform_setResult ho he payload
  have hunreadable :=
    @JobRecord.rereadPayload?_of_deep (r.restored.marked h.clock (.succeeded payload)) payload rfl hdeep
  exact ⟨h', hperform, blocks_of_unreadable hx' htext hunreadable (hindex.trans hitems) hmem⟩

end

/-- An array within an array, and so on. -/
def nested : Nat → Json
  | 0 => .array []
  | n + 1 => .array [nested n]

theorem depth_nested (n : Nat) : (nested n).depth = n + 1 := by
  induction n with
  | zero => rfl
  | succ n ih => simp [nested, Json.depth, Json.depthItems, ih]

end JobLedger.Redis
