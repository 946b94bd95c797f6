import JobLedger.Proofs.CallContract
import JobLedger.Proofs.Clients
import JobLedger.Proofs.HostAnswers

/-!
# The contract of commands

What the clients send to the server and what they may rely on, if no command fails. Clients that send commands
as agreed leave texts of records under all record keys, so they are answered with such texts; and they leave the
record of a job that has ended as it is until it expires. Which records may be stored is a parameter: any, or only
those that can be read.
-/
namespace JobLedger.Redis

/-- The commands that a client sends for an operation. -/
def Command.Fits (s : Settings) (P : JobRecord → Prop) (o : Operation) : Command → Prop
  | .get key => ∃ id : JobId, key = s.recordKey id.text
  | .getMany keys => ∃ items : List String, keys = items.map s.recordKey
  | .range key => key = s.indexKey
  | .setNew key value _ => ∃ r : JobRecord, key = s.recordKey r.id.text ∧ value = r.encode ∧ P r
  | .enlist key _ _ _ => key = s.indexKey
  | .replaceOpen key value seconds => ∃ r : JobRecord, key = s.recordKey r.id.text ∧ value = r.encode ∧
    seconds = s.secondsFor r.state ∧ P r ∧ o.Writes r

/-- The answers of a server that holds such records. -/
def Command.Yields (s : Settings) (P : JobRecord → Prop) : (c : Command) → c.Answer → Prop
  | .get key, a => a = .ok none ∨ ∃ r : JobRecord, a = .ok (some r.encode) ∧ key = s.recordKey r.id.text ∧ P r
  | .getMany _, a => ∃ values : List (Option String), a = .ok values ∧
    ∀ value, some value ∈ values → ∃ r : JobRecord, value = r.encode ∧ P r
  | .range _, a => ∃ items : List String, a = .ok items
  | .setNew _ _ _, a => ∃ isNew : Bool, a = .ok isNew
  | .enlist _ _ _ _, a => a = .ok ()
  | .replaceOpen _ _ _, a => a = .ok "OK" ∨ a = .ok "" ∨ ∃ state : JobState, a = .ok state.name

/-- The contract of the commands for an operation. -/
def Command.contract (s : Settings) (P : JobRecord → Prop) (o : Operation) : Contract Command.interface :=
  ⟨Fits s P o, Yields s P⟩

/-- The contract of a client. It takes no call of the store to its own process. -/
def ClientStep.contract (s : Settings) (P : JobRecord → Prop) (o : Operation) : Contract ClientStep.interface where
  MayAsk
    | .step (.request q) => q.IsLocal
    | .step (.wait _) => True
    | .command c => c.Fits s P o
  Answers
    | .step _, _ => True
    | .command c, a => c.Yields s P a

section
variable {s : Settings} {o : Operation}

private theorem replaced_yields {r : JobRecord} {now : Instant} {word : String}
    (h : word = "OK" ∨ word = "" ∨ ∃ state : JobState, word = state.name) :
    Request.Yields (.store (.update r)) (Exchange.replaced (r.stamped now) word) := by
  rcases h with rfl | rfl | ⟨state, rfl⟩
  · exact .inl ⟨now, rfl⟩
  · exact .inr (.inl rfl)
  · exact .inr (.inr ⟨state, replaced_name _ state⟩)

/-- The texts of records that can be read are decoded to these records. -/
private theorem mapM_decode_encode {values : List (Option String)}
    (h : ∀ value, some value ∈ values → ∃ r : JobRecord, value = r.encode ∧ r.IsStorable) :
    ∃ rs, (values.filterMap fun v => v).mapM Exchange.decode = .ok rs ∧
      ∀ r ∈ rs, r.isTerminal = false → r.resultPayload = none := by
  induction values with
  | nil => exact ⟨[], rfl, List.forall_mem_nil _⟩
  | cons value? values ih =>
    obtain ⟨rs, hrs, hopen⟩ := ih fun value hv => h value (List.mem_cons_of_mem _ hv)
    cases value? with
    | none => exact ⟨rs, hrs, hopen⟩
    | some value =>
      obtain ⟨r, rfl, hr⟩ := h value List.mem_cons_self
      refine ⟨r.restored :: rs, ?_, ?_⟩
      · rw [List.filterMap_cons_some (f := fun v => v) rfl, List.mapM_cons, decode_encode hr.isReadable, hrs]
        rfl
      · rw [List.forall_mem_cons]
        exact ⟨fun h => JobRecord.restored_resultPayload_of_none (hr.resultPayload_of_open h), hopen⟩

private theorem honours_indexed : (Exchange.indexed s).Honours (Command.contract s JobRecord.IsStorable o) fun a =>
    ∃ rs : List JobRecord, a = .ok rs ∧ ∀ r ∈ rs, r.isTerminal = false → r.resultPayload = none := by
  refine ⟨rfl, ?_⟩
  rintro _ ⟨items, rfl⟩
  cases items with
  | nil => exact ⟨[], rfl, List.forall_mem_nil _⟩
  | cons item items =>
    refine ⟨⟨_, rfl⟩, ?_⟩
    rintro _ ⟨values, rfl, hvalues⟩
    exact mapM_decode_encode hvalues

/-- What a call does on the server keeps the contract of commands, and yields what the contract of calls says. -/
theorem honours_ofCall {c : StoreCall} (hc : Request.MayAsk o (.store c)) (now : Instant) :
    (Exchange.ofCall s now c).Honours (Command.contract s JobRecord.IsStorable o) (Request.Yields (.store c)) := by
  cases c with
  | create r =>
    refine ⟨⟨r, rfl, rfl, hc.2⟩, ?_⟩
    rintro _ ⟨isNew, rfl⟩
    cases isNew with
    | false => exact .inr rfl
    | true =>
      refine ⟨rfl, ?_⟩
      rintro _ rfl
      exact .inl rfl
  | get id =>
    refine ⟨⟨id, rfl⟩, ?_⟩
    rintro _ (rfl | ⟨r, rfl, hkey, hr⟩)
    · exact .inl rfl
    · obtain rfl := s.recordKey_text_injective hkey
      simp only [Dialogue.andThen, decode_encode hr.isReadable]
      exact .inr ⟨r.restored, rfl, rfl, fun h =>
        JobRecord.restored_resultPayload_of_none (hr.resultPayload_of_open h)⟩
  | update r =>
    refine ⟨⟨r.stamped now, rfl, rfl, rfl, hc.1.stamped now, hc.2 now⟩, ?_⟩
    rintro _ (rfl | rfl | ⟨state, rfl⟩)
    · exact replaced_yields (.inl rfl)
    · exact replaced_yields (.inr (.inl rfl))
    · exact replaced_yields (.inr (.inr ⟨state, rfl⟩))
  | findExpired t =>
    apply Dialogue.Honours.bind
    apply honours_indexed.mono
    rintro _ ⟨rs, rfl, hrs⟩
    refine ⟨_, rfl, fun r hr => ?_⟩
    obtain ⟨hmem, hexpired⟩ := List.mem_filter.1 hr
    have hopen : r.isTerminal = false := by
      rw [JobRecord.isExpired, Bool.and_eq_true, Bool.not_eq_true'] at hexpired
      exact hexpired.1
    exact ⟨hopen, hrs r hmem hopen⟩
  | list q =>
    apply Dialogue.Honours.bind
    apply honours_indexed.mono
    rintro _ ⟨rs, rfl, -⟩
    exact ⟨_, rfl⟩

/-- A client honours its contract from its start if its task honours one that its calls bear out. -/
theorem honours_start_of {P : JobRecord → Prop} {C : Contract Request.interface} {Q : o.Result → Prop}
    (hcall : ∀ c, C.MayAsk (.store c) → ∀ now,
      (Exchange.ofCall s now c).Honours (Command.contract s P o) (C.Answers (.store c)))
    (hlocal : ∀ q : Request, q.IsLocal → ∀ a, C.Answers q a) (htask : o.task.Honours (TaskStep.contract C) Q) :
    (Client.start s o).rest.Honours (ClientStep.contract s P o) Q := by
  refine Dialogue.Honours.through (C := TaskStep.contract C) (fun q hq => ?_) htask
  cases q with
  | wait w => exact ⟨trivial, fun _ _ => trivial⟩
  | request q =>
    cases q with
    | store c =>
      refine ⟨trivial, fun now _ => ?_⟩
      refine Dialogue.Honours.through (C := Command.contract s P o) (fun c hc => ?_) (hcall c hq now)
      exact ⟨hc, fun _ ha => ha⟩
    | _ =>
      refine ⟨trivial, fun a _ => ?_⟩
      apply hlocal
      trivial

/-- A client honours its contract from its start, if its results can be read. -/
theorem honours_start (hp : ∀ p ∈ o.payloads, p.IsReadable) :
    (Client.start s o).rest.Honours (ClientStep.contract s JobRecord.IsStorable o) o.Concludes := by
  refine honours_start_of (fun c hc now => honours_ofCall hc now) (fun q hq a => ?_) (honours_operation hp)
  cases q with
  | store c => exact hq.elim
  | _ => trivial

end

section
variable {s : Settings} {P : JobRecord → Prop} {o : Operation} {now : Int} {x y : Server} {c : Command} {b : c.Success}

/-- A server that holds records of a kind goes on to do so, and answers with them. -/
theorem Stores.answer (h : Stores s P x.database) (hc : c.Fits s P o)
    (ha : Server.answer now c x = (.ok b, y)) :
    Stores s P y.database ∧ c.Yields s P (.ok b) := by
  cases c with
  | get key =>
    obtain ⟨id, rfl⟩ := hc
    obtain ⟨hv, hy⟩ := Server.answer_get ha
    refine ⟨h.congr_database hy, ?_⟩
    cases b with
    | none => exact .inl rfl
    | some value =>
      obtain ⟨r, rfl, hid, hr⟩ := h.of_text? hv
      exact .inr ⟨r, rfl, congrArg s.recordKey hid, hr⟩
  | getMany keys =>
    obtain ⟨items, rfl⟩ := hc
    obtain ⟨rfl, hy⟩ := Server.answer_getMany ha
    refine ⟨h.congr_database hy, _, rfl, fun value hv => ?_⟩
    rw [Database.texts, List.map_map] at hv
    obtain ⟨k, -, hk⟩ := List.mem_map.1 hv
    obtain ⟨r, hr, -, hP⟩ := h.of_text? (Option.join_eq_some_iff.1 hk)
    exact ⟨r, hr, hP⟩
  | range key =>
    obtain ⟨-, hy⟩ := Server.answer_range ha
    exact ⟨h.congr_database hy, b, rfl⟩
  | setNew key value seconds =>
    obtain ⟨r, rfl, rfl, hr⟩ := hc
    rcases Server.answer_setNew ha with ⟨-, -, hy⟩ | ⟨-, -, t, -, hy⟩
    · exact ⟨h.congr_database hy, b, rfl⟩
    · exact ⟨(h.put_record hr _).congr_database hy, b, rfl⟩
  | enlist key item last seconds =>
    obtain rfl : key = s.indexKey := hc
    obtain ⟨t, items, -, -, hy⟩ := Server.answer_enlist ha
    refine ⟨⟨fun k e he => ?_, fun e he => ?_⟩, rfl⟩
    · rw [hy, if_neg (s.recordKey_ne_indexKey k)] at he
      exact h.record k e he
    · rw [hy, if_pos rfl] at he
      split at he
      · cases he
      · obtain rfl := Option.some.inj he
        exact ⟨_, rfl⟩
  | replaceOpen key value seconds =>
    obtain ⟨r, rfl, rfl, -, hr, -⟩ := hc
    rcases Server.answer_replaceOpen ha with ⟨rfl, -, hy⟩ | ⟨current, state, hcurrent, hstate, hcase⟩
    · exact ⟨h.congr_database hy, .inr (.inl rfl)⟩
    · rcases hcase with ⟨-, rfl, hy⟩ | ⟨-, rfl, t, -, hy⟩
      · obtain ⟨r', rfl, -, -⟩ := h.of_text? hcurrent
        rw [JobRecord.eq_name_of_storedState?_encode hstate]
        exact ⟨h.congr_database hy, .inr (.inr ⟨r'.state, rfl⟩)⟩
      · exact ⟨(h.put_record hr _).congr_database hy, .inl rfl⟩

/-- The record of a job that has ended stays until it expires. -/
theorem ended_answer {r : JobRecord} (hr : r.isTerminal = true) {t : Int} (ht : now < t)
    (he : x.database.entries.get? (s.recordKey r.id.text) = some ⟨.text r.encode, some t⟩) (hc : c.Fits s P o)
    (ha : Server.answer now c x = (.ok b, y)) :
    y.database.entries.get? (s.recordKey r.id.text) = some ⟨.text r.encode, some t⟩ := by
  have hentry : x.database.entry? now (s.recordKey r.id.text) = some ⟨.text r.encode, some t⟩ :=
    Database.entry?_eq_some.2 ⟨he, x.database.serves_of_lt _ ht⟩
  cases c with
  | get key => rw [(Server.answer_get ha).2, he]
  | getMany keys => rw [(Server.answer_getMany ha).2, he]
  | range key => rw [(Server.answer_range ha).2, he]
  | setNew key value seconds =>
    obtain ⟨r', rfl, rfl, -⟩ := hc
    rcases Server.answer_setNew ha with ⟨-, -, hy⟩ | ⟨-, hnone, u, -, hy⟩
    · rw [hy, he]
    · rw [hy, Database.get?_put, if_neg, he]
      intro heq
      rw [← heq, hentry] at hnone
      cases hnone
  | enlist key item last seconds =>
    obtain rfl : key = s.indexKey := hc
    obtain ⟨u, items, -, -, hy⟩ := Server.answer_enlist ha
    rw [hy, if_neg (s.recordKey_ne_indexKey _), he]
  | replaceOpen key value seconds =>
    obtain ⟨r', rfl, rfl, -, -, -⟩ := hc
    rcases Server.answer_replaceOpen ha with ⟨-, -, hy⟩ | ⟨current, state, hcurrent, hstate, hcase⟩
    · rw [hy, he]
    · rcases hcase with ⟨-, -, hy⟩ | ⟨hopen, -, u, -, hy⟩
      · rw [hy, he]
      · rw [hy, Database.get?_put, if_neg, he]
        intro heq
        -- The stored state is that of the record, which is not open.
        have htext := Database.text?_eq_some.2 ⟨_, hentry⟩
        rw [heq, hcurrent] at htext
        obtain rfl := Option.some.inj (Option.some.inj htext)
        rw [JobRecord.eq_name_of_storedState?_encode hstate, JobState.isOpenState_name] at hopen
        rw [JobRecord.isTerminal] at hr
        simp [hr] at hopen

end

end JobLedger.Redis
