import JobLedger.Lifecycle.Sweep
import JobLedger.Proofs.HostAnswers
import JobLedger.Proofs.LoneClients
import JobLedger.Proofs.StoredRecords

/-!
# Results set without an interruption

A result that is set on an open job is stored, whatever it is. What is read afterwards is what can be read of its
text: a result of null is gone, and one that is nested too deep makes the record unreadable.
-/
namespace JobLedger.Redis

variable {s : Settings} {h : Host Server} {c : JobContext} {r : JobRecord} {expiry : Int}

/-- The record of an open job is there until a time, and no failure waits for a command. -/
structure HoldsOpen (s : Settings) (h : Host Server) (c : JobContext) (r : JobRecord) : Prop where
  faults : h.store.faults = []
  text : h.store.database.text? h.clock.millis (s.recordKey c.job.text) = some (some r.encode)
  id : r.id = c.job
  isOpen : r.isTerminal = false
  resultPayload : r.resultPayload = none

theorem HoldsOpen.get (ho : HoldsOpen s h c r) : (store s).perform h.clock (.get c.job) h.store =
    (.ok (some r.restored), h.store.note ["GET", s.recordKey c.job.text]) := by
  rw [perform_get_of_text? ho.faults ho.text, decode_encode (JobRecord.isReadable_of_none ho.resultPayload)]
  rfl

theorem HoldsOpen.restored (ho : HoldsOpen s h c r) : r.restored.isTerminal = false := ho.isOpen

/-- A mark that ends the job is accepted after the look at the record. -/
theorem HoldsOpen.update (ho : HoldsOpen s h c r)
    (he : expiry? h.clock.millis (Settings.seconds s.terminalTtl) = some expiry) {m : JobRecord.Mark}
    (hm : m.isTerminal = true) :
    ∃ y, (store s).perform h.clock (.update (r.restored.marked h.clock m))
        (h.store.note ["GET", s.recordKey c.job.text]) = (.ok (r.restored.marked h.clock m), y) ∧ y.faults = [] ∧
      y.database = h.store.database.put (s.recordKey c.job.text)
        ⟨.text (r.restored.marked h.clock m).encode, some expiry⟩ := by
  have hid : (r.restored.marked h.clock m).id = c.job := (JobRecord.marked_id r.restored h.clock m).trans ho.id
  have hseconds : s.secondsFor (r.restored.marked h.clock m).state = Settings.seconds s.terminalTtl :=
    s.secondsFor_of_terminal ((JobRecord.marked_isTerminal r.restored h.clock m).trans hm)
  obtain ⟨y, hupdate, hfaults, hdatabase⟩ := @perform_update_of_open s h.clock
    (h.store.note ["GET", s.recordKey c.job.text]) ho.faults (r.restored.marked h.clock m) r expiry
    (by rw [hid]; exact ho.text) (JobRecord.isReadable_of_none ho.resultPayload) ho.isOpen (by rw [hseconds, he])
  rw [JobRecord.stamped_marked] at hupdate hdatabase
  rw [hid] at hdatabase
  exact ⟨y, hupdate, hfaults, hdatabase⟩

/-- Any result is accepted: its record is there afterwards, and the index is what it was. -/
theorem perform_setResult (ho : HoldsOpen s h c r)
    (he : expiry? h.clock.millis (Settings.seconds s.terminalTtl) = some expiry) (payload : Json) :
    ∃ h', h.perform (store s) (c.setResult payload) = (.ok (), h') ∧ h'.clock = h.clock ∧ h'.store.faults = [] ∧
      h'.store.database.text? h'.clock.millis (s.recordKey c.job.text) =
        some (some (r.restored.marked h.clock (.succeeded payload)).encode) ∧
      h'.store.database.list? h'.clock.millis s.indexKey = h.store.database.list? h.clock.millis s.indexKey := by
  have hmark := JobRecord.mark_of_open ho.restored (.succeeded payload) h.clock
  obtain ⟨y, hupdate, hfaults, hdatabase⟩ := ho.update he (m := .succeeded payload) rfl
  obtain ⟨h', hcomplete⟩ : ∃ h', Host.answer (store s) (.complete c.number) { h with store := y } = ((), h') := ⟨_, rfl⟩
  have hclock := @Host.answer_clock _ (store s) (.complete c.number) { h with store := y }
  have hstore := @Host.answer_store _ (store s) (.complete c.number) trivial { h with store := y }
  rw [hcomplete] at hclock hstore
  refine ⟨h', ?_, hclock, by rw [hstore, hfaults], ?_, ?_⟩
  case refine_1 =>
    refine (Host.perform_ask (q := .store (.get c.job)) (Host.answer_call ho.get)).trans ?_
    show Host.perform _ (if r.restored.isTerminal = true then _ else _) _ = _
    rw [ho.restored]
    refine (Host.perform_ask (q := .clock) rfl).trans ?_
    simp only [Dialogue.andThen, hmark]
    refine (Host.perform_ask (q := .store (.update _)) (Host.answer_call hupdate)).trans ?_
    exact (Host.perform_ask (q := .complete c.number) hcomplete).trans rfl
  case refine_2 =>
    rw [hstore, hclock, hdatabase]
    exact Database.text?_put_of_expiry? (Settings.seconds_pos _) he
  case refine_3 => rw [hstore, hclock, hdatabase, Database.list?_put_of_ne (s.recordKey_ne_indexKey _)]

/-- Two commands are sent for a result that is set: the look at the record, and the one that replaces it. -/
private theorem sentFor_setResult (ho : HoldsOpen s h c r)
    (he : expiry? h.clock.millis (Settings.seconds s.terminalTtl) = some expiry) (payload : Json) (i : Nat)
    (o : Operation) : ∃ look put, sentFor s i o (c.setResult payload) h = [look, put] ∧ look.isOk = true ∧
      put.isOk = true ∧ put.hasReplaced = true ∧ put.operation = o ∧ put.time = h.clock := by
  have hmark := JobRecord.mark_of_open ho.restored (.succeeded payload) h.clock
  obtain ⟨y, hupdate, -, -⟩ := ho.update he (m := .succeeded payload) rfl
  obtain ⟨look, hlook, hlooked⟩ := @sent_get s i o _ _ _ _ _ ho.get
  obtain ⟨put, hput, hrest⟩ := @sent_update s i o _ _ _ _ _ hupdate
  refine ⟨look, put, ?_, hlooked, hrest⟩
  refine (sentFor_ask (q := .store (.get c.job)) (Host.answer_call ho.get)).trans ?_
  rw [sentForRequest, hlook]
  show [look] ++ sentFor s i o (if r.restored.isTerminal = true then _ else _) _ = _
  rw [ho.restored]
  refine congrArg (look :: ·) ((sentFor_ask (q := .clock) rfl).trans ?_)
  simp only [Dialogue.andThen, hmark, sentForRequest, List.nil_append]
  refine (sentFor_ask (q := .store (.update _)) (Host.answer_call hupdate)).trans ?_
  exact congrArg (· ++ _) hput

namespace Network

/-- A client has set a result of a job, by two commands that nothing came between. -/
structure SetsResult (s : Settings) (w v : Network) (c : JobContext) (payload : Json) (look put : Sent) : Prop where
  client : v.clients[w.clients.length]? = some ⟨.setResult c payload, .done (.ok ())⟩
  log : v.log = w.log ++ [look, put]
  look_isOk : look.isOk = true
  put_isOk : put.isOk = true
  hasReplaced : put.hasReplaced = true
  operation : put.operation = .setResult c payload
  time : put.time = w.host.clock
  clock : v.host.clock = w.host.clock
  perform : w.host.perform (store s) (c.setResult payload) = (.ok (), v.host)

theorem exists_setsResult {w : Network} (ho : HoldsOpen s w.host c r)
    (he : expiry? w.host.clock.millis (Settings.seconds s.terminalTtl) = some expiry) (payload : Json) :
    ∃ moves look put, SetsResult s w (w.run s moves) c payload look put := by
  obtain ⟨n, hclient, hhost, hlog⟩ := run_alone s w (o := .setResult c payload) rfl
  obtain ⟨h', hperform, hclock, -⟩ := perform_setResult ho he payload
  obtain ⟨look, put, hsent, hlook, hput, hreplaced, hoperation, htime⟩ :=
    sentFor_setResult ho he payload w.clients.length (.setResult c payload)
  rw [hperform] at hclient hhost
  rw [hsent] at hlog
  refine ⟨_, look, put, hclient, hlog, hlook, hput, hreplaced, hoperation, htime, ?_, ?_⟩
  · rw [hhost, hclock]
  · rw [hperform, hhost]

theorem SetsResult.noneFailed {w v : Network} {payload : Json} {look put : Sent}
    (h : SetsResult s w v c payload look put) (hw : w.NoneFailed) : v.NoneFailed := by
  intro e he
  rw [h.log, List.mem_append, List.mem_cons, List.mem_singleton] at he
  rcases he with he | rfl | rfl
  · exact hw e he
  · exact h.look_isOk
  · exact h.put_isOk

/-- What two managers do that create a job each. -/
def creations : List Move :=
  [.begin (.create ⟨0, ⟨"a"⟩, Manager.defaultPollInterval⟩ ⟨1⟩ { name := "n", timeoutSeconds := 60 }),
    .begin (.create ⟨1, ⟨"b"⟩, Manager.defaultPollInterval⟩ ⟨2⟩ { name := "n", timeoutSeconds := 60 }),
    .step 0, .step 0, .step 0, .step 0, .step 0, .step 1, .step 1, .step 1, .step 1, .step 1]

/-- Two jobs have been created. -/
def twoJobs : Network := (start .epoch .empty).run {} creations

theorem twoJobs_noneFailed : twoJobs.NoneFailed := List.all_eq_true.1 (by decide +kernel)

theorem twoJobs_holdsOpen : HoldsOpen {} twoJobs.host ⟨0, ⟨1⟩⟩
    (.accepted ⟨1⟩ { name := "n", timeoutSeconds := 60 } ⟨"a"⟩ .epoch) :=
  ⟨by decide +kernel, rfl, rfl, rfl, rfl⟩

theorem twoJobs_expiry : expiry? twoJobs.host.clock.millis (Settings.seconds (Settings.terminalTtl {})) =
    some 604800000 := by decide +kernel

theorem twoJobs_index : twoJobs.host.store.database.list? 0 (Settings.indexKey {}) =
    some [JobId.text ⟨2⟩, JobId.text ⟨1⟩] := rfl

end Network

end JobLedger.Redis
