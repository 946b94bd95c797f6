import JobLedger.Proofs.Contracts
import JobLedger.Proofs.Interleaving
import JobLedger.Proofs.RecordMarks
import JobLedger.Proofs.StoredRecords

/-!
# The contract of calls

What the operations ask of a store and what they may rely on, if no command fails and every result can be read
back: the store gets records that can be read, and answers each call without a failure of its own. Then no
operation is answered with a failure of the store.
-/
namespace JobLedger

/-- A record that the operations store: it can be read, and has no result while its job is open. -/
structure JobRecord.IsStorable (r : JobRecord) : Prop where
  isReadable : r.IsReadable
  resultPayload_of_open : r.isTerminal = false → r.resultPayload = none

/-- What an operation may put in the place of a stored record. -/
def Operation.Writes : Operation → JobRecord → Prop
  | .setResult c payload, r =>
    r.id = c.job ∧ r.state = .succeeded ∧ r.percentComplete = 100 ∧ r.resultPayload = some payload
  | _, _ => True

namespace Request

/-- What may be asked by an operation. -/
def MayAsk (o : Operation) : Request → Prop
  | .store (.create r) => r.isTerminal = false ∧ r.IsStorable
  | .store (.update r) => r.IsStorable ∧ ∀ now, o.Writes (r.stamped now)
  | _ => True

/-- The answers that tell of no failure of the store. -/
def Yields : (q : Request) → q.Answer → Prop
  | .store (.create r), a => a = .ok r ∨ a = .error (.duplicateId r.id)
  | .store (.get id), a => a = .ok none ∨
    ∃ r : JobRecord, a = .ok (some r) ∧ r.id = id ∧ (r.isTerminal = false → r.resultPayload = none)
  | .store (.update r), a => (∃ now, a = .ok (r.stamped now)) ∨ a = .error (.notFound r.id) ∨
    ∃ state, a = .error (.alreadyTerminal r.id state)
  | .store (.findExpired _), a =>
    ∃ rs : List JobRecord, a = .ok rs ∧ ∀ r ∈ rs, r.isTerminal = false ∧ r.resultPayload = none
  | .store (.list _), a => ∃ rs : List JobRecord, a = .ok rs
  | _, _ => True

/-- The contract of the requests of an operation. -/
def contract (o : Operation) : Contract interface := ⟨MayAsk o, Yields⟩

end Request

namespace Operation

/-- The payloads that an operation may set as a result. -/
def payloads : Operation → List Json
  | .setResult _ payload => [payload]
  | .spawn _ _ (.steps todo ending) =>
    todo.filterMap (fun | .setResult payload => some payload | _ => none) ++
      (match ending with | .value payload => [payload] | _ => [])
  | _ => []

/-- The results that tell of no failure of the store. -/
def Concludes : (o : Operation) → o.Result → Prop
  | .create _ id _, a => (∃ r, a = .ok r) ∨ a = .error (.duplicateId id)
  | .getStatus id, a => (∃ r, a = .ok r) ∨ a = .error (.notFound id)
  | .statusView _ id, a => (∃ view, a = .ok view) ∨ a = .error (.notFound id)
  | .list _, a => ∃ rs, a = .ok rs
  | .cancel _ id, a => (∃ r, a = .ok r) ∨ a = .error (.notFound id) ∨ ∃ state, a = .error (.conflict id state)
  | .sweep _ _, a => ∃ report, a = .ok report ∧ report.failed = 0
  | .reportProgress _ _, a | .setResult _ _, a | .setFailed _ _ _, a => a = .ok ()
  | .completeTracking _ _, _ | .setUnserializable _ _, _ | .spawn _ _ _, _ => True

end Operation

namespace JobRecord

theorem IsStorable.stamped {r : JobRecord} (h : r.IsStorable) (now : Instant) : (r.stamped now).IsStorable :=
  ⟨h.isReadable, h.resultPayload_of_open⟩

private theorem isStorable_of_none {r : JobRecord} (h : r.resultPayload = none) : r.IsStorable :=
  ⟨isReadable_of_none h, fun _ => h⟩

/-- A mark without a result that cannot be read makes a record that can be stored. -/
private theorem isStorable_marked {r : JobRecord} (hr : r.resultPayload = none) (now : Instant) {m : Mark}
    (hm : ∀ p, m = .succeeded p → p.IsReadable) : (r.marked now m).IsStorable := by
  cases m with
  | succeeded p => exact ⟨isReadable_of_some rfl (hm p rfl), nofun⟩
  | running percent => exact isStorable_of_none hr
  | failed message detail => exact isStorable_of_none rfl
  | cancelled => exact isStorable_of_none rfl
  | timedOut message => exact isStorable_of_none rfl

end JobRecord

section
variable {o : Operation}

private theorem accepted_isStorable (id : JobId) (request : NewJob) (owner : InstanceId) (now : Instant) :
    (JobRecord.accepted id request owner now).IsStorable := JobRecord.isStorable_of_none rfl

private theorem honours_getStatus (id : JobId) : (Manager.getStatus id).Honours (Request.contract o) fun a =>
    a = .error (.notFound id) ∨
      ∃ r : JobRecord, a = .ok r ∧ r.id = id ∧ (r.isTerminal = false → r.resultPayload = none) := by
  refine ⟨trivial, ?_⟩
  rintro _ (rfl | ⟨r, rfl, hid, hr⟩)
  · exact .inl rfl
  · exact .inr ⟨r, rfl, hid, hr⟩

private theorem honours_create (m : Manager) (id : JobId) (request : NewJob) :
    (m.create id request).Honours (Request.contract o) fun a =>
      (∃ r, a = .ok r) ∨ a = .error (.duplicateId id) := by
  refine ⟨trivial, fun now _ => ⟨⟨rfl, accepted_isStorable id request m.instanceId now⟩, ?_⟩⟩
  rintro _ (rfl | rfl)
  · exact ⟨trivial, fun n _ => .inl ⟨_, rfl⟩⟩
  · exact .inr rfl

/-- The answer to a replacement is no failure to the context that asked for it. -/
theorem honours_write {r : JobRecord} (hr : r.IsStorable) (hw : ∀ now, o.Writes (r.stamped now)) :
    (JobContext.write r).Honours (Request.contract o) (· = .ok ()) := by
  refine ⟨⟨hr, hw⟩, ?_⟩
  rintro _ (⟨now, rfl⟩ | rfl | ⟨state, rfl⟩) <;> rfl

private theorem honours_reportProgress (ho : ∀ r, o.Writes r) (c : JobContext) (percent : Int) :
    (c.reportProgress percent).Honours (Request.contract o) (· = .ok ()) := by
  refine ⟨trivial, ?_⟩
  rintro _ (rfl | ⟨r, rfl, hid, hr⟩)
  · exact rfl
  · show Dialogue.Honours _ _ (if r.isTerminal then _ else _)
    cases hopen : r.isTerminal with
    | true => exact rfl
    | false =>
      refine ⟨trivial, fun now _ => ?_⟩
      have hmark : r.markRunning percent now = .ok (r.marked now (.running percent)) :=
        JobRecord.mark_of_open hopen (.running percent) now
      simp only [Dialogue.andThen, hmark]
      exact honours_write (JobRecord.isStorable_marked (hr hopen) now nofun) fun now => ho _

/-- The outcome of a job is recorded, or the job has gone or ended. -/
private theorem honours_finish {c : JobContext} {m : JobRecord.Mark}
    (hw : ∀ (r : JobRecord) (now now' : Instant), r.id = c.job → o.Writes ((r.marked now m).stamped now'))
    (hm : ∀ p, m = .succeeded p → p.IsReadable) : (c.finish m).Honours (Request.contract o) (· = .ok ()) := by
  refine ⟨trivial, ?_⟩
  rintro _ (rfl | ⟨r, rfl, hid, hr⟩)
  · exact ⟨trivial, fun _ _ => rfl⟩
  · show Dialogue.Honours _ _ (if r.isTerminal then _ else _)
    cases hopen : r.isTerminal with
    | true => exact ⟨trivial, fun _ _ => rfl⟩
    | false =>
      refine ⟨trivial, fun now _ => ?_⟩
      simp only [Dialogue.andThen, JobRecord.mark_of_open hopen m now]
      apply Dialogue.Honours.bind
      apply (honours_write (JobRecord.isStorable_marked (hr hopen) now hm) fun now' => hw r now now' hid).mono
      rintro _ rfl
      exact ⟨trivial, fun _ _ => rfl⟩

private theorem honours_cancel (ho : ∀ r, o.Writes r) (m : Manager) (id : JobId) :
    (m.cancel id).Honours (Request.contract o) fun a =>
      (∃ r, a = .ok r) ∨ a = .error (.notFound id) ∨ ∃ state, a = .error (.conflict id state) := by
  apply Dialogue.Honours.bind
  apply (honours_getStatus id).mono
  rintro _ (rfl | ⟨r, rfl, rfl, hr⟩)
  · exact .inr (.inl rfl)
  · show Dialogue.Honours _ _ (if r.isTerminal then _ else _)
    cases hopen : r.isTerminal with
    | true => exact .inr (.inr ⟨_, rfl⟩)
    | false =>
      refine ⟨trivial, fun _ _ => ⟨trivial, fun now _ => ?_⟩⟩
      have hmark : r.markCancelled now = .ok (r.marked now .cancelled) := JobRecord.mark_of_open hopen .cancelled now
      simp only [Dialogue.andThen, hmark]
      refine ⟨⟨JobRecord.isStorable_marked (hr hopen) now nofun, fun _ => ho _⟩, ?_⟩
      rintro _ (⟨now, rfl⟩ | rfl | ⟨state, rfl⟩)
      · exact .inl ⟨_, rfl⟩
      · exact .inr (.inl rfl)
      · exact .inr (.inr ⟨state, rfl⟩)

private theorem honours_expire (ho : ∀ r, o.Writes r) (m : Manager) {r : JobRecord}
    (hr : r.isTerminal = false ∧ r.resultPayload = none) (report : SweepReport) :
    (Sweep.expire m r report).Honours (Request.contract o) (·.failed = report.failed) := by
  refine ⟨trivial, fun now _ => ?_⟩
  have hmark := JobRecord.mark_of_open hr.1 (.timedOut (Sweep.timeoutMessage r.timeoutSeconds)) now
  change r.markTimedOut _ now = _ at hmark
  simp only [Dialogue.andThen, hmark]
  refine ⟨⟨JobRecord.isStorable_marked hr.2 now nofun, fun _ => ho _⟩, ?_⟩
  rintro _ (⟨now, rfl⟩ | rfl | ⟨state, rfl⟩)
  · exact ⟨trivial, fun _ _ => rfl⟩
  · exact rfl
  · exact rfl

private theorem honours_expireAll (ho : ∀ r, o.Writes r) (m : Manager) {rs : List JobRecord}
    (hrs : ∀ r ∈ rs, r.isTerminal = false ∧ r.resultPayload = none) (report : SweepReport) :
    (Sweep.expireAll m rs report).Honours (Request.contract o) (·.failed = report.failed) := by
  induction rs generalizing report with
  | nil => exact rfl
  | cons r rs ih =>
    apply Dialogue.Honours.bind
    apply (honours_expire ho m (hrs r List.mem_cons_self) report).mono
    intro next hnext
    apply (ih (fun x hx => hrs x (List.mem_cons_of_mem _ hx)) next).mono
    exact fun last hlast => hlast.trans hnext

private theorem honours_sweepOnce (ho : ∀ r, o.Writes r) (m : Manager) (now : Instant) :
    (m.sweepOnce now).Honours (Request.contract o) fun a => ∃ report, a = .ok report ∧ report.failed = 0 := by
  refine ⟨trivial, ?_⟩
  rintro _ ⟨rs, rfl, hrs⟩
  simp only [Dialogue.andThen]
  apply Dialogue.Honours.bind
  apply (honours_expireAll ho m hrs _).mono
  exact fun report hreport => ⟨report, rfl, hreport⟩

/-- Waiting asks nothing of the store. -/
private theorem honours_wait (w : Wait) : (do Task.wait w; return .ok () : Task (Except JobError Unit)).Honours
    (TaskStep.contract (Request.contract o)) fun _ => True := ⟨trivial, fun _ _ => trivial⟩

private theorem honours_perform (ho : ∀ r, o.Writes r) (c : JobContext) {x : WorkStep}
    (hx : ∀ p, x = .setResult p → p.IsReadable) :
    (x.perform c).Honours (TaskStep.contract (Request.contract o)) fun _ => True := by
  cases x with
  | progress percent => exact (honours_act (honours_reportProgress ho c percent)).mono fun _ _ => trivial
  | setResult p =>
    refine (honours_act (honours_finish (fun _ _ _ _ => ho _) ?_)).mono fun _ _ => trivial
    rintro q ⟨⟩
    exact hx p rfl
  | setFailed message detail =>
    refine (honours_act (honours_finish (fun _ _ _ _ => ho _) ?_)).mono fun _ _ => trivial
    exact nofun
  | setUnserializable reason => exact trivial
  | awaitSignal => exact honours_wait _
  | sleep ms => exact honours_wait _

/-- The end of work is the one it was given, or an error. -/
private theorem honours_performAll (ho : ∀ r, o.Writes r) (c : JobContext) {todo : List WorkStep} {ending : WorkEnd}
    (hx : ∀ p, .setResult p ∈ todo → p.IsReadable) (he : ∀ p, ending = .value p → p.IsReadable) :
    (WorkStep.performAll c ending todo).Honours (TaskStep.contract (Request.contract o))
      fun last => ∀ p, last = .value p → p.IsReadable := by
  induction todo with
  | nil => exact he
  | cons x xs ih =>
    apply Dialogue.Honours.bind
    apply (honours_perform ho c fun p hp => hx p (hp ▸ List.mem_cons_self)).mono
    intro a _
    cases a with
    | ok _ => exact ih fun p hp => hx p (List.mem_cons_of_mem _ hp)
    | error e => exact nofun

private theorem honours_settle (ho : ∀ r, o.Writes r) (m : Manager) (c : JobContext) {ending : WorkEnd}
    (he : ∀ p, ending = .value p → p.IsReadable) :
    (Work.settle m c ending).Honours (Request.contract o) fun _ => True := by
  refine ⟨trivial, fun completed _ => ?_⟩
  simp only [Dialogue.andThen]
  have hmark : ∀ mark, Work.outcome completed ending = some mark → ∀ p, mark = .succeeded p → p.IsReadable := by
    rintro mark hmark p rfl
    cases ending with
    | value q =>
      rw [Work.outcome] at hmark
      split at hmark
      · cases hmark
      · obtain rfl : q = p := JobRecord.Mark.succeeded.inj (Option.some.inj hmark)
        exact he q rfl
    | panic text => cases hmark
    | unserializable reason | error message debug =>
      rw [Work.outcome] at hmark
      split at hmark <;> cases hmark
  cases hout : Work.outcome completed ending with
  | none => exact ⟨trivial, fun _ _ => trivial⟩
  | some mark =>
    apply Dialogue.Honours.bind
    apply (honours_finish (fun _ _ _ _ => ho _) (hmark mark hout)).mono
    exact fun _ _ => ⟨trivial, fun _ _ => trivial⟩

private theorem honours_work (ho : ∀ r, o.Writes r) (m : Manager) (c : JobContext) {todo : List WorkStep}
    {ending : WorkEnd} (hx : ∀ p, .setResult p ∈ todo → p.IsReadable) (he : ∀ p, ending = .value p → p.IsReadable) :
    (Work.task m c (.steps todo ending)).Honours (TaskStep.contract (Request.contract o)) fun _ => True := by
  refine ⟨trivial, fun _ _ => ?_⟩
  simp only [Dialogue.andThen]
  apply Dialogue.Honours.bind
  apply (honours_performAll ho c hx he).mono
  exact fun last hlast => ⟨trivial, fun _ _ => honours_act (honours_settle ho m c hlast)⟩

/-- No operation with results that can be read is answered with a failure of the store. -/
theorem honours_operation {o : Operation} (hp : ∀ p ∈ o.payloads, p.IsReadable) :
    o.task.Honours (TaskStep.contract (Request.contract o)) o.Concludes := by
  cases o with
  | create m id request => exact honours_act (honours_create m id request)
  | getStatus id =>
    apply honours_act
    apply (honours_getStatus id).mono
    rintro _ (rfl | ⟨r, rfl, -, -⟩)
    · exact .inr rfl
    · exact .inl ⟨r, rfl⟩
  | statusView m id =>
    apply honours_act
    apply Dialogue.Honours.bind
    apply (honours_getStatus id).mono
    rintro _ (rfl | ⟨r, rfl, -, -⟩)
    · exact .inr rfl
    · exact .inl ⟨_, rfl⟩
  | list query =>
    apply honours_act
    refine ⟨trivial, ?_⟩
    rintro _ ⟨rs, rfl⟩
    exact ⟨rs, rfl⟩
  | cancel m id => exact honours_act (honours_cancel (o := .cancel m id) (fun _ => trivial) m id)
  | completeTracking m id => exact ⟨trivial, fun _ _ => trivial⟩
  | sweep m now => exact honours_act (honours_sweepOnce (o := .sweep m now) (fun _ => trivial) m now)
  | reportProgress c percent =>
    exact honours_act (honours_reportProgress (o := .reportProgress c percent) (fun _ => trivial) c percent)
  | setResult c payload =>
    apply honours_act
    apply honours_finish
    case hw => exact fun r now now' hid => ⟨by simpa using hid, rfl, rfl, rfl⟩
    case hm =>
      rintro p ⟨⟩
      exact hp payload List.mem_cons_self
  | setFailed c message detail => exact honours_act (honours_finish (fun _ _ _ _ => trivial) nofun)
  | setUnserializable c reason => exact trivial
  | spawn m c work =>
    cases work with
    | unfounded => exact trivial
    | steps todo ending =>
      apply honours_work (o := .spawn m c (.steps todo ending)) (fun _ => trivial)
      case hx => exact fun p hx => hp p (List.mem_append_left _ (List.mem_filterMap.2 ⟨_, hx, rfl⟩))
      case he =>
        rintro p rfl
        exact hp p (List.mem_append_right _ List.mem_cons_self)

end

end JobLedger
