import JobLedger.Proofs.Attempts
import JobLedger.Proofs.Contracts
import JobLedger.Proofs.FailedOperations
import JobLedger.Proofs.KeyedMemory
import JobLedger.Proofs.Signals

/-!
# What operations on one job concern

Every context belongs to a job. An operation on a job looks at the record of this job, at the contexts that managers
track for it and at the flags of its contexts, and it changes nothing else. The one thing that jobs share is the counter
from which new contexts have their numbers.
-/
namespace JobLedger

namespace Host

variable {owner : Nat → JobId} {id k : JobId} {h h' h'' : Host Memory}

/-- Two processes hold the same of a job. -/
structure SameFor (owner : Nat → JobId) (id : JobId) (h h' : Host Memory) : Prop where
  clock : h.clock = h'.clock
  record : h.store.records.get? id = h'.store.records.get? id
  tracked : ∀ m, h.tracked.get? (m, id) = h'.tracked.get? (m, id)
  isCancelled : ∀ n, owner n = id → h.isCancelled n = h'.isCancelled n
  isCompleted : ∀ n, owner n = id → h.isCompleted n = h'.isCompleted n

theorem SameFor.refl (owner : Nat → JobId) (id : JobId) (h : Host Memory) : SameFor owner id h h :=
  ⟨rfl, rfl, fun _ => rfl, fun _ _ => rfl, fun _ _ => rfl⟩

theorem SameFor.symm (hs : SameFor owner id h h') : SameFor owner id h' h :=
  ⟨hs.clock.symm, hs.record.symm, fun m => (hs.tracked m).symm, fun n hn => (hs.isCancelled n hn).symm,
    fun n hn => (hs.isCompleted n hn).symm⟩

theorem SameFor.trans (hs : SameFor owner id h h') (hs' : SameFor owner id h' h'') : SameFor owner id h h'' :=
  ⟨hs.clock.trans hs'.clock, hs.record.trans hs'.record, fun m => (hs.tracked m).trans (hs'.tracked m),
    fun n hn => (hs.isCancelled n hn).trans (hs'.isCancelled n hn),
    fun n hn => (hs.isCompleted n hn).trans (hs'.isCompleted n hn)⟩

/-- Records are kept under their own identifiers, and what is tracked for a job is a context of the job. -/
structure Assigned (owner : Nat → JobId) (h : Host Memory) : Prop where
  keyed : h.store.Keyed
  tracked : ∀ m id n, h.tracked.get? (m, id) = some n → owner n = id

end Host

/-- The requests of an operation on a job that makes no context. -/
inductive Request.Concerns (owner : Nat → JobId) : JobId → Request → Prop where
  | clock (id : JobId) : Concerns owner id .clock
  | get (id : JobId) : Concerns owner id (.store (.get id))
  | update (r : JobRecord) : Concerns owner r.id (.store (.update r))
  | signal (m : Nat) (id : JobId) : Concerns owner id (.signal m id)
  | untrack (m : Nat) (id : JobId) : Concerns owner id (.untrack m id)
  | isCompleted (n : Nat) : Concerns owner (owner n) (.isCompleted n)
  | complete (n : Nat) : Concerns owner (owner n) (.complete n)

/-- What an operation on a job may ask that makes no context, and what it may rely on. -/
def Request.concerning (owner : Nat → JobId) (id : JobId) : Contract Request.interface where
  MayAsk q := q.Concerns owner id
  Answers
    | .store (.get _), a => ∀ r, a = .ok (some r) → r.id = id
    | _, _ => True

theorem Memory.get?_update (now : Instant) (r : JobRecord) (s : Memory) (k : JobId) :
    (update now r s).2.records.get? k =
      if k = r.id ∧ (s.records.get? r.id).any (fun stored => !stored.isTerminal) then
        some { r with lastUpdatedAt := now } else s.records.get? k := by
  rw [update]
  cases hr : s.records.get? r.id with
  | none => simp
  | some stored =>
    cases hopen : stored.isTerminal with
    | true => simp [hopen]
    | false => simp [hopen, Table.get?_insert]

private theorem Memory.fst_update_congr {s s' : Memory} {now : Instant} {r : JobRecord}
    (hs : s.records.get? r.id = s'.records.get? r.id) : (update now r s).1 = (update now r s').1 := by
  rw [update, update, hs]
  split
  · rfl
  · split <;> rfl

theorem Memory.Keyed.update {s : Memory} (hs : s.Keyed) (now : Instant) (r : JobRecord) :
    (Memory.update now r s).2.Keyed := by
  rw [Memory.update]
  split
  · exact hs
  · split
    · exact hs
    · exact hs.insert { r with lastUpdatedAt := now }

namespace Host

section requests
variable {owner : Nat → JobId} {id k : JobId} {h h' : Host Memory} {q : Request}

private theorem isCompleted_complete (h : Host Memory) (n k : Nat) :
    (h.answer Memory.store (.complete n)).2.isCompleted k = true ↔ h.isCompleted k = true ∨ k = n := by
  simp only [answer]
  split
  case isTrue hn =>
    constructor
    · exact .inl
    · rintro (hk | rfl)
      · exact hk
      · exact hn
  case isFalse => simp [isCompleted]

private theorem get?_answer_untrack (h : Host Memory) (m : Nat) (id : JobId) (key : Nat × JobId) :
    (h.answer Memory.store (.untrack m id)).2.tracked.get? key = if key = (m, id) then none else h.tracked.get? key :=
  Table.get?_erase _ _ _

/-- The number of contexts grows only with a context that is tracked. -/
private theorem answer_contexts (hq : q.Concerns owner id) : (h.answer Memory.store q).2.contexts = h.contexts := by
  cases hq with
  | signal m id => rw [signal_eq]
  | complete n => rw [complete_eq]
  | _ => rfl

theorem Assigned.answers (hs : h.Assigned owner) (hq : q.Concerns owner id) :
    (Request.concerning owner id).Answers q (h.answer Memory.store q).1 := by
  cases hq with
  | get id => exact fun r hr => hs.keyed.id_eq (Except.ok.inj hr)
  | _ => exact trivial

theorem Assigned.answer (hs : h.Assigned owner) (hq : q.Concerns owner id) :
    (h.answer Memory.store q).2.Assigned owner := by
  cases hq with
  | update r => exact ⟨hs.keyed.update h.clock r, hs.tracked⟩
  | signal m id =>
    rw [signal_eq]
    exact ⟨hs.keyed, hs.tracked⟩
  | untrack m id =>
    refine ⟨hs.keyed, fun m' id' n hn => ?_⟩
    rw [get?_answer_untrack] at hn
    split at hn
    · cases hn
    · exact hs.tracked m' id' n hn
  | complete n =>
    rw [complete_eq]
    exact ⟨hs.keyed, hs.tracked⟩
  | _ => exact hs

/-- An answer changes nothing for other jobs. -/
private theorem Assigned.sameFor_answer (hs : h.Assigned owner) (hq : q.Concerns owner id) (hk : k ≠ id) :
    SameFor owner k h (h.answer Memory.store q).2 := by
  cases hq with
  | update r =>
    refine ⟨rfl, ?_, fun _ => rfl, fun _ _ => rfl, fun _ _ => rfl⟩
    exact ((Memory.get?_update h.clock r h.store k).trans (if_neg fun hr => hk hr.1)).symm
  | signal m id =>
    rw [signal_eq]
    refine ⟨rfl, rfl, fun _ => rfl, fun j hj => ?_, fun _ _ => rfl⟩
    have hnot : h.tracked.get? (m, id) ≠ some j := fun hn => hk (hj.symm.trans (hs.tracked m id j hn))
    show h.isCancelled j = (h.answer Memory.store (.signal m id)).2.isCancelled j
    rw [Bool.eq_iff_iff, isCancelled_signal]
    simp [hnot]
  | untrack m id =>
    refine ⟨rfl, rfl, fun m' => ?_, fun _ _ => rfl, fun _ _ => rfl⟩
    rw [get?_answer_untrack, if_neg]
    rintro ⟨⟩
    exact hk rfl
  | complete n =>
    rw [complete_eq]
    refine ⟨rfl, rfl, fun _ => rfl, fun _ _ => rfl, fun j hj => ?_⟩
    have hne : j ≠ n := by
      rintro rfl
      exact hk hj.symm
    show h.isCompleted j = (h.answer Memory.store (.complete n)).2.isCompleted j
    rw [Bool.eq_iff_iff, isCompleted_complete]
    simp [hne]
  | _ => exact .refl owner k h

/-- An answer goes by what the process holds of the job, and changes it accordingly. -/
theorem SameFor.answer (hs : SameFor owner id h h') (hq : q.Concerns owner id) :
    (h.answer Memory.store q).1 = (h'.answer Memory.store q).1 ∧
      SameFor owner id (h.answer Memory.store q).2 (h'.answer Memory.store q).2 := by
  cases hq with
  | clock => exact ⟨hs.clock, hs⟩
  | get id => exact ⟨congrArg Except.ok hs.record, hs⟩
  | update r =>
    refine ⟨?_, hs.clock, ?_, hs.tracked, hs.isCancelled, hs.isCompleted⟩
    · show (Memory.update h.clock r h.store).1 = (Memory.update h'.clock r h'.store).1
      rw [hs.clock]
      exact Memory.fst_update_congr hs.record
    · show (Memory.update h.clock r h.store).2.records.get? r.id =
        (Memory.update h'.clock r h'.store).2.records.get? r.id
      rw [Memory.get?_update, Memory.get?_update, hs.clock, hs.record]
  | signal m id =>
    constructor
    · simp only [Host.answer, hs.tracked m]
      cases h'.tracked.get? (m, id) <;> rfl
    · rw [signal_eq h, signal_eq h']
      refine ⟨hs.clock, hs.record, hs.tracked, fun j hj => ?_, hs.isCompleted⟩
      show (h.answer Memory.store (.signal m id)).2.isCancelled j =
        (h'.answer Memory.store (.signal m id)).2.isCancelled j
      rw [Bool.eq_iff_iff, isCancelled_signal, isCancelled_signal, hs.isCancelled j hj, hs.tracked m]
  | untrack m id =>
    refine ⟨congrArg Option.isSome (hs.tracked m), hs.clock, hs.record, fun m' => ?_, hs.isCancelled, hs.isCompleted⟩
    rw [get?_answer_untrack, get?_answer_untrack, hs.tracked m']
  | isCompleted n => exact ⟨hs.isCompleted n rfl, hs⟩
  | complete n =>
    rw [complete_eq h, complete_eq h']
    refine ⟨rfl, hs.clock, hs.record, hs.tracked, hs.isCancelled, fun j hj => ?_⟩
    show (h.answer Memory.store (.complete n)).2.isCompleted j = (h'.answer Memory.store (.complete n)).2.isCompleted j
    rw [Bool.eq_iff_iff, isCompleted_complete, isCompleted_complete, hs.isCompleted j hj]

end requests

/-- An operation concerns one job. If it makes a context, then the next context belongs to this job. -/
structure Confined {α : Type} (owner : Nat → JobId) (id : JobId) (makes : Prop) (a : Action α) : Prop where
  assigned : ∀ {h : Host Memory}, h.Assigned owner → (makes → owner h.contexts = id) →
    (h.perform Memory.store a).2.Assigned owner
  others : ∀ {h : Host Memory}, h.Assigned owner → ∀ k, k ≠ id → SameFor owner k h (h.perform Memory.store a).2
  contexts : ∀ {h : Host Memory}, h.Assigned owner → ¬ makes → (h.perform Memory.store a).2.contexts = h.contexts
  /-- What the operation answers and does goes by what the process holds of the job. -/
  sees : ∀ {h h' : Host Memory}, h.Assigned owner → h'.Assigned owner → SameFor owner id h h' →
    (makes → h.contexts = h'.contexts) → (h.perform Memory.store a).1 = (h'.perform Memory.store a).1 ∧
      SameFor owner id (h.perform Memory.store a).2 (h'.perform Memory.store a).2 ∧
      (makes → (h.perform Memory.store a).2.contexts = (h'.perform Memory.store a).2.contexts)

section confined
variable {α : Type} {owner : Nat → JobId} {id : JobId}

/-- An operation concerns one job if all that it asks does. -/
private theorem confined_of_honours {Q : α → Prop} {makes : Prop} {a : Action α} (hmakes : ¬ makes)
    (ha : a.Honours (Request.concerning owner id) Q) : Confined owner id makes a := by
  induction a with
  | done b =>
    exact ⟨fun hs _ => hs, fun _ _ _ => .refl _ _ _, fun _ _ => rfl,
      fun _ _ hsame _ => ⟨rfl, hsame, fun h => absurd h hmakes⟩⟩
  | ask q next ih =>
    obtain ⟨hq, hnext⟩ := ha
    constructor
    case assigned =>
      intro h hs _
      exact (ih _ (hnext _ (hs.answers hq))).assigned (hs.answer hq) fun h => absurd h hmakes
    case others =>
      intro h hs k hk
      exact (hs.sameFor_answer hq hk).trans ((ih _ (hnext _ (hs.answers hq))).others (hs.answer hq) k hk)
    case contexts =>
      intro h hs _
      exact ((ih _ (hnext _ (hs.answers hq))).contexts (hs.answer hq) hmakes).trans (answer_contexts hq)
    case sees =>
      intro h h' hs hs' hsame _
      obtain ⟨ha, hafter⟩ := hsame.answer hq
      have hanswer : h'.answer Memory.store q = ((h.answer Memory.store q).1, (h'.answer Memory.store q).2) :=
        Prod.ext ha.symm rfl
      rw [perform_ask (a := (h.answer Memory.store q).1) rfl, perform_ask hanswer]
      exact (ih _ (hnext _ (hs.answers hq))).sees (hs.answer hq) (hs'.answer hq) hafter fun h => absurd h hmakes

/-- A process after a creation that succeeded. -/
def created (m : Manager) (id : JobId) (request : NewJob) (h : Host Memory) : Host Memory :=
  { h with
    store := ⟨h.store.records.insert id (.accepted id request m.instanceId h.clock)⟩
    tracked := h.tracked.insert (m.number, id) h.contexts
    contexts := h.contexts + 1 }

/-- A creation by itself: a record and a tracked context, unless the identifier is taken. -/
theorem perform_create (m : Manager) (id : JobId) (request : NewJob) (h : Host Memory) :
    h.perform Memory.store (m.create id request) =
      if h.store.records.contains id then (.error (.duplicateId id), h)
      else (.ok (.accepted id request m.instanceId h.clock, ⟨h.contexts, id⟩), h.created m id request) := by
  have hclock : h.answer Memory.store .clock = (h.clock, h) := rfl
  refine (perform_ask hclock).trans ?_
  have hid : (JobRecord.accepted id request m.instanceId h.clock).id = id := rfl
  cases htaken : h.store.records.contains id with
  | true =>
    have hcreate : Memory.store.perform h.clock (.create (.accepted id request m.instanceId h.clock)) h.store =
        (.error (.duplicateId id), h.store) := by
      show Memory.create _ h.store = _
      rw [Memory.create, hid, if_pos htaken]
    exact perform_ask (answer_call hcreate)
  | false =>
    have hcreate : Memory.store.perform h.clock (.create (.accepted id request m.instanceId h.clock)) h.store =
        (.ok (.accepted id request m.instanceId h.clock),
          ⟨h.store.records.insert id (.accepted id request m.instanceId h.clock)⟩) := by
      show Memory.create _ h.store = _
      rw [Memory.create, hid, if_neg (by simp [htaken])]
    exact (perform_ask (answer_call hcreate)).trans (perform_ask rfl)

private theorem confined_create {makes : Prop} (hmakes : makes) (m : Manager) (id : JobId) (request : NewJob) :
    Confined owner id makes (m.create id request) := by
  constructor
  case assigned =>
    intro h hs howner
    rw [perform_create]
    split
    · exact hs
    · refine ⟨hs.keyed.insert (.accepted id request m.instanceId h.clock), fun m' id' n hn => ?_⟩
      rw [created, Table.get?_insert] at hn
      split at hn
      · rename_i hkey
        obtain ⟨-, rfl⟩ := Prod.mk.inj hkey
        obtain rfl := Option.some.inj hn
        exact howner hmakes
      · exact hs.tracked m' id' n hn
  case others =>
    intro h hs k hk
    rw [perform_create]
    split
    · exact .refl owner k h
    · refine ⟨rfl, ?_, fun m' => ?_, fun _ _ => rfl, fun _ _ => rfl⟩
      · rw [created, Table.get?_insert, if_neg hk]
      · rw [created, Table.get?_insert, if_neg fun hkey => hk (Prod.mk.inj hkey).2]
  case contexts => exact fun _ hnot => absurd hmakes hnot
  case sees =>
    intro h h' _ _ hsame hcontexts
    have htaken : h.store.records.contains id = h'.store.records.contains id := congrArg Option.isSome hsame.record
    rw [perform_create, perform_create, htaken]
    split
    · exact ⟨rfl, hsame, hcontexts⟩
    · refine ⟨by rw [hsame.clock, hcontexts hmakes], ⟨hsame.clock, ?_, fun m' => ?_, hsame.isCancelled,
        hsame.isCompleted⟩, fun hm => congrArg Nat.succ (hcontexts hm)⟩
      · rw [created, created, Table.get?_insert, Table.get?_insert, if_pos rfl, if_pos rfl, hsame.clock]
      · rw [created, created, Table.get?_insert, Table.get?_insert, hsame.tracked m', hcontexts hmakes]

end confined

end Host

section
variable {owner : Nat → JobId} {id : JobId}

private theorem concerning_getStatus (id : JobId) : (Manager.getStatus id).Honours (Request.concerning owner id)
    fun a => ∀ r, a = .ok r → r.id = id := by
  refine ⟨.get id, fun a ha => ?_⟩
  rcases a with e | _ | r
  · rintro r ⟨⟩
  · rintro r ⟨⟩
  · rintro r' ⟨⟩
    exact ha r rfl

private theorem concerning_statusView (m : Manager) (id : JobId) :
    (m.statusView id).Honours (Request.concerning owner id) fun _ => True :=
  Dialogue.Honours.bind ((concerning_getStatus id).mono fun _ _ => trivial)

private theorem concerning_completeTracking (m : Manager) (id : JobId) :
    (m.completeTracking id).Honours (Request.concerning owner id) fun _ => True :=
  ⟨.untrack m.number id, fun _ _ => trivial⟩

private theorem concerning_setUnserializable (reason : String) :
    (JobContext.setUnserializable reason).Honours (Request.concerning owner id) fun _ => True := trivial

private theorem concerning_write {r : JobRecord} (hr : r.id = id) :
    (JobContext.write r).Honours (Request.concerning owner id) fun _ => True := by
  subst hr
  refine ⟨.update r, fun a _ => ?_⟩
  rcases a with e | _
  · cases e <;> trivial
  · trivial

private theorem concerning_reportProgress (c : JobContext) (percent : Int) :
    (c.reportProgress percent).Honours (Request.concerning owner c.job) fun _ => True := by
  refine ⟨.get c.job, fun a ha => ?_⟩
  rcases a with e | _ | r
  · trivial
  · trivial
  · have hid : r.id = c.job := ha r rfl
    show Dialogue.Honours _ _ (if r.isTerminal then _ else _)
    cases hopen : r.isTerminal with
    | true => trivial
    | false =>
      refine ⟨.clock c.job, fun now _ => ?_⟩
      have hmark : r.markRunning percent now = .ok (r.marked now (.running percent)) :=
        JobRecord.mark_of_open hopen (.running percent) now
      simp only [Dialogue.andThen, hmark]
      exact concerning_write ((JobRecord.marked_id r now _).trans hid)

private theorem concerning_finish {c : JobContext} (hc : owner c.number = c.job) (m : JobRecord.Mark) :
    (c.finish m).Honours (Request.concerning owner c.job) fun _ => True := by
  have hcomplete : (Request.complete c.number).Concerns owner c.job := hc ▸ .complete c.number
  refine ⟨.get c.job, fun a ha => ?_⟩
  rcases a with e | _ | r
  · trivial
  · exact ⟨hcomplete, fun _ _ => trivial⟩
  · have hid : r.id = c.job := ha r rfl
    show Dialogue.Honours _ _ (if r.isTerminal then _ else _)
    cases hopen : r.isTerminal with
    | true => exact ⟨hcomplete, fun _ _ => trivial⟩
    | false =>
      refine ⟨.clock c.job, fun now _ => ?_⟩
      simp only [Dialogue.andThen, JobRecord.mark_of_open hopen m now]
      apply Dialogue.Honours.bind
      apply (concerning_write ((JobRecord.marked_id r now m).trans hid)).mono
      intro b _
      cases b with
      | error e => trivial
      | ok _ => exact ⟨hcomplete, fun _ _ => trivial⟩

private theorem concerning_cancel (m : Manager) (id : JobId) :
    (m.cancel id).Honours (Request.concerning owner id) fun _ => True := by
  apply Dialogue.Honours.bind
  apply (concerning_getStatus id).mono
  intro a ha
  cases a with
  | error e => trivial
  | ok r =>
    show Dialogue.Honours _ _ (if r.isTerminal then _ else _)
    cases hopen : r.isTerminal with
    | true => trivial
    | false =>
      refine ⟨.signal m.number id, fun _ _ => ⟨.clock id, fun now _ => ?_⟩⟩
      have hmark : r.markCancelled now = .ok (r.marked now .cancelled) := JobRecord.mark_of_open hopen .cancelled now
      simp only [Dialogue.andThen, hmark]
      obtain rfl : (r.marked now .cancelled).id = id := (JobRecord.marked_id r now _).trans (ha r rfl)
      exact ⟨.update _, fun _ _ => trivial⟩

end

namespace Operation

/-- The job that an operation on one job concerns. -/
def job? : Operation → Option JobId
  | .create _ id _ | .getStatus id | .statusView _ id | .cancel _ id | .completeTracking _ id => some id
  | .reportProgress c _ | .setResult c _ | .setFailed c _ _ | .setUnserializable c _ => some c.job
  | .list _ | .sweep _ _ | .spawn _ _ _ => none

def isCreation : Operation → Bool
  | .create _ _ _ => true
  | _ => false

/-- An operation on one job concerns this job only, given that its context is one of the job. -/
theorem confined {o : Operation} {a : Action o.Result} {owner : Nat → JobId} {id : JobId} (ho : o.action? = some a)
    (hjob : o.job? = some id) (hc : ∀ c, o.context? = some c → owner c.number = c.job) :
    Host.Confined owner id (o.isCreation = true) a := by
  cases o with
  | create m id request =>
    cases ho; cases hjob
    exact Host.confined_create rfl m id request
  | getStatus id =>
    cases ho; cases hjob
    exact Host.confined_of_honours Bool.false_ne_true (concerning_getStatus id)
  | statusView m id =>
    cases ho; cases hjob
    exact Host.confined_of_honours Bool.false_ne_true (concerning_statusView m id)
  | list query => cases hjob
  | cancel m id =>
    cases ho; cases hjob
    exact Host.confined_of_honours Bool.false_ne_true (concerning_cancel m id)
  | completeTracking m id =>
    cases ho; cases hjob
    exact Host.confined_of_honours Bool.false_ne_true (concerning_completeTracking m id)
  | sweep m now => cases hjob
  | reportProgress c percent =>
    cases ho; cases hjob
    exact Host.confined_of_honours Bool.false_ne_true (concerning_reportProgress c percent)
  | setResult c payload =>
    cases ho; cases hjob
    exact Host.confined_of_honours Bool.false_ne_true (concerning_finish (hc c rfl) (.succeeded payload))
  | setFailed c message detail =>
    cases ho; cases hjob
    exact Host.confined_of_honours Bool.false_ne_true (concerning_finish (hc c rfl) (.failed message detail))
  | setUnserializable c reason =>
    cases ho; cases hjob
    exact Host.confined_of_honours Bool.false_ne_true (concerning_setUnserializable reason)
  | spawn m c work => cases hjob

end Operation

end JobLedger
