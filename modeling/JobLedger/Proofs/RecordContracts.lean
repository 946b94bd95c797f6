import JobLedger.Lifecycle.Sweep
import JobLedger.Proofs.Contracts
import JobLedger.Proofs.RecordMarks

/-!
# Contracts on records

The operations read records, mark the open ones and put them back. A contract that lets them do so, as far as records
have a property and marks are of a kind, is honoured by all of them. Main statements: `Contract.LetsMark.finish`,
`Contract.LetsSweep.sweepOnce` and `Contract.LetsMark.performAll`.
-/
namespace JobLedger

open JobRecord (Mark)

variable {C : Contract Request.interface} {P : JobRecord → Prop} {K : Mark → Prop} {r : JobRecord}

/-- Records may be read one by one, which then have a property, and be put back with marks of a kind. -/
structure Contract.LetsMark (C : Contract Request.interface) (P : JobRecord → Prop) (K : Mark → Prop) : Prop where
  clock : C.MayAsk .clock
  get : ∀ id, C.MayAsk (.store (.get id))
  read : ∀ {id r}, C.Answers (.store (.get id)) (.ok (some r)) → P r
  update : ∀ {r m} now, r.isTerminal = false → P r → K m → C.MayAsk (.store (.update (r.marked now m)))
  complete : ∀ n, C.MayAsk (.complete n)

/-- Besides, expired records may be looked for, which then have the property, and signals may be fired. -/
structure Contract.LetsSweep (C : Contract Request.interface) (P : JobRecord → Prop) (K : Mark → Prop) : Prop
    extends C.LetsMark P K where
  findExpired : ∀ now, C.MayAsk (.store (.findExpired now))
  found : ∀ {now rs}, C.Answers (.store (.findExpired now)) (.ok rs) → ∀ r ∈ rs, P r
  signal : ∀ m id, C.MayAsk (.signal m id)

namespace Contract

theorem honours_write (hr : C.MayAsk (.store (.update r))) : (JobContext.write r).Honours C fun _ => True := by
  refine ⟨hr, fun a _ => ?_⟩
  rcases a with e | _
  · cases e <;> exact trivial
  · exact trivial

namespace LetsMark

variable (hC : C.LetsMark P K)
include hC

theorem getStatus (id : JobId) : (Manager.getStatus id).Honours C fun a => ∀ r, a = .ok r → P r := by
  refine ⟨hC.get id, fun a ha => ?_⟩
  rcases a with e | _ | r
  · rintro r ⟨⟩
  · rintro r ⟨⟩
  · rintro _ ⟨⟩
    exact hC.read ha

theorem statusView (m : Manager) (id : JobId) : (m.statusView id).Honours C fun _ => True := by
  apply Dialogue.Honours.bind
  exact (hC.getStatus id).mono fun _ _ => trivial

theorem load (c : JobContext) : c.load.Honours C fun a => ∀ r, a = .ok (some r) → P r := by
  refine ⟨hC.get c.job, fun a ha r hr => ?_⟩
  rcases a with e | r?
  · cases hr
  · obtain rfl := Except.ok.inj hr
    exact hC.read ha

theorem reportProgress (c : JobContext) {percent : Int} (hK : K (.running percent)) :
    (c.reportProgress percent).Honours C fun _ => True := by
  apply Dialogue.Honours.bind
  apply (hC.load c).mono
  intro a ha
  rcases a with e | _ | r
  · exact trivial
  · exact trivial
  · show Dialogue.Honours _ _ (if r.isTerminal then _ else _)
    cases hopen : r.isTerminal with
    | true => exact trivial
    | false =>
      refine ⟨hC.clock, fun now _ => ?_⟩
      have hmark : r.markRunning percent now = .ok (r.marked now (.running percent)) :=
        JobRecord.mark_of_open hopen (.running percent) now
      simp only [Dialogue.andThen, hmark]
      exact honours_write (hC.update now hopen (ha r rfl) hK)

theorem finish (c : JobContext) {m : Mark} (hK : K m) : (c.finish m).Honours C fun _ => True := by
  apply Dialogue.Honours.bind
  apply (hC.load c).mono
  intro a ha
  rcases a with e | _ | r
  · exact trivial
  · exact ⟨hC.complete c.number, fun _ _ => trivial⟩
  · show Dialogue.Honours _ _ (if r.isTerminal then _ else _)
    cases hopen : r.isTerminal with
    | true => exact ⟨hC.complete c.number, fun _ _ => trivial⟩
    | false =>
      refine ⟨hC.clock, fun now _ => ?_⟩
      simp only [Dialogue.andThen, JobRecord.mark_of_open hopen m now]
      apply Dialogue.Honours.bind
      apply (honours_write (hC.update now hopen (ha r rfl) hK)).mono
      intro b _
      cases b with
      | error e => exact trivial
      | ok _ => exact ⟨hC.complete c.number, fun _ _ => trivial⟩

theorem perform (c : JobContext) (x : WorkStep) (hK : ∀ m, K m) :
    (x.perform c).Honours (TaskStep.contract C) fun _ => True := by
  cases x with
  | progress percent => exact honours_act (hC.reportProgress c (hK _))
  | setResult payload => exact honours_act (hC.finish c (hK _))
  | setFailed message detail => exact honours_act (hC.finish c (hK _))
  | setUnserializable reason => exact trivial
  | awaitSignal => exact ⟨trivial, fun _ _ => trivial⟩
  | sleep ms => exact ⟨trivial, fun _ _ => trivial⟩

theorem performAll (c : JobContext) (ending : WorkEnd) (todo : List WorkStep) (hK : ∀ m, K m) :
    (WorkStep.performAll c ending todo).Honours (TaskStep.contract C) fun _ => True := by
  induction todo with
  | nil => exact trivial
  | cons x xs ih =>
    apply Dialogue.Honours.bind
    apply (hC.perform c x hK).mono
    intro a _
    cases a with
    | ok _ => exact ih
    | error e => exact trivial

theorem settle (m : Manager) (c : JobContext) {ending : WorkEnd} (hcompleted : ∀ n, C.MayAsk (.isCompleted n))
    (huntrack : ∀ k id, C.MayAsk (.untrack k id))
    (hK : ∀ completed mark, Work.outcome completed ending = some mark → K mark) :
    (Work.settle m c ending).Honours C fun _ => True := by
  refine ⟨hcompleted c.number, fun completed _ => ?_⟩
  simp only [Dialogue.andThen]
  cases hout : Work.outcome completed ending with
  | none => exact ⟨huntrack m.number c.job, fun _ _ => trivial⟩
  | some mark =>
    apply Dialogue.Honours.bind
    apply (hC.finish c (hK completed mark hout)).mono
    exact fun _ _ => ⟨huntrack m.number c.job, fun _ _ => trivial⟩

end LetsMark

namespace LetsSweep

variable (hC : C.LetsSweep P K)
include hC

theorem cancel (m : Manager) (id : JobId) (hK : K .cancelled) : (m.cancel id).Honours C fun _ => True := by
  apply Dialogue.Honours.bind
  apply (hC.getStatus id).mono
  intro a ha
  cases a with
  | error e => exact trivial
  | ok r =>
    show Dialogue.Honours _ _ (if r.isTerminal then _ else _)
    cases hopen : r.isTerminal with
    | true => exact trivial
    | false =>
      refine ⟨hC.signal m.number id, fun _ _ => ⟨hC.clock, fun now _ => ?_⟩⟩
      have hmark : r.markCancelled now = .ok (r.marked now .cancelled) := JobRecord.mark_of_open hopen .cancelled now
      simp only [Dialogue.andThen, hmark]
      exact ⟨hC.update now hopen (ha r rfl) hK, fun _ _ => trivial⟩

variable (hK : ∀ message, K (.timedOut message))
include hK

theorem expire (m : Manager) (hr : P r) (report : SweepReport) :
    (Sweep.expire m r report).Honours C fun _ => True := by
  refine ⟨hC.clock, fun now _ => ?_⟩
  have hmark := JobRecord.mark_eq r (.timedOut (Sweep.timeoutMessage r.timeoutSeconds)) now
  change r.markTimedOut _ now = _ at hmark
  cases hopen : r.isTerminal with
  | true =>
    rw [hopen, if_pos rfl] at hmark
    simp only [Dialogue.andThen, hmark]
    exact trivial
  | false =>
    rw [hopen, if_neg Bool.false_ne_true] at hmark
    simp only [Dialogue.andThen, hmark]
    refine ⟨hC.update now hopen hr (hK _), fun a _ => ?_⟩
    rcases a with e | _
    · cases e <;> exact trivial
    · exact ⟨hC.signal m.number _, fun _ _ => trivial⟩

theorem expireAll (m : Manager) {rs : List JobRecord} (hrs : ∀ r ∈ rs, P r) (report : SweepReport) :
    (Sweep.expireAll m rs report).Honours C fun _ => True := by
  induction rs generalizing report with
  | nil => exact trivial
  | cons r rs ih =>
    apply Dialogue.Honours.bind
    apply (hC.expire hK m (hrs r List.mem_cons_self) report).mono
    exact fun next _ => ih (fun x hx => hrs x (List.mem_cons_of_mem _ hx)) next

theorem sweepOnce (m : Manager) (now : Instant) : (m.sweepOnce now).Honours C fun _ => True := by
  refine ⟨hC.findExpired now, fun a ha => ?_⟩
  cases a with
  | error e => exact trivial
  | ok rs =>
    simp only [Dialogue.andThen]
    apply Dialogue.Honours.bind
    exact (hC.expireAll hK m (hC.found ha) _).mono fun _ _ => trivial

end LetsSweep

end Contract

end JobLedger
