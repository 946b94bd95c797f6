import JobLedger.Proofs.Attempts
import JobLedger.Proofs.RecordContracts

/-!
# What operations keep of records

The operations write nothing but open records that they read and marked. So a property of records that marks do not
touch is one that they keep, as long as all that they read has it. A task reads and writes between two of its waits
only, and relies on nothing that it read before a wait. Main statements: `keeps_action` and `Task.keeps_work`.
-/
namespace JobLedger

/-- A property that an open record does not lose when it is marked. -/
def JobRecord.IsKept (P : JobRecord → Prop) : Prop :=
  ∀ r now m, r.isTerminal = false → P r → P (r.marked now m)

/-- The contract to write only records with a property as long as all that are read to be marked have it. -/
def Request.keeping (P : JobRecord → Prop) : Contract Request.interface where
  MayAsk
    | .store (.update r) => P r
    | _ => True
  Answers
    | .store (.get _), a => ∀ r, a = .ok (some r) → P r
    | .store (.findExpired _), a => ∀ rs, a = .ok rs → ∀ r ∈ rs, P r
    | _, _ => True

section
variable {P : JobRecord → Prop}

theorem letsSweep_keeping (hP : JobRecord.IsKept P) : (Request.keeping P).LetsSweep P fun _ => True := by
  constructor
  case toLetsMark =>
    exact ⟨trivial, fun _ => trivial, fun ha => ha _ rfl, fun now hopen hr _ => hP _ now _ hopen hr, fun _ => trivial⟩
  case findExpired => exact fun _ => trivial
  case found => exact fun ha => ha _ rfl
  case signal => exact fun _ _ => trivial

private theorem keeps_settle (hP : JobRecord.IsKept P) (m : Manager) (c : JobContext) (ending : WorkEnd) :
    (Work.settle m c ending).Honours (Request.keeping P) fun _ => True :=
  (letsSweep_keeping hP).settle m c (fun _ => trivial) (fun _ _ => trivial) fun _ _ _ => trivial

/-- Every operation that ends without waiting writes only what it read with a mark. -/
theorem keeps_action (hP : JobRecord.IsKept P) {o : Operation} {a : Action o.Result} (ha : o.action? = some a) :
    a.Honours (Request.keeping P) fun _ => True := by
  have hC := letsSweep_keeping hP
  cases o <;> cases ha
  case create m id request =>
    refine ⟨trivial, fun now _ => ⟨trivial, fun b _ => ?_⟩⟩
    cases b with
    | error e => exact trivial
    | ok r => exact ⟨trivial, fun _ _ => trivial⟩
  case getStatus id => exact (hC.getStatus id).mono fun _ _ => trivial
  case statusView m id => exact hC.statusView m id
  case list query => exact ⟨trivial, fun _ _ => trivial⟩
  case cancel m id => exact hC.cancel m id trivial
  case completeTracking m id => exact ⟨trivial, fun _ _ => trivial⟩
  case sweep m now => exact hC.sweepOnce (fun _ => trivial) m now
  case reportProgress c percent => exact hC.reportProgress c trivial
  case setResult c payload => exact hC.finish c trivial
  case setFailed c message detail => exact hC.finish c trivial
  case setUnserializable c reason => exact trivial

end

namespace Task

/-- Up to its next wait the task writes only records with a property if all that it reads to mark have it. After a
wait this holds of every property that is kept. -/
def Keeps {α : Type} : Task α → (JobRecord → Prop) → Prop
  | .done _, _ => True
  | .ask (.request q) k, P => (Request.keeping P).MayAsk q ∧ ∀ a, (Request.keeping P).Answers q a → Keeps (k a) P
  | .ask (.wait _) k, _ => ∀ P, JobRecord.IsKept P → Keeps (k ()) P

variable {α β : Type} {P : JobRecord → Prop}

private theorem keeps_act {a : Action α} {Q : α → Prop} (h : a.Honours (Request.keeping P) Q) : Keeps (act a) P := by
  induction a with
  | done a => exact trivial
  | ask q k ih => exact ⟨h.1, fun a ha => ih a (h.2 a ha)⟩

private theorem keeps_bind {d : Task α} {f : α → Task β} (hP : JobRecord.IsKept P) (hd : Keeps d P)
    (hf : ∀ a P, JobRecord.IsKept P → Keeps (f a) P) : Keeps (d >>= f) P := by
  induction d generalizing P with
  | done a => exact hf a P hP
  | ask q k ih =>
    cases q with
    | request q => exact ⟨hd.1, fun a ha => ih a hP (hd.2 a ha)⟩
    | wait w => exact fun P' hP' => ih () hP' (hd P' hP')

theorem keeps_perform (hP : JobRecord.IsKept P) (c : JobContext) (x : WorkStep) : Keeps (x.perform c) P := by
  cases x with
  | progress percent => exact keeps_act ((letsSweep_keeping hP).reportProgress c trivial)
  | setResult payload => exact keeps_act ((letsSweep_keeping hP).finish c trivial)
  | setFailed message detail => exact keeps_act ((letsSweep_keeping hP).finish c trivial)
  | setUnserializable reason => exact trivial
  | awaitSignal => exact fun _ _ => trivial
  | sleep ms => exact fun _ _ => trivial

private theorem keeps_performAll (hP : JobRecord.IsKept P) (c : JobContext) (ending : WorkEnd) (todo : List WorkStep) :
    Keeps (WorkStep.performAll c ending todo) P := by
  induction todo generalizing P with
  | nil => exact trivial
  | cons x xs ih =>
    refine keeps_bind hP (keeps_perform hP c x) fun a P' hP' => ?_
    cases a with
    | error e => exact trivial
    | ok _ => exact ih hP'

/-- The task of a job keeps what is kept, whatever the work is. -/
theorem keeps_work (m : Manager) (c : JobContext) (work : Work) : Keeps (work.task m c) P := by
  cases work with
  | unfounded => exact trivial
  | steps todo ending =>
    intro P' hP'
    show Keeps (WorkStep.performAll c ending todo >>= _) P'
    refine keeps_bind hP' (keeps_performAll hP' c ending todo) fun last _ _ => ?_
    exact fun _ hP'' => keeps_act (keeps_settle hP'' m c last)

end Task

end JobLedger
