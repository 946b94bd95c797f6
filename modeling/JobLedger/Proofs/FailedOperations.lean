import JobLedger.Proofs.Attempts
import JobLedger.Proofs.RecordMarks
import JobLedger.Proofs.Signals

/-!
# Operations that fail

An operation that ends in an error, be it one of its own or one of the store, has changed nothing: no record, no table
of tracked jobs and no note of an outcome. Only a cancellation has fired the signal of the open job before it tries to
write the record.
-/
namespace JobLedger

/-- The operation ended in an error. -/
def Operation.Fails : (o : Operation) → o.Result → Prop
  | .create _ _ _, a => ∃ e, a = .error e
  | .getStatus _, a => ∃ e, a = .error e
  | .statusView _ _, a => ∃ e, a = .error e
  | .list _, a => ∃ e, a = .error e
  | .cancel _ _, a => ∃ e, a = .error e
  | .sweep _ _, a => ∃ e, a = .error e
  | .reportProgress _ _, a => ∃ e, a = .error e
  | .setResult _ _, a => ∃ e, a = .error e
  | .setFailed _ _ _, a => ∃ e, a = .error e
  | .setUnserializable _ _, a => ∃ e, a = .error e
  | .completeTracking _ _, _ | .spawn _ _ _, _ => False

/-- A call that the store answers with an error has changed nothing. -/
private theorem Memory.perform_error {now : Instant} {c : StoreCall} {x y : Memory} {e : StoreError}
    (h : Memory.store.perform now c x = (.error e, y)) : y = x := by
  cases c with
  | create r =>
    replace h : Memory.create r x = (.error e, y) := h
    rw [Memory.create] at h
    split at h <;> cases h
    rfl
  | update r =>
    replace h : Memory.update now r x = (.error e, y) := h
    rw [Memory.update] at h
    split at h
    · cases h
      rfl
    · split at h <;> cases h
      rfl
  | get id => cases h
  | findExpired t => cases h
  | list q => cases h

namespace Host

variable {α ε : Type} {h t : Host Memory} {Q : α → Host Memory → Prop}

theorem answer_error {c : StoreCall} {e : StoreError} {t' : Host Memory}
    (ha : t.answer Memory.store (.store c) = (.error e, t')) : t' = t := by
  cases hp : Memory.store.perform t.clock c t.store with
  | mk a x =>
    rw [answer_call hp] at ha
    obtain ⟨rfl, rfl⟩ := Prod.mk.inj ha
    rw [Memory.perform_error hp]

/-- The outcome of a call: what the store answers, or an error without any effect. -/
private theorem secures_memory {c : StoreCall} {k : c.Answer → Action α}
    (hok : ∀ t b t', h.Passes t → t.answer Memory.store (.store c) = (.ok b, t') →
      (k (.ok b)).Secures (unsteady Memory.store) Q t')
    (herror : ∀ t e, h.Passes t → (k (.error e)).Secures (unsteady Memory.store) Q t) :
    (Dialogue.ask (.store c) k : Action α).Secures (unsteady Memory.store) Q h := by
  refine secures_call (fun t a t' ht ha => ?_) herror
  cases a with
  | ok b => exact hok t b t' ht ha
  | error e =>
    obtain rfl := answer_error ha
    exact herror t' e ht

/-- A look at a record. -/
private theorem secures_lookup {id : JobId} {k : StoreCall.Answer (.get id) → Action α}
    (hok : ∀ t, h.Passes t → (k (.ok (h.store.records.get? id))).Secures (unsteady Memory.store) Q t)
    (herror : ∀ t e, h.Passes t → (k (.error e)).Secures (unsteady Memory.store) Q t) :
    (Dialogue.ask (.store (.get id)) k : Action α).Secures (unsteady Memory.store) Q h := by
  refine secures_memory (fun t b t' ht ha => ?_) herror
  obtain ⟨hb, rfl⟩ := Prod.mk.inj ha
  obtain rfl := Except.ok.inj hb
  obtain ⟨now, rfl⟩ := ht
  exact hok _ ⟨now, rfl⟩

theorem secures_clock {k : Instant → Action α}
    (hk : ∀ now t, h.Passes t → (k now).Secures (unsteady Memory.store) Q t) :
    (Dialogue.ask .clock k : Action α).Secures (unsteady Memory.store) Q h := by
  refine secures_local (q := .clock) trivial fun t now t' ht ha => ?_
  obtain ⟨-, rfl⟩ := Prod.mk.inj ha
  exact hk now t ht

/-- If the result is an error, then time has passed and nothing else has happened. -/
def HarmlessError (h : Host Memory) (a : Except ε α) (t : Host Memory) : Prop := (∃ e, a = .error e) → h.Passes t

private theorem secures_ok {a : α} (t : Host Memory) :
    (Dialogue.done (.ok a) : Action (Except ε α)).Secures (unsteady Memory.store) (HarmlessError h) t :=
  secures_result fun _ _ ⟨_, he⟩ => by cases he

private theorem secures_passed (ht : h.Passes t) (a : Except ε α) :
    (Dialogue.done a : Action (Except ε α)).Secures (unsteady Memory.store) (HarmlessError h) t :=
  secures_result fun _ hu _ => ht.trans hu

theorem getStatus_secures (id : JobId) (h : Host Memory) : (Manager.getStatus id).Secures (unsteady Memory.store)
    (fun a t => h.Passes t ∧ ∀ r, a = .ok r → h.store.records.get? id = some r) h := by
  apply secures_lookup
  case hok =>
    intro t ht
    cases hr : h.store.records.get? id with
    | none => exact secures_result fun u hu => ⟨ht.trans hu, fun r hr => by cases hr⟩
    | some r => exact secures_result fun u hu => ⟨ht.trans hu, fun r' hr' => by cases hr'; rfl⟩
  case herror =>
    intro t e ht
    exact secures_result fun u hu => ⟨ht.trans hu, fun r hr => by cases hr⟩

private theorem statusView_secures (m : Manager) (id : JobId) (h : Host Memory) :
    (m.statusView id).Secures (unsteady Memory.store) (HarmlessError h) h := by
  apply Dialogue.Secures.bind trivial
  apply (getStatus_secures id h).mono
  intro a t _ ht
  exact secures_passed ht.1 _

theorem create_secures (m : Manager) (id : JobId) (request : NewJob) (h : Host Memory) :
    (m.create id request).Secures (unsteady Memory.store) (HarmlessError h) h := by
  apply secures_clock
  intro now t ht
  apply secures_memory
  case hok =>
    intro u r u' hu ha
    apply secures_local
    case hq => exact trivial
    case hk => exact fun _ n v _ _ => secures_ok v
  case herror => exact fun u e hu => secures_passed (ht.trans hu) _

private theorem list_secures (query : ListQuery) (h : Host Memory) :
    (Manager.list query).Secures (unsteady Memory.store) (HarmlessError h) h := by
  apply secures_memory
  case hok => exact fun _ rs t _ _ => secures_ok t
  case herror => exact fun t e ht => secures_passed ht _

theorem write_secures (r : JobRecord) (ht : h.Passes t) :
    (JobContext.write r).Secures (unsteady Memory.store) (HarmlessError h) t := by
  apply secures_memory
  case hok => exact fun _ _ u _ _ => secures_ok u
  case herror =>
    intro u e hu
    cases e <;> exact secures_passed (ht.trans hu) _

theorem reportProgress_secures (c : JobContext) (percent : Int) (h : Host Memory) :
    (c.reportProgress percent).Secures (unsteady Memory.store) (HarmlessError h) h := by
  apply secures_lookup
  case hok =>
    intro t ht
    cases h.store.records.get? c.job with
    | none => exact secures_ok t
    | some r =>
      show Dialogue.Secures _ _ (if r.isTerminal then _ else _) t
      split
      · exact secures_ok t
      · apply secures_clock
        intro now u hu
        simp only [Dialogue.andThen]
        cases r.markRunning percent now with
        | error e => exact secures_passed (ht.trans hu) _
        | ok next => exact write_secures next (ht.trans hu)
  case herror => exact fun t e ht => secures_passed ht _

private theorem complete_secures (n : Nat) (t : Host Memory) :
    (do Action.complete n; return .ok () : Action (Except ε Unit)).Secures (unsteady Memory.store) (HarmlessError h)
      t := by
  apply secures_local
  case hq => exact trivial
  case hk => exact fun _ _ u _ _ => secures_ok u

theorem finish_secures (c : JobContext) (m : JobRecord.Mark) (h : Host Memory) :
    (c.finish m).Secures (unsteady Memory.store) (HarmlessError h) h := by
  apply secures_lookup
  case hok =>
    intro t ht
    cases h.store.records.get? c.job with
    | none => exact complete_secures c.number t
    | some r =>
      show Dialogue.Secures _ _ (if r.isTerminal then _ else _) t
      split
      · exact complete_secures c.number t
      · apply secures_clock
        intro now u hu
        simp only [Dialogue.andThen]
        cases r.mark m now with
        | error e => exact secures_passed (ht.trans hu) _
        | ok next =>
          apply Dialogue.Secures.bind trivial
          apply (write_secures next (ht.trans hu)).mono
          intro a v _ hv
          cases a with
          | error e => exact secures_passed (hv ⟨e, rfl⟩) _
          | ok _ => exact complete_secures c.number v
  case herror => exact fun t e ht => secures_passed ht _

/-- A sweep that found the expired jobs does not end in an error, whatever becomes of them. -/
theorem sweepOnce_secures (m : Manager) (now : Instant) (h : Host Memory) :
    (m.sweepOnce now).Secures (unsteady Memory.store) (HarmlessError h) h := by
  apply secures_memory
  case hok =>
    intro t rs u ht ha
    apply Dialogue.Secures.bind (d := Sweep.expireAll m rs ⟨rs.length, 0, 0, 0⟩) trivial
    apply (secures_true _ u).mono
    exact fun report v _ _ => secures_ok v
  case herror => exact fun t e ht => secures_passed ht _

/-- Time has passed, and at most the signal of an open job that a manager tracks has fired. -/
def SignalsAtMost (m : Manager) (id : JobId) (h t : Host Memory) : Prop :=
  h.Passes t ∨ ∃ n r, h.tracked.get? (m.number, id) = some n ∧ h.store.records.get? id = some r ∧
    r.isTerminal = false ∧ (h.fire n).Passes t

theorem SignalsAtMost.passes {m : Manager} {id : JobId} {u : Host Memory} (ht : h.SignalsAtMost m id t)
    (hu : t.Passes u) : h.SignalsAtMost m id u := by
  rcases ht with ht | ⟨n, r, hn, hr, hopen, ht⟩
  · exact .inl (ht.trans hu)
  · exact .inr ⟨n, r, hn, hr, hopen, ht.trans hu⟩

private theorem signalsAtMost_of_answer {m : Manager} {id : JobId} {r : JobRecord} {found : Bool} {u : Host Memory}
    (hr : h.store.records.get? id = some r) (hopen : r.isTerminal = false) (ht : h.Passes t)
    (ha : t.answer Memory.store (.signal m.number id) = (found, u)) : h.SignalsAtMost m id u := by
  obtain ⟨now, rfl⟩ := ht
  simp only [answer] at ha
  split at ha
  · rename_i n hn
    obtain ⟨-, rfl⟩ := Prod.mk.inj ha
    refine .inr ⟨n, r, hn, hr, hopen, now, ?_⟩
    rw [fire, fire]
    show (if h.isCancelled n then _ else _) = _
    split <;> rfl
  · obtain ⟨-, rfl⟩ := Prod.mk.inj ha
    exact .inl ⟨now, rfl⟩

/-- A cancellation that fails before it has seen an open record has done nothing, and afterwards it has at most fired
the signal of the job. -/
theorem cancel_secures (m : Manager) (id : JobId) (h : Host Memory) : (m.cancel id).Secures (unsteady Memory.store)
    (fun a t => ∀ e, a = .error e → h.SignalsAtMost m id t) h := by
  apply Dialogue.Secures.bind trivial
  apply (getStatus_secures id h).mono
  rintro a t _ ⟨ht, hstored⟩
  cases a with
  | error e => exact secures_result fun u hu _ _ => .inl (ht.trans hu)
  | ok r =>
    show Dialogue.Secures _ _ (if r.isTerminal then _ else _) t
    cases hopen : r.isTerminal with
    | true => exact secures_result fun u hu _ _ => .inl (ht.trans hu)
    | false =>
      apply secures_local
      case hq => exact trivial
      case hk =>
        intro u found v hu ha
        have hv := signalsAtMost_of_answer (hstored r rfl) hopen (ht.trans hu) ha
        apply secures_clock
        intro now w hw
        simp only [Dialogue.andThen]
        cases r.markCancelled now with
        | error e => exact secures_result fun x hx _ _ => hv.passes (hw.trans hx)
        | ok next =>
          apply secures_memory
          case hok => exact fun _ _ _ _ _ => secures_result fun _ _ e he => by cases he
          case herror =>
            exact fun x e hx => secures_result fun y hy _ _ => hv.passes ((hw.trans hx).trans hy)

end Host

/-- When any other operation than a cancellation fails, nothing has happened. -/
private theorem Operation.errors_are_harmless {o : Operation} {a : Action o.Result} (ho : o.action? = some a)
    (hc : ∀ m id, o ≠ .cancel m id) (h : Host Memory) :
    a.Secures (Host.unsteady Memory.store) (fun b t => o.Fails b → h.Passes t) h := by
  cases o with
  | create m id request =>
    cases ho
    exact Host.create_secures m id request h
  | getStatus id =>
    cases ho
    exact (Host.getStatus_secures id h).mono fun _ _ _ ht _ => ht.1
  | statusView m id =>
    cases ho
    exact Host.statusView_secures m id h
  | list query =>
    cases ho
    exact Host.list_secures query h
  | cancel m id => exact absurd rfl (hc m id)
  | completeTracking m id =>
    cases ho
    exact (Host.secures_true _ h).mono fun _ _ _ _ hfail => hfail.elim
  | sweep m now =>
    cases ho
    exact Host.sweepOnce_secures m now h
  | reportProgress c percent =>
    cases ho
    exact Host.reportProgress_secures c percent h
  | setResult c payload =>
    cases ho
    exact Host.finish_secures c (.succeeded payload) h
  | setFailed c message detail =>
    cases ho
    exact Host.finish_secures c (.failed message detail) h
  | setUnserializable c reason =>
    cases ho
    exact Host.secures_passed (.refl h) _
  | spawn m c work => cases ho

/-- Whatever calls of the store fail, an operation that ends in an error leaves the records, the tables of tracked jobs
and the notes of outcomes as they were. No signal has fired either, unless a cancellation failed: it may have fired that
of an open job which its manager tracks. -/
theorem failed_operation_changes_nothing {o : Operation} {a : Action o.Result} (ho : o.action? = some a)
    {h h' : Host Memory} {b : o.Result} (hrun : h.Attempts Memory.store a b h') (hfail : o.Fails b) :
    h'.store = h.store ∧ h'.tracked = h.tracked ∧ h'.contexts = h.contexts ∧ h'.completed = h.completed ∧
      (h'.fired = h.fired ∨ ∃ m id n r, o = .cancel m id ∧ h.tracked.get? (m.number, id) = some n ∧
        h.store.records.get? id = some r ∧ r.isTerminal = false ∧ h'.fired = (h.fire n).fired) := by
  by_cases hc : ∃ m id, o = .cancel m id
  case neg =>
    obtain ⟨now, rfl⟩ := hrun.of_secures (Operation.errors_are_harmless ho (fun m id heq => hc ⟨m, id, heq⟩) h) hfail
    exact ⟨rfl, rfl, rfl, rfl, .inl rfl⟩
  case pos =>
    obtain ⟨m, id, rfl⟩ := hc
    cases ho
    obtain ⟨e, he⟩ := hfail
    rcases hrun.of_secures (Host.cancel_secures m id h) e he with ⟨now, rfl⟩ | ⟨n, r, hn, hr, hopen, now, rfl⟩
    · exact ⟨rfl, rfl, rfl, rfl, .inl rfl⟩
    · rw [Host.fire_eq]
      exact ⟨rfl, rfl, rfl, rfl, .inr ⟨m, id, n, r, rfl, hn, hr, hopen, rfl⟩⟩

/-- A cancellation whose last call, the replacement of the record, fails. -/
def failedCancellation : List Move :=
  [.begin (.cancel World.sampleManager ⟨1⟩), .step 1, .step 1, .step 1, .fail 1 (.unavailable .keyValue)]

/-- The store does not take the cancellation of a tracked job: its signal has fired all the same, and that is all. The
cancellation of an unknown job fails by itself, and then nothing has fired. -/
theorem failed_cancellation_has_fired :
    World.sample.host.Attempts Memory.store (World.sampleManager.cancel ⟨1⟩) (.error (.storeUnavailable .keyValue))
        (World.sample.run failedCancellation).host ∧
      (World.sample.run failedCancellation).host.fired = [0] ∧
      (World.sample.run failedCancellation).host.store = World.sample.host.store ∧
      (World.sample.run failedCancellation).host.tracked = World.sample.host.tracked ∧
      (World.sample.run failedCancellation).host.completed = World.sample.host.completed ∧
      (World.sample.host.perform Memory.store (World.sampleManager.cancel ⟨2⟩)).1 = .error (.notFound ⟨2⟩) ∧
      (World.sample.host.perform Memory.store (World.sampleManager.cancel ⟨2⟩)).2.fired = [] := by
  have hrun : World.sample.host.Attempts Memory.store (World.sampleManager.cancel ⟨1⟩)
      (.error (.storeUnavailable .keyValue)) (World.sample.run failedCancellation).host :=
    World.attempts_begin (o := .cancel World.sampleManager ⟨1⟩) rfl rfl (by decide) rfl
  obtain ⟨hstore, htracked, -, hcompleted, -⟩ := failed_operation_changes_nothing
    (o := .cancel World.sampleManager ⟨1⟩) rfl hrun ⟨_, rfl⟩
  have hunknown : (World.sample.host.perform Memory.store (World.sampleManager.cancel ⟨2⟩)).1 =
      .error (.notFound ⟨2⟩) := rfl
  obtain ⟨-, -, -, -, hfired | ⟨_, _, _, r, heq, -, hr, -⟩⟩ := failed_operation_changes_nothing
    (o := .cancel World.sampleManager ⟨2⟩) rfl (Host.attempts_perform _ _ _) ⟨_, hunknown⟩
  · exact ⟨hrun, rfl, hstore, htracked, hcompleted, hunknown, hfired⟩
  · cases heq
    cases hr

end JobLedger
