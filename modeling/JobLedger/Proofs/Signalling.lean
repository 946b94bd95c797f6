import JobLedger.Proofs.Conduct
import JobLedger.Proofs.RecordContracts

/-!
# Who signals

A context is made by a creation for the manager that it belongs to. A signal is fired by a cancellation, which
fires it before it writes, or by a sweep, which fires it after it wrote: so a sweep owes a signal at most for
the record that it wrote last.
-/
namespace JobLedger

open JobRecord (Mark)

namespace Request

/-- A request that makes no context and fires no signal, and replaces records only by such in some states. -/
def IsPlain (P : JobState → Prop) : Request → Prop
  | .track _ _ | .signal _ _ => False
  | .store (.update r) => P r.state
  | _ => True

/-- The contract of operations that make no context and fire no signal. -/
def plain (P : JobState → Prop) : Contract interface := ⟨IsPlain P, fun _ _ => True⟩

end Request

section
variable {P : JobState → Prop}

private theorem letsMark_plain (P : JobState → Prop) :
    (Request.plain P).LetsMark (fun _ => True) fun m => P m.state := by
  refine ⟨trivial, fun _ => trivial, fun _ => trivial, fun {r m} now _ _ hm => ?_, fun _ => trivial⟩
  show P (r.marked now m).state
  rwa [JobRecord.marked_state]

theorem plain_settle (m : Manager) (c : JobContext) {ending : WorkEnd} (hP : P ending.mark.state) :
    (Work.settle m c ending).Honours (Request.plain P) fun _ => True := by
  refine (letsMark_plain P).settle m c (fun _ => trivial) (fun _ _ => trivial) fun completed mark hout => ?_
  obtain rfl := Work.outcome_eq_some hout
  exact hP

private theorem plain_task (hP : ∀ state, P state) (m : Manager) (c : JobContext) (work : Work) :
    (work.task m c).Honours (TaskStep.contract (Request.plain P)) fun _ => True := by
  cases work with
  | unfounded => exact trivial
  | steps todo ending =>
    refine ⟨trivial, fun _ _ => ?_⟩
    simp only [Dialogue.andThen]
    apply Dialogue.Honours.bind
    apply ((letsMark_plain P).performAll c ending todo fun _ => hP _).mono
    exact fun last _ => ⟨trivial, fun _ _ => honours_act (plain_settle m c (hP _))⟩

end

namespace Operation

/-- Only creations, cancellations and sweeps have to do with contexts and signals of others. -/
def signals : Operation → Bool
  | .create _ _ _ | .cancel _ _ | .sweep _ _ => true
  | _ => false

private theorem plain_of_signals {P : JobState → Prop} (hP : ∀ state, P state) {o : Operation}
    (ho : o.signals = false) :
    o.task.Honours (TaskStep.contract (Request.plain P)) fun _ => True := by
  cases o with
  | create m id request => cases ho
  | cancel m id => cases ho
  | sweep m now => cases ho
  | getStatus id => exact honours_act (((letsMark_plain P).getStatus id).mono fun _ _ => trivial)
  | statusView m id => exact honours_act ((letsMark_plain P).statusView m id)
  | list query => exact honours_act ⟨trivial, fun _ _ => trivial⟩
  | completeTracking m id => exact honours_act ⟨trivial, fun _ _ => trivial⟩
  | reportProgress c percent => exact honours_act ((letsMark_plain P).reportProgress c (hP _))
  | setResult c payload => exact honours_act ((letsMark_plain P).finish c (hP _))
  | setFailed c message detail => exact honours_act ((letsMark_plain P).finish c (hP _))
  | setUnserializable c reason => exact trivial
  | spawn m c work => exact plain_task hP m c work

end Operation

/-- The manager and the job of a signal that a request fired. -/
def Event.fired? : Event → Option (Nat × JobId)
  | ⟨_, _, .signal m id, true⟩ => some (m, id)
  | _ => none

/-- The signal of a job was searched for, and fired if it was there. -/
def HasSignalled (k : Nat) (id : JobId) (past : List Event) : Prop := ∃ e ∈ past, e.request = .signal k id

/-- The job was timed out. -/
def HasTimedOut (id : JobId) (past : List Event) : Prop :=
  ∃ e ∈ past, ∃ r, e.ending? = some r ∧ r.id = id ∧ r.state = .timedOut

/-- The operation fires signals of the job on the manager: a cancellation of the job, or a sweep that has timed
it out. -/
def Operation.Fires (k : Nat) (id : JobId) (past : List Event) : Operation → Prop
  | .cancel m job => m.number = k ∧ job = id
  | .sweep m _ => m.number = k ∧ HasTimedOut id past
  | _ => False

theorem HasSignalled.append {k : Nat} {id : JobId} {past : List Event} (h : HasSignalled k id past)
    (later : List Event) : HasSignalled k id (past ++ later) := by
  obtain ⟨e, he, hq⟩ := h
  exact ⟨e, List.mem_append_left _ he, hq⟩

theorem Operation.Fires.append {k : Nat} {id : JobId} {past : List Event} {o : Operation} (h : o.Fires k id past)
    (later : List Event) : o.Fires k id (past ++ later) := by
  cases o with
  | cancel m job => exact h
  | sweep m now =>
    obtain ⟨hm, e, he, hr⟩ := h
    exact ⟨hm, e, List.mem_append_left _ he, hr⟩
  | _ => exact h.elim

private theorem hasSignalled_append_singleton (k : Nat) (id : JobId) (past : List Event) (i : Nat) (o : Operation)
    (b : Bool) : HasSignalled k id (past ++ [⟨i, o, .signal k id, b⟩]) :=
  ⟨_, List.mem_append_right _ (List.mem_singleton_self _), rfl⟩

/-- For every job that was ended the signal was searched for. -/
def AllSignalled (k : Nat) (past : List Event) : Prop :=
  ∀ e ∈ past, ∀ r, e.ending? = some r → HasSignalled k r.id past

private theorem AllSignalled.append_quiet {k : Nat} {past : List Event} (h : AllSignalled k past) {e : Event}
    (he : e.ending? = none) : AllSignalled k (past ++ [e]) := by
  intro d hd r hr
  rcases List.mem_append.mp hd with hd | hd
  · exact (h d hd r hr).append _
  · rw [List.mem_singleton.mp hd, he] at hr
    cases hr

private theorem AllSignalled.signalled {k : Nat} {past : List Event} (h : AllSignalled k past) {e : Event}
    {r : JobRecord}
    (he : e.ending? = some r) {id : JobId} (hid : r.id = id) {i : Nat} {o : Operation} (b : Bool) :
    AllSignalled k (past ++ [e] ++ [⟨i, o, .signal k id, b⟩]) := by
  subst hid
  intro d hd x hx
  rcases List.mem_append.mp hd with hd | hd
  · rcases List.mem_append.mp hd with hd | hd
    · exact ((h d hd x hx).append _).append _
    · rw [List.mem_singleton.mp hd, he] at hx
      obtain rfl := Option.some.inj hx
      exact hasSignalled_append_singleton k r.id _ i o b
  · rw [List.mem_singleton.mp hd] at hx
    cases hx

private theorem allSignalled_nil (k : Nat) : AllSignalled k [] := fun _ he => absurd he List.not_mem_nil

/-- What the operations may ask that has to do with contexts and signals. -/
structure MaySignal (o : Operation) (q : Request) (past : List Event) : Prop where
  tracks : ∀ k id, q = .track k id → ∃ m job request, o = .create m job request ∧ m.number = k
  fires : ∀ k id, q = .signal k id → o.Fires k id past
  /-- A sweep searches for the signal of the job that it timed out before it asks anything else. -/
  sweeps : ∀ m now, o = .sweep m now → ∀ e ∈ past, ∀ r, e.ending? = some r →
    HasSignalled m.number r.id past ∨ q = .signal m.number r.id

/-- What the operations have done about contexts and signals when they are answered. -/
def HasDealt : (o : Operation) → o.Result → List Event → Prop
  | .create m _ _, .ok (_, c), past => ∃ e ∈ past, e.opened? = some (m.number, c)
  | .cancel m id, .ok _, past => HasSignalled m.number id past
  | .cancel _ _, .error e, past => (∀ d ∈ past, d.fired? = none) ∨ (∃ job state, e = .conflict job state) ∨
    ∃ f : StoreFailure, e = f.error.toJobError
  | .sweep m _, _, past => AllSignalled m.number past
  | _, _, _ => True

private theorem hasDealt_of_signals {o : Operation} (ho : o.signals = false) (a : o.Result) (past : List Event) :
    HasDealt o a past := by
  cases o with
  | create m id request => cases ho
  | cancel m id => cases ho
  | sweep m now => cases ho
  | _ => exact trivial

/-- How the operations deal with contexts and signals. -/
def signalling : Conduct := ⟨MaySignal, HasDealt⟩

section
variable {i : Nat} {o : Operation} {past : List Event}

private theorem MaySignal.of_plain {q : Request} (hq : q.IsPlain fun _ => True)
    (hsweep : ∀ m now, o = .sweep m now → AllSignalled m.number past) : MaySignal o q past := by
  constructor
  case tracks =>
    rintro k id rfl
    exact hq.elim
  case fires =>
    rintro k id rfl
    exact hq.elim
  case sweeps => exact fun m now ho e he r hr => .inl (hsweep m now ho e he r hr)

private theorem AllSignalled.maySignal {m : Manager} {now : Instant} {q : Request} (hq : q.IsPlain fun _ => True)
    (h : AllSignalled m.number past) : MaySignal (.sweep m now) q past := by
  refine MaySignal.of_plain hq ?_
  rintro _ _ ⟨⟩
  exact h

theorem MaySignal.create (m : Manager) (id job : JobId) (request : NewJob) (past : List Event) :
    MaySignal (.create m id request) (.track m.number job) past := by
  constructor
  case tracks =>
    rintro k job' ⟨⟩
    exact ⟨m, id, request, rfl, rfl⟩
  case fires => exact fun _ _ h => by cases h
  case sweeps => exact fun _ _ h => by cases h

theorem MaySignal.cancel (m : Manager) (id : JobId) (past : List Event) :
    MaySignal (.cancel m id) (.signal m.number id) past := by
  constructor
  case tracks => exact fun _ _ h => by cases h
  case fires =>
    rintro k job ⟨⟩
    exact ⟨rfl, rfl⟩
  case sweeps => exact fun _ _ h => by cases h

theorem MaySignal.sweep {m : Manager} {r : JobRecord} {e : Event} {id : JobId} (now : Instant)
    (h : AllSignalled m.number past) (he : e.ending? = some r) (hid : r.id = id) (hr : r.state = .timedOut) :
    MaySignal (.sweep m now) (.signal m.number id) (past ++ [e]) := by
  subst hid
  constructor
  case tracks => exact fun _ _ h => by cases h
  case fires =>
    rintro k job ⟨⟩
    exact ⟨rfl, e, List.mem_append_right _ (List.mem_singleton_self _), r, he, rfl, hr⟩
  case sweeps =>
    rintro _ _ ⟨⟩ d hd x hx
    rcases List.mem_append.mp hd with hd | hd
    · exact .inl ((h d hd x hx).append _)
    · rw [List.mem_singleton.mp hd, he] at hx
      obtain rfl := Option.some.inj hx
      exact .inr rfl

private theorem signalling_create (m : Manager) (id : JobId) (request : NewJob) :
    (m.create id request).Secures (signalling.requests i (.create m id request))
      (HasDealt (.create m id request)) past := by
  have hplain : ∀ {q : Request} {past}, q.IsPlain (fun _ => True) → MaySignal (.create m id request) q past :=
    fun hq => .of_plain hq fun _ _ h => by cases h
  refine Conduct.secures_ask (hplain trivial) ?_
  intro now _
  refine Conduct.secures_ask (hplain trivial) ?_
  intro a _
  cases a with
  | error e => exact Conduct.secures_done trivial
  | ok r =>
    apply Conduct.secures_ask (MaySignal.create m id r.id request _)
    intro n _
    exact Conduct.secures_done ⟨_, List.mem_append_right _ (List.mem_singleton_self _), rfl⟩

private theorem signalling_cancel (m : Manager) (id : JobId) :
    (m.cancel id).Secures (signalling.requests i (.cancel m id)) (HasDealt (.cancel m id)) [] := by
  have hplain : ∀ {q : Request} {past}, q.IsPlain (fun _ => True) → MaySignal (.cancel m id) q past :=
    fun hq => .of_plain hq fun _ _ h => by cases h
  refine Conduct.secures_ask (hplain trivial) ?_
  intro a _
  have hquiet : ∀ d ∈ ([⟨i, .cancel m id, .store (.get id), a⟩] : List Event), d.fired? = none := by
    intro d hd
    rw [List.mem_singleton.mp hd]
    rfl
  rcases a with e | _ | r
  · exact Conduct.secures_done (.inl hquiet)
  · exact Conduct.secures_done (.inl hquiet)
  · show Dialogue.Secures _ _ (if r.isTerminal then _ else _) _
    cases hopen : r.isTerminal with
    | true => exact Conduct.secures_done (.inl hquiet)
    | false =>
      apply Conduct.secures_ask (MaySignal.cancel m id _)
      intro b _
      have hsignalled := hasSignalled_append_singleton m.number id
        [⟨i, .cancel m id, .store (.get id), .ok (some r)⟩] i (.cancel m id) b
      refine Conduct.secures_ask (hplain trivial) ?_
      intro now _
      have hmark : r.markCancelled now = .ok (r.marked now .cancelled) := JobRecord.mark_of_open hopen .cancelled now
      simp only [Dialogue.andThen, hmark]
      refine Conduct.secures_ask (hplain trivial) ?_
      rintro _ (⟨now', rfl⟩ | ⟨f, rfl⟩ | ⟨state, rfl⟩)
      · exact Conduct.secures_done ((hsignalled.append _).append _)
      · exact Conduct.secures_done (.inr (.inr ⟨f, rfl⟩))
      · exact Conduct.secures_done (.inr (.inl ⟨_, state, rfl⟩))

private theorem signalling_expire (m : Manager) (now : Instant) (r : JobRecord) (report : SweepReport)
    (h : AllSignalled m.number past) : (Sweep.expire m r report).Secures (signalling.requests i (.sweep m now))
      (fun _ later => AllSignalled m.number later) past := by
  let mark : Mark := .timedOut (Sweep.timeoutMessage r.timeoutSeconds)
  refine Conduct.secures_ask (h.maySignal trivial) ?_
  intro time _
  have htime := h.append_quiet (e := ⟨i, .sweep m now, .clock, time⟩) rfl
  have hmark := JobRecord.mark_eq r mark time
  change r.markTimedOut _ time = _ at hmark
  cases hopen : r.isTerminal with
  | true =>
    simp only [Dialogue.andThen, hmark, hopen, if_true]
    exact Conduct.secures_done htime
  | false =>
    simp only [Dialogue.andThen, hmark, hopen, Bool.false_eq_true, if_false]
    refine Conduct.secures_ask (htime.maySignal trivial) ?_
    rintro _ (⟨now', rfl⟩ | ⟨f, rfl⟩ | ⟨state, rfl⟩)
    · have hend : Event.ending? ⟨i, .sweep m now, .store (.update (r.marked time mark)),
          .ok ((r.marked time mark).stamped now')⟩ = some ((r.marked time mark).stamped now') := rfl
      refine Conduct.secures_ask (MaySignal.sweep now htime hend rfl rfl) ?_
      intro b _
      exact Conduct.secures_done (htime.signalled hend rfl b)
    · cases f <;> exact Conduct.secures_done (htime.append_quiet rfl)
    · exact Conduct.secures_done (htime.append_quiet rfl)

private theorem signalling_expireAll (m : Manager) (now : Instant) (rs : List JobRecord) (report : SweepReport)
    (h : AllSignalled m.number past) :
    (Sweep.expireAll m rs report).Secures (signalling.requests i (.sweep m now))
      (fun _ later => AllSignalled m.number later) past := by
  induction rs generalizing past report with
  | nil => exact Conduct.secures_done h
  | cons r rs ih =>
    apply Conduct.secures_bind
    apply (signalling_expire m now r report h).mono
    exact fun next later _ hlater => ih next hlater

private theorem signalling_sweep (m : Manager) (now : Instant) :
    (m.sweepOnce now).Secures (signalling.requests i (.sweep m now)) (HasDealt (.sweep m now)) [] := by
  refine Conduct.secures_ask ((allSignalled_nil m.number).maySignal trivial) ?_
  intro a _
  have hfound := (allSignalled_nil m.number).append_quiet (e := ⟨i, .sweep m now, .store (.findExpired now), a⟩) rfl
  cases a with
  | error e => exact Conduct.secures_done hfound
  | ok rs =>
    simp only [Dialogue.andThen]
    apply Conduct.secures_bind
    apply (signalling_expireAll m now rs _ hfound).mono
    exact fun report later _ hlater => Conduct.secures_done hlater

/-- Every operation deals with contexts and signals in this way. -/
theorem signalling_isKept : signalling.IsKept := by
  have hplain : ∀ i o, Operation.signals o = false → o.task.Secures (signalling.steps i o) (signalling.Ends o) [] := by
    intro i o ho
    have hsweep : ∀ past m now, o = .sweep m now → AllSignalled m.number past := by
      rintro past m now rfl
      cases ho
    apply Dialogue.Secures.mono
    · apply Conduct.secures_of_honours (fun x a => ?_) (fun q hq past => MaySignal.of_plain hq (hsweep past))
        (Operation.plain_of_signals (fun _ => trivial) ho)
      cases x <;> exact trivial
    · exact fun a l _ _ => hasDealt_of_signals ho a l
  intro i o
  cases o with
  | create m id request => exact Conduct.secures_act (signalling_create m id request)
  | cancel m id => exact Conduct.secures_act (signalling_cancel m id)
  | sweep m now => exact Conduct.secures_act (signalling_sweep m now)
  | _ => exact hplain i _ rfl

end

end JobLedger
