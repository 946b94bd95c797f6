import JobLedger.Proofs.FiredSignals

/-!
# Work that waits for its signal

Work that only waits for its signal and then ends with a value. Its task writes nothing before the signal has
fired. A cancellation fires it before it writes, so the value may be recorded while the cancellation is under
way, or after it has failed; but never once it is recorded, and never because of a sweep.
-/
namespace JobLedger

/-- Work that waits for its signal and ends with a value. -/
abbrev Work.untilSignal (v : Json) : Work := .steps [.awaitSignal] (.value v)

/-- What the task of such work may put in the place of a record. -/
def succeeding : Conduct where
  MayAsk o q _ := ∀ m c v, o = .spawn m c (.untilSignal v) → q.IsPlain (· = .succeeded)
  Ends _ _ _ := True

private theorem succeeding_isKept : succeeding.IsKept := by
  intro i o
  by_cases ho : ∃ m c v, o = .spawn m c (.untilSignal v)
  · obtain ⟨m, c, v, rfl⟩ := ho
    have hplain : ((Work.untilSignal v).task m c).Honours (TaskStep.contract (Request.plain (· = .succeeded)))
        fun _ => True :=
      ⟨trivial, fun _ _ => ⟨trivial, fun _ _ => ⟨trivial, fun _ _ => honours_act (plain_settle m c rfl)⟩⟩⟩
    refine Conduct.secures_of_honours (fun x a => ?_) (fun q hq _ _ _ _ _ => hq) hplain
    cases x <;> exact trivial
  · have hany := Dialogue.honours_of_mayAsk (C := TaskStep.contract ⟨fun _ => True, fun _ _ => True⟩)
      (fun x => by cases x <;> exact trivial) o.task
    refine Conduct.secures_of_honours (fun x a => ?_) (fun q _ _ m c v h => absurd ⟨m, c, v, h⟩ ho) hany
    cases x <;> exact trivial

/-- A job is cancelled, times out or is ended through a context of its own. -/
theorem Operation.Makes.cases {id : JobId} {seconds : UInt64} {o : Operation} {mark : JobRecord.Mark}
    (h : o.Makes id seconds mark) :
    mark.state = .cancelled ∨ mark.state = .timedOut ∨ ∃ c, o.context? = some c ∧ c.job = id := by
  cases o with
  | cancel m job =>
    obtain ⟨-, rfl⟩ := h
    exact .inl rfl
  | sweep m now =>
    obtain rfl := h
    exact .inr (.inl rfl)
  | setResult c payload => exact .inr (.inr ⟨c, rfl, h.1⟩)
  | setFailed c message detail => exact .inr (.inr ⟨c, rfl, h.1⟩)
  | spawn m c work =>
    cases work with
    | steps steps ending => exact .inr (.inr ⟨c, rfl, h.1⟩)
    | unfounded => exact h.elim
  | _ => exact h.elim

namespace World

variable {m₀ : Memory} {w v : World} {c : JobContext}

/-- The task of such work that has not seen the signal waits for its turn or for the signal. -/
def AwaitsSignal (c : JobContext) (d : Task Unit) : Prop :=
  (∃ next, d = .ask (.wait .turn) next ∧ ∃ next', next () = .ask (.wait (.signal c.number)) next') ∨
    ∃ next, d = .ask (.wait (.signal c.number)) next

/-- The tasks of such work ask nothing before their signal has fired. -/
structure Patient (w : World) : Prop where
  awaits : ∀ {i : Nat} {m : Manager} {c : JobContext} {v : Json} {d : Task Unit},
    w.processes[i]? = some ⟨.spawn m c (.untilSignal v), d⟩ → AwaitsSignal c d ∨ w.host.isCancelled c.number = true
  asks : ∀ {before after : List Event} {e : Event} {m : Manager} {c : JobContext} {v : Json},
    w.log = before ++ e :: after → e.operation = .spawn m c (.untilSignal v) →
      ∃ k id, HasFired k id before ∧ HasMade k ⟨c.number, id⟩ before

private theorem awaitsSignal_task (m : Manager) (c : JobContext) (v : Json) :
    AwaitsSignal c ((Work.untilSignal v).task m c) :=
  .inl ⟨_, rfl, _, rfl⟩

private theorem isCancelled_moved (hv : w.Moved v) {n : Nat} (hn : w.host.isCancelled n = true) :
    v.host.isCancelled n = true := by
  cases hv with
  | request f? hp => exact ((Scene.tracks f? _ _ _ w.toScene).fired n).mpr (.inl hn)
  | _ => exact hn

private theorem Patient.awaits_moved (hw : w.Patient) (hv : w.Moved v) {i : Nat} {m : Manager} {payload : Json}
    {d : Task Unit} (hi : v.processes[i]? = some ⟨.spawn m c (.untilSignal payload), d⟩) :
    AwaitsSignal c d ∨ v.host.isCancelled c.number = true := by
  have hold : ∀ {d}, w.processes[i]? = some ⟨.spawn m c (.untilSignal payload), d⟩ →
      AwaitsSignal c d ∨ v.host.isCancelled c.number = true := fun h =>
    (hw.awaits h).imp_right (isCancelled_moved hv)
  cases hv with
  | stay => exact hold hi
  | tick now => exact hold hi
  | begin o ho =>
    rcases process_begin hi with hi | ⟨-, hp⟩
    · exact hold hi
    · obtain ⟨rfl, hd⟩ := Process.mk.inj hp
      exact .inl (eq_of_heq hd ▸ awaitsSignal_task m c payload)
  | request f? hj =>
    rcases process_set hi with ⟨rfl, hp⟩ | ⟨-, hi⟩
    · obtain ⟨rfl, -⟩ := Process.mk.inj hp
      rcases hold hj with (⟨next, hd, -⟩ | ⟨next, hd⟩) | hn
      · cases hd
      · cases hd
      · exact .inr hn
    · exact hold hi
  | wake hj hx =>
    rcases process_set hi with ⟨rfl, hp⟩ | ⟨-, hi⟩
    · obtain ⟨rfl, hd⟩ := Process.mk.inj hp
      obtain rfl := eq_of_heq hd
      rcases hold hj with (⟨next, hd, hnext⟩ | ⟨next, hd⟩) | hn
      · cases hd
        exact .inl (.inr hnext)
      · cases hd
        exact .inr hx
      · exact .inr hn
    · exact hold hi

private theorem Patient.asks_moved (hw : w.Patient) (hs : w.Signals) (hv : w.Moved v) {before after : List Event}
    {e : Event}
    {m : Manager} {payload : Json} (hlog : v.log = before ++ e :: after)
    (he : e.operation = .spawn m c (.untilSignal payload)) :
    ∃ k id, HasFired k id before ∧ HasMade k ⟨c.number, id⟩ before := by
  cases hv with
  | @request f? i o q k hp =>
    rcases split_concat hlog with ⟨rfl, rfl⟩ | ⟨later, hlog⟩
    · obtain rfl : o = .spawn m c (.untilSignal payload) := he
      rcases hw.awaits hp with (⟨next, hd, -⟩ | ⟨next, hd⟩) | hn
      · cases hd
      · cases hd
      · exact hs.cancelled hn
    · exact hw.asks hlog he
  | _ => exact hw.asks hlog he

private theorem start_patient (now : Instant) (m₀ : Memory) : (start now m₀).Patient := by
  constructor
  case awaits =>
    intro i m c v d hi
    simp [start] at hi
  case asks => exact fun h => absurd h.symm (List.append_ne_nil_of_right_ne_nil _ (List.cons_ne_nil _ _))

private theorem Reachable.patient (hm : m₀.Keyed) (hw : w.Reachable m₀) : w.Patient := by
  have hboth : w.Signals ∧ w.Patient := by
    apply hw.induction (P := fun w => w.Signals ∧ w.Patient) hm fun now => ⟨start_signals now m₀, start_patient now m₀⟩
    rintro w x h ⟨hs, hp⟩
    have hv := moved_move w x
    exact ⟨h.signals_moved hs hv, fun hi => hp.awaits_moved hv hi, fun hlog he => hp.asks_moved hs hv hlog he⟩
  exact hboth.2

/-- The signal of the context has fired before the task of such work asks anything. -/
theorem Patient.fired (hw : w.Patient) (hs : w.Signals) (hh : w.Handles) {k : Nat} (hc : HasMade k c w.log)
    {before after : List Event} {e : Event} {m : Manager} {payload : Json} (hlog : w.log = before ++ e :: after)
    (he : e.operation = .spawn m c (.untilSignal payload)) : HasFired k c.job before := by
  obtain ⟨k', id, hfired, d, hd, hmade⟩ := hw.asks hlog he
  have hmade' : HasMade k' ⟨c.number, id⟩ w.log := ⟨d, hlog ▸ List.mem_append_left _ hd, hmade⟩
  have heq : c = ⟨c.number, id⟩ :=
    hh.openedOnce c _ (Scene.hasOpened_of_hasMade hc) (Scene.hasOpened_of_hasMade hmade') rfl
  have hjob : c.job = id := congrArg JobContext.job heq
  obtain ⟨rfl, -⟩ := hs.madeOnce hc hmade' hjob
  exact hjob ▸ hfired

/-- The record by which the task of such work ends a job tells of success. -/
private theorem Keeps.state_of_untilSignal (hk : w.Keeps succeeding) (hl : w.Ledger m₀) {e : Event} (he : e ∈ w.log)
    {m : Manager} {payload : Json} (ho : e.operation = .spawn m c (.untilSignal payload)) {x : JobRecord}
    (hx : e.ending? = some x) : x.state = .succeeded := by
  obtain ⟨-, -, past, -, -, hq⟩ := hk.asked e he
  have hplain := hq m c payload ho
  have hadmits := hk.admitted e he
  obtain ⟨i, o, q, a⟩ := e
  cases q with
  | store call =>
    cases call with
    | create r =>
      cases a with
      | error e => cases hx
      | ok r' =>
        have hcreates := ((hl.entry _ he).created r' rfl).2.1
        rw [ho] at hcreates
        exact hcreates.elim
    | update r =>
      rcases hadmits with ⟨now, rfl⟩ | ⟨f, rfl⟩ | ⟨state, rfl⟩
      · obtain rfl := Option.some.inj (Event.ending?_eq_some.mp hx).1
        exact hplain
      · cases hx
      · cases hx
    | _ => cases hx
  | _ => cases hx

/-- A cancellation of the job on the manager fired the signal early in the log. Its answer is still to come, or is
a failure of the store, or tells that the job had succeeded. -/
def Belated (k : Nat) (id : JobId) (before : List Event) (w : World) : Prop :=
  ∃ i g d, w.processes[i]? = some ⟨.cancel g id, d⟩ ∧ g.number = k ∧
    (∃ e ∈ before, e.process = i ∧ e.fired? = some (k, id)) ∧
      ((∃ x next, d = .ask x next) ∨ (∃ f : StoreFailure, d = .done (.error f.error.toJobError)) ∨
        d = .done (.error (.conflict id .succeeded)))

/-- If a signal fired and the job succeeded all the same, a cancellation was too late. -/
private theorem Sound.belated (h : w.Sound m₀) (hk : w.Keeps signalling) {k : Nat} {id : JobId} {x : JobRecord}
    (hx : w.stored id = some x) (hstate : x.state = .succeeded) {before : List Event}
    (hsub : ∀ e ∈ before, e ∈ w.log) (hf : HasFired k id before) : w.Belated k id before := by
  obtain ⟨⟨i, o, q, a⟩, he, hfired⟩ := hf
  obtain ⟨d, hi, hown, hfires⟩ := hk.fires (hsub _ he) hfired
  cases o with
  | sweep g now =>
    obtain ⟨r, hr, -, htimedOut⟩ := HasTimedOut.stored h.ledger hfires.2
    obtain rfl := Option.some.inj (hr.symm.trans hx)
    cases htimedOut.symm.trans hstate
  | cancel g job =>
    obtain ⟨hg, rfl⟩ := hfires
    refine ⟨i, g, d, hi, hg, ⟨_, he, rfl, hfired⟩, ?_⟩
    rcases h.of_cancel_fired hk hi hown with hask | hfailed | ⟨r, hr, -, hd⟩
    · exact .inl hask
    · exact .inr (.inl hfailed)
    · obtain rfl := Option.some.inj (hr.symm.trans hx)
      rcases hd with ⟨-, hcancelled⟩ | hd
      · cases hcancelled.symm.trans hstate
      · exact .inr (.inr (hstate ▸ hd))
  | _ => exact hfires.elim

/-- The record that ended a job was written by an operation under way that makes such. -/
private theorem Sound.ended_by (h : w.Sound m₀) (hk : w.Keeps succeeding) {id : JobId} (hid : m₀.Lacks id)
    {x : JobRecord}
    (hx : w.stored id = some x) (hterm : x.isTerminal = true) :
    ∃ e ∈ w.log, e.ending? = some x ∧ (∃ d, w.processes[e.process]? = some ⟨e.operation, d⟩) ∧
      ∃ mark, e.operation.Makes id x.timeoutSeconds mark ∧ mark.state = x.state := by
  obtain ⟨e, he, hend⟩ := h.ledger.ended hx hid hterm
  obtain ⟨d, hd, -⟩ := hk.asked e he
  obtain ⟨-, mark, hmakes, hstate, -⟩ := (h.ledger.entry e he).ending x hend
  exact ⟨e, he, hend, ⟨d, hd⟩, mark, h.ledger.keyed.id_eq hx ▸ hmakes, hstate⟩

/-- In every interleaving and however calls fail, the job of work that waits for its signal, and through whose
context nobody else works, stays open, is cancelled or times out; if it succeeds all the same, a cancellation of
the job had fired the signal before, whose answer is still to come, is a failure of the store or tells of the
success. Once the task is through and none of its calls failed, the job has ended. -/
theorem awaiting_work_ends_aborted (hm : m₀.Keyed) (hw : w.Reachable m₀) {g : Manager} {id : JobId}
    {request : NewJob} {r : JobRecord} (hc : ⟨.create g id request, .done (.ok (r, c))⟩ ∈ w.processes)
    {i : Nat} {m : Manager} {payload : Json} {d : Task Unit}
    (hi : w.processes[i]? = some ⟨.spawn m c (.untilSignal payload), d⟩)
    (hothers : ∀ j p, w.processes[j]? = some p → j ≠ i → ∀ c', p.operation.context? = some c' → c'.job ≠ c.job) :
    (∃ x, w.stored c.job = some x ∧ (x.isTerminal = false ∨ x.state = .cancelled ∨ x.state = .timedOut ∨
      x.state = .succeeded ∧ ∃ before e after, w.log = before ++ e :: after ∧ e.process = i ∧
        e.ending? = some x ∧ w.Belated g.number c.job before)) ∧
    (d = .done () → ¬w.HasFailed i → w.HasEnded c.job) := by
  have h := hw.sound hm
  have hk := hw.keeps signalling_isKept hm
  have hs := hw.signals hm
  have hmade := hk.hasMade hc
  obtain ⟨hlacks, x, hx⟩ := h.handles.stored_of_hasOpened h.ledger (Scene.hasOpened_of_hasMade hmade)
  constructor
  · refine ⟨x, hx, ?_⟩
    cases hterm : x.isTerminal with
    | false => exact .inl rfl
    | true =>
      right
      have hsucceeding := hw.keeps succeeding_isKept hm
      obtain ⟨e, he, hend, ⟨d', hd'⟩, mark, hmakes, hstate⟩ := h.ended_by hsucceeding hlacks hx hterm
      rcases hmakes.cases with hcancelled | htimedOut | ⟨c', hc', hjob⟩
      · exact .inl (hstate ▸ hcancelled)
      · exact .inr (.inl (hstate ▸ htimedOut))
      · -- Nobody but the task itself works through a context of the job.
        have hp : e.process = i := Decidable.byContradiction fun hne => hothers _ _ hd' hne c' hc' hjob
        have ho : e.operation = .spawn m c (.untilSignal payload) :=
          (Process.mk.inj (Option.some.inj (hd'.symm.trans (hp ▸ hi)))).1
        have hsucceeded := hsucceeding.state_of_untilSignal h.ledger he ho hend
        obtain ⟨before, after, hlog⟩ := List.append_of_mem he
        have hsub : ∀ e' ∈ before, e' ∈ w.log := fun e' he' => hlog ▸ List.mem_append_left _ he'
        have hfired := (hw.patient hm).fired hs h.handles hmade hlog ho
        exact .inr (.inr ⟨hsucceeded, before, e, after, hlog, hp, hend,
          h.belated hk hx hsucceeded hsub hfired⟩)
  · rintro rfl hfailed
    exact (h.answered hi).2.2.1.resolve_left hfailed

/-- Work that waits for its signal, and a cancellation that fires it and then cannot reach the store. -/
def sampleLateCancel : World :=
  sample.run ([.begin (.spawn sampleManager sampleContext (.untilSignal .null)), .step 1,
    .begin (.cancel sampleManager ⟨1⟩), .step 2, .step 2, .step 2, .fail 2 (.unavailable (.reported "down"))] ++
      List.replicate 8 (.step 1))

private theorem sample_late_others : ∀ j p, sampleLateCancel.processes[j]? = some p → j ≠ 1 →
    ∀ c, p.operation.context? = some c → c.job ≠ sampleContext.job := by
  intro j p hj hne c hc
  match j with
  | 0 =>
    obtain rfl := Option.some.inj hj
    cases hc
  | 1 => exact absurd rfl hne
  | 2 =>
    obtain rfl := Option.some.inj hj
    cases hc
  | j + 3 => cases hj

theorem sample_late_cancel : ∃ before, sampleLateCancel.Belated 0 ⟨1⟩ before := by
  have hc : ⟨.create sampleManager ⟨1⟩ ⟨"n", 60, none, none⟩, .done (.ok (sampleRecord, sampleContext))⟩ ∈
      sampleLateCancel.processes := List.mem_of_getElem? (i := 0) rfl
  obtain ⟨⟨x, hx, hstate⟩, -⟩ := awaiting_work_ends_aborted Memory.empty_keyed (sample_reachable _) hc
    (i := 1) (d := .done ()) rfl sample_late_others
  obtain rfl := Option.some.inj (show some (sampleRecord.marked .epoch (.succeeded .null)) = some x from hx)
  rcases hstate with h | h | h | ⟨-, before, -, -, -, -, -, h⟩
  · cases h
  · cases h
  · cases h
  · exact ⟨before, h⟩

/-- Not every job is kept from succeeding by the signal that made its work end. -/
theorem aborted_work_may_succeed :
    ¬∀ w : World, w.Reachable .empty → ∀ g id request r c,
      ⟨.create g id request, .done (.ok (r, c))⟩ ∈ w.processes → ∀ (i : Nat) m payload (d : Task Unit),
        w.processes[i]? = some ⟨.spawn m c (.untilSignal payload), d⟩ →
          (∀ j p, w.processes[j]? = some p → j ≠ i → ∀ c', p.operation.context? = some c' → c'.job ≠ c.job) →
            ∀ x, w.stored c.job = some x → x.state ≠ .succeeded := by
  intro h
  exact h sampleLateCancel (sample_reachable _) sampleManager ⟨1⟩ ⟨"n", 60, none, none⟩ sampleRecord sampleContext
    (List.mem_of_getElem? (i := 0) rfl) 1 sampleManager .null (.done ()) rfl sample_late_others
    (sampleRecord.marked .epoch (.succeeded .null)) rfl rfl

end World

end JobLedger
