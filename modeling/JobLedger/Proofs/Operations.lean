import JobLedger.Proofs.WorkCourse

/-!
# Operations under interference

One statement for each operation: whatever other processes do between its requests, it asks only what it may
ask, and its answer is borne out by the store from then on.
-/
namespace JobLedger.Scene

open JobRecord (Mark)

variable {m₀ : Memory} {s t u : Scene} {i : Nat} {o : Operation}

theorem getStatus_secures (id : JobId) (s : Scene) :
    (Manager.getStatus id).Secures (surroundings m₀ i o) (fun a t => match a with
      | .error e => t.Failing i e ∨ e = .notFound id
      | .ok r => t.Glimpse m₀ r ∧ r.id = id) s := by
  apply secures_get
  case hfail =>
    intro f t ht hst hf
    exact secures_result fun u _ htu => .inl (Failing.follows ⟨hf, f, rfl⟩ htu)
  case hnone =>
    intro t ht hst hnone
    exact secures_result fun u _ _ => .inr rfl
  case hsome =>
    intro r t ht hst hr hid
    exact secures_result fun u _ htu => ⟨hr.evolves htu.evolves, hid⟩

/-- A created job is stored with what it was given, and has a context. -/
def Opened (o : Operation) (a : Except JobError (JobRecord × JobContext)) (s : Scene) : Prop :=
  ∀ r c, a = .ok (r, c) → o.Creates r ∧ c.job = r.id ∧ s.HasOpened c ∧
    ∃ x, s.stored r.id = some x ∧ x.origin = r.origin

theorem create_secures {m : Manager} {id : JobId} {request : NewJob} (ho : o = .create m id request)
    (hs : s.own i = []) : (m.create id request).Secures (surroundings m₀ i o) (Opened o) s := by
  subst ho
  intro t ht hst
  refine ⟨trivial, ?_⟩
  intro now u hu _ v hv huv
  refine ⟨⟨now, rfl⟩, ?_⟩
  intro a w hw hwl
  have hown := own_of_answers hw
  rw [huv.2, own_of_answers hu, hst.2, hs] at hown
  cases a with
  | error e => exact secures_result fun x _ _ r c h => by cases h
  | ok r =>
    have hmem := mem_own_of_answers hw
    obtain ⟨-, hcreates, hstored⟩ := (hwl.1.entry _ (mem_own.mp hmem).1).created r rfl
    intro x hx hwx
    refine ⟨⟨⟨_, hwx.2.symm ▸ hmem, r, rfl, rfl⟩, ?_⟩, ?_⟩
    · intro e he
      rw [hwx.2, hown] at he
      simp only [List.nil_append, List.cons_append, List.mem_cons, List.not_mem_nil, or_false] at he
      rcases he with rfl | rfl <;> rfl
    · intro n y hy _
      apply secures_result
      intro z hz hyz r' c h
      obtain ⟨rfl, rfl⟩ := Prod.mk.inj (Except.ok.inj h)
      have hopened : y.HasOpened ⟨n, r.id⟩ := ⟨_, (mem_own.mp (mem_own_of_answers hy)).1, m.number, rfl⟩
      obtain ⟨x', hx', hox⟩ := hstored
      obtain ⟨z', hz', hoz, -⟩ := (hwx.1.trans (hy.2.trans hyz.evolves)).kept hx'
      exact ⟨hcreates, rfl, hyz.evolves.hasOpened hopened, z', hz', hoz.trans hox⟩

/-- The answer to a cancellation agrees with the stored record. -/
def Cancelled (id : JobId) (a : Except JobError JobRecord) (s : Scene) : Prop :=
  match a with
  | .ok r => s.stored id = some r ∧ r.state = .cancelled
  | .error (.conflict id' state) =>
    id' = id ∧ ∃ r, s.stored id = some r ∧ r.isTerminal = true ∧ r.state = state
  | .error _ => True

theorem Failing.cancelled {e : JobError} (h : s.Failing i e) (id : JobId) : t.Cancelled id (.error e) := by
  obtain ⟨-, f, rfl⟩ := h
  cases f <;> trivial

theorem cancel_secures {m : Manager} {id : JobId} (hs : (surroundings m₀ i o).Lawful s)
    (hm : ∀ seconds, o.Makes id seconds .cancelled) :
    (m.cancel id).Secures (surroundings m₀ i o) (Cancelled id) s := by
  apply Dialogue.Secures.bind hs
  apply (getStatus_secures id s).mono
  intro a t ht ha
  cases a with
  | error e =>
    apply secures_result
    intro u hu htu
    rcases ha with hf | rfl
    · exact hf.cancelled id
    · trivial
  | ok r =>
    obtain ⟨hr, rfl⟩ := ha
    cases hopen : r.isTerminal with
    | true =>
      simp only [hopen, if_true]
      apply secures_result
      intro u hu htu
      exact ⟨rfl, r, (hr.evolves htu.evolves).stored_of_terminal hopen, hopen, rfl⟩
    | false =>
      simp only [hopen, Bool.false_eq_true, if_false]
      apply secures_signal
      intro _ u hu htu
      apply secures_clock
      intro now v hv huv
      have hmark : r.markCancelled now = .ok (r.marked now .cancelled) :=
        JobRecord.mark_of_open hopen .cancelled now
      simp only [Dialogue.andThen, hmark]
      have hw := (hr.evolves (htu.trans huv).evolves).mayWrite (o := o) hopen (fun _ => hm _) now
      apply secures_update hw
      intro a w x hx hvw hup
      apply secures_result
      intro y hy hxy
      have hid : (r.marked now .cancelled).id = r.id := JobRecord.marked_id r now .cancelled
      cases hup with
      | failed f hf hwx => exact Failing.cancelled (s := x) ⟨hf, f, rfl⟩ r.id
      | overtaken z hz hterm hwx =>
        exact ⟨hid, z, hid ▸ hxy.evolves.stored_of_terminal hz hterm, hterm, rfl⟩
      | written now' hz hwx => exact ⟨hid ▸ hxy.evolves.stored_of_terminal hz rfl, rfl⟩

/-- The process has timed out as many jobs as it reports. -/
def Tally (i : Nat) (report : SweepReport) (s : Scene) : Prop :=
  (s.endingsOf i).length = report.timedOut ∧ ∀ r ∈ s.endingsOf i, r.state = .timedOut

theorem Tally.follows {report : SweepReport} (h : s.Tally i report) (hst : Follows i [] s t) :
    t.Tally i report := by
  have heq : t.endingsOf i = s.endingsOf i := by simpa using hst.endingsOf
  rw [Tally, heq]
  exact h

theorem Tally.count {report : SweepReport} (h : s.Tally i report) {r : JobRecord} (hst : Follows i [r] s t)
    (hr : r.state = .timedOut) : t.Tally i { report with timedOut := report.timedOut + 1 } := by
  refine ⟨by rw [hst.endingsOf, List.length_append, h.1, List.length_singleton], ?_⟩
  intro x hx
  rw [hst.endingsOf] at hx
  rcases List.mem_append.mp hx with hx | hx
  · exact h.2 x hx
  · rw [List.mem_singleton.mp hx, hr]

private theorem expire_secures {m : Manager} {r : JobRecord} {report : SweepReport}
    (hm : ∀ id seconds, o.Makes id seconds (.timedOut (Sweep.timeoutMessage seconds))) (hr : s.Glimpse m₀ r)
    (h : s.Tally i report) : (Sweep.expire m r report).Secures (surroundings m₀ i o)
      (fun report' t => Evolves s t ∧ t.Tally i report') s := by
  apply secures_clock
  intro now t ht hst
  have hmark := JobRecord.mark_eq r (.timedOut (Sweep.timeoutMessage r.timeoutSeconds)) now
  change r.markTimedOut _ now = _ at hmark
  cases hopen : r.isTerminal with
  | true =>
    simp only [Dialogue.andThen, hmark, hopen, if_true]
    apply secures_result
    intro u hu htu
    exact ⟨hst.evolves.trans htu.evolves, h.follows (hst.trans htu)⟩
  | false =>
    simp only [Dialogue.andThen, hmark, hopen, Bool.false_eq_true, if_false]
    have hw := (hr.evolves hst.evolves).mayWrite hopen (fun _ => hm r.id r.timeoutSeconds) now
    apply secures_update hw
    intro a u v hv htu hup
    have hsu := hst.trans htu
    cases hup with
    | failed f hf huv =>
      have hquiet : ∀ w, Follows i [] v w →
          Evolves s w ∧ w.Tally i { report with failed := report.failed + 1 } := by
        intro w hvw
        have hsw := (hsu.trans huv).trans hvw
        exact ⟨hsw.evolves, h.follows hsw⟩
      cases f <;> exact secures_result fun w _ hvw => hquiet w hvw
    | overtaken x hx hterm huv =>
      apply secures_result
      intro w hw hvw
      have hsw := (hsu.trans huv).trans hvw
      exact ⟨hsw.evolves, h.follows hsw⟩
    | written now' hx huv =>
      apply secures_signal
      intro _ w hw hvw
      apply secures_result
      intro x hx hwx
      have hsx := (hsu.trans huv).trans_nil (hvw.trans hwx)
      exact ⟨hsx.evolves, h.count hsx rfl⟩

private theorem expireAll_secures {m : Manager} {rs : List JobRecord} {report : SweepReport}
    (hs : (surroundings m₀ i o).Lawful s)
    (hm : ∀ id seconds, o.Makes id seconds (.timedOut (Sweep.timeoutMessage seconds)))
    (hr : ∀ r ∈ rs, s.Glimpse m₀ r) (h : s.Tally i report) :
    (Sweep.expireAll m rs report).Secures (surroundings m₀ i o) (fun report' t => t.Tally i report') s := by
  induction rs generalizing s report with
  | nil => exact secures_result fun t _ hst => h.follows hst
  | cons r rs ih =>
    apply Dialogue.Secures.bind hs
    apply (expire_secures hm (hr r List.mem_cons_self) h).mono
    rintro report' t ht ⟨hst, ha⟩
    -- The records were all read at once: the later ones grow old while the first is written.
    exact ih ht (fun x hx => (hr x (List.mem_cons_of_mem _ hx)).evolves hst) ha

theorem sweepOnce_secures {m : Manager} {now : Instant}
    (hm : ∀ id seconds, o.Makes id seconds (.timedOut (Sweep.timeoutMessage seconds)))
    (hown : s.endingsOf i = []) : (m.sweepOnce now).Secures (surroundings m₀ i o)
      (fun a t => ∀ report, a = .ok report → t.Tally i report) s := by
  apply secures_findExpired
  intro a t ht hst hfound
  cases a with
  | error e => exact secures_result fun u _ _ report h => by cases h
  | ok rs =>
    have hnone : t.endingsOf i = [] := by simpa [hown] using hst.endingsOf
    have hempty : t.Tally i ⟨rs.length, 0, 0, 0⟩ := ⟨by rw [hnone]; rfl, by simp [hnone]⟩
    simp only [Dialogue.andThen]
    apply Dialogue.Secures.bind ht
    apply (expireAll_secures ht hm (hfound rs rfl) hempty).mono
    intro report u hu htally
    apply secures_result
    rintro v hv huv report' ⟨⟩
    exact htally.follows huv

/-- What the answer of an operation stands for from then on. -/
def Answered (i : Nat) : (o : Operation) → o.Result → Scene → Prop
  | .create m id request, a, s => s.Opened (.create m id request) a
  | .cancel _ id, a, s => s.Cancelled id a
  | .sweep _ _, a, s => ∀ report, a = .ok report → s.Tally i report
  | .spawn m c (.steps steps ending), _, s => s.HasOpened c ∧
    s.Standing i c.job (some (Work.mark ending steps)) ∧ (s.HasFailed i ∨ s.HasEnded c.job) ∧
      s.host.isTracked m.number c.job = false
  | _, _, _ => True

/-- Each operation keeps to what it may ask, and secures its answer. -/
theorem operation_secures (o : Operation) (hs : (surroundings m₀ i o).Lawful s) (hown : s.own i = [])
    (hc : ∀ c, o.context? = some c → s.HasOpened c) :
    o.task.Secures (taskSurroundings m₀ i o) (Answered i o) s := by
  have hends : s.endingsOf i = [] := by rw [endingsOf, hown]; rfl
  cases o with
  | create m id request => exact secures_act (create_secures rfl hown)
  | getStatus id => exact secures_act ((getStatus_secures id s).mono fun _ _ _ _ => trivial)
  | statusView m id =>
    apply secures_act
    apply Dialogue.Secures.bind hs
    apply (getStatus_secures id s).mono
    intro a t ht _
    exact secures_result fun _ _ _ => trivial
  | list query =>
    apply secures_act
    apply secures_quiet
    case hq => exact fun _ => trivial
    case he => exact fun _ => rfl
    case hk => exact fun _ _ _ _ => secures_result fun _ _ _ => trivial
  | cancel m id => exact secures_act (cancel_secures hs fun _ => ⟨rfl, rfl⟩)
  | completeTracking m id =>
    apply secures_act
    exact secures_untrack fun _ _ _ _ _ => secures_result fun _ _ _ => trivial
  | sweep m now => exact secures_act (sweepOnce_secures (fun _ _ => rfl) hends)
  | reportProgress c percent =>
    exact secures_act ((reportProgress_secures c percent hs).mono fun _ _ _ _ => trivial)
  | setResult c payload =>
    exact secures_act ((finish_secures hs (hc c rfl) (fun _ => ⟨rfl, rfl⟩) rfl).mono fun _ _ _ _ => trivial)
  | setFailed c message detail =>
    exact secures_act ((finish_secures hs (hc c rfl) (fun _ => ⟨rfl, rfl⟩) rfl).mono fun _ _ _ _ => trivial)
  | setUnserializable c reason => exact secures_act (secures_result fun _ _ _ => trivial)
  | spawn m c work =>
    cases work with
    | steps steps ending => exact work_secures rfl (hc c rfl) hends
    | unfounded => exact secures_taskResult fun _ _ _ => trivial

end JobLedger.Scene
