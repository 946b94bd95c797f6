import JobLedger.Proofs.Requests

/-!
# Completions under interference

What a context does to its job, whatever other processes do between its requests. A process stands by the
first outcome that it recorded, or it was overtaken, or one of its calls failed.
-/
namespace JobLedger.Scene

open JobRecord (Mark)

variable {m₀ : Memory} {s t u : Scene} {i : Nat} {o : Operation}

/-- Another process ended the job. -/
def Overtaken (i : Nat) (id : JobId) (s : Scene) : Prop :=
  ∃ e ∈ s.log, e.process ≠ i ∧ ∃ r, e.ending? = some r ∧ r.id = id

theorem not_hasFailed (h : (s.own i).any Event.isFailure = false) : ¬s.HasFailed i := by
  rintro ⟨e, he, hf⟩
  exact List.any_eq_false.mp h e he hf

theorem not_overtaken (h : (s.log.filter fun e => e.process != i).filterMap Event.ending? = []) (id : JobId) :
    ¬s.Overtaken i id := by
  rintro ⟨e, he, hne, r, hr, -⟩
  have hnone := List.filterMap_eq_nil_iff.mp h e (List.mem_filter.mpr ⟨he, by simpa using hne⟩)
  cases hnone.symm.trans hr

/-- What a process whose calls did not fail, and that nobody overtook, did to end one job: nothing, or it
recorded the outcome of a mark. -/
def Standing (i : Nat) (id : JobId) (x : Option Mark) (s : Scene) : Prop :=
  s.HasFailed i ∨ s.Overtaken i id ∨ match x with
    | none => s.endingsOf i = []
    | some m => ∃ r, s.endingsOf i = [r] ∧ r.id = id ∧ r.outcome = m.outcome

theorem Overtaken.evolves {id : JobId} (h : s.Overtaken i id) (hst : Evolves s t) : t.Overtaken i id := by
  obtain ⟨e, he, hne, hr⟩ := h
  exact ⟨e, hst.mem_log he, hne, hr⟩

theorem Standing.follows {id : JobId} {x : Option Mark} (h : s.Standing i id x) (hst : Follows i [] s t) :
    t.Standing i id x := by
  have heq : t.endingsOf i = s.endingsOf i := by simpa using hst.endingsOf
  rcases h with h | h | h
  · exact .inl (hst.hasFailed h)
  · exact .inr (.inl (h.evolves hst.evolves))
  · refine .inr (.inr ?_)
    cases x <;> simpa only [heq] using h

/-- A process that did not end a job that has ended was overtaken, unless a call failed. -/
private theorem Standing.of_hasEnded (hl : s.Ledger m₀) {id : JobId} (hid : m₀.Lacks id) (h : s.Standing i id none)
    (he : s.HasEnded id) (x : Option Mark) : s.Standing i id x := by
  rcases h with h | h | h
  · exact .inl h
  · exact .inr (.inl h)
  · obtain ⟨r, hr, hterm⟩ := he
    obtain ⟨e, hmem, hend⟩ := hl.ended hr hid hterm
    have hne : e.process ≠ i := by
      intro hp
      have hown : r ∈ s.endingsOf i := List.mem_filterMap.mpr ⟨e, mem_own.mpr ⟨hmem, hp⟩, hend⟩
      rw [h] at hown
      cases hown
    exact .inr (.inl ⟨e, hmem, hne, r, hend, hl.keyed.id_eq hr⟩)

/-- On a job that has ended, a further mark changes nothing. -/
theorem Standing.or_of_hasEnded (hl : s.Ledger m₀) {id : JobId} (hid : m₀.Lacks id) {x : Option Mark}
    (h : s.Standing i id x) (he : s.HasEnded id) (m : Mark) : s.Standing i id (x.or (some m)) := by
  cases x with
  | none => exact h.of_hasEnded hl hid he _
  | some m' => exact h

/-- The first outcome that a process records of a job is the one it stands by. -/
private theorem Standing.or_of_ended (hl : t.Ledger m₀) {r : JobRecord} {x : Option Mark} {m : Mark}
    (h : s.Standing i r.id x) (hst : Follows i [r] s t) (hr : r.outcome = m.outcome) :
    t.Standing i r.id (x.or (some m)) := by
  rcases h with h | h | h
  · exact .inl (hst.hasFailed h)
  · exact .inr (.inl (h.evolves hst.evolves))
  · cases x with
    | none => exact .inr (.inr ⟨r, by rw [hst.endingsOf, h, List.nil_append], rfl, hr⟩)
    | some m' =>
      obtain ⟨r', hr', hid, -⟩ := h
      have hnodup := hl.nodup_endingsOf i
      rw [hst.endingsOf, hr'] at hnodup
      simp [hid] at hnodup

/-- What an operation through a context comes to that asks for a mark to end the job, or for none. -/
structure Carried (i : Nat) (id : JobId) (x : Option Mark) (s : Scene) (a : Except JobError Unit) (t : Scene) :
    Prop where
  evolves : Evolves s t
  standing : ∀ y, s.Standing i id y → t.Standing i id (y.or x)
  failing : ∀ e, a = .error e → t.Failing i e
  hasEnded : x.isSome = true → a = .ok () → t.HasEnded id

theorem Follows.hasEnded {r : JobRecord} (h : Follows i [r] s t) (hl : t.Ledger m₀) : t.HasEnded r.id := by
  have hr : r ∈ t.endingsOf i := by
    rw [h.endingsOf]
    exact List.mem_append_right _ (List.mem_singleton_self r)
  exact ⟨r, hl.stored_of_mem_endingsOf hr⟩

private theorem Carried.of_ended {id : JobId} {r : JobRecord} {m : Mark} (hl : t.Ledger m₀) (hst : Follows i [r] s t)
    (hid : r.id = id) (hr : r.outcome = m.outcome) : Carried i id (some m) s (.ok ()) t := by
  subst hid
  constructor
  case evolves => exact hst.evolves
  case standing =>
    intro y hy
    exact hy.or_of_ended hl hst hr
  case failing => nofun
  case hasEnded =>
    intro _ _
    exact hst.hasEnded hl

private theorem Carried.of_failing {id : JobId} {x : Option Mark} {e : JobError} {rs : List JobRecord}
    (hst : Follows i rs s t) (h : t.Failing i e) : Carried i id x s (.error e) t := by
  constructor
  case evolves => exact hst.evolves
  case standing => exact fun _ _ => .inl h.1
  case failing =>
    rintro e' ⟨⟩
    exact h
  case hasEnded => nofun

private theorem Carried.of_hasEnded (hl : t.Ledger m₀) {id : JobId} (hid : m₀.Lacks id) (hst : Follows i [] s t)
    (he : t.HasEnded id) (m : Mark) : Carried i id (some m) s (.ok ()) t := by
  constructor
  case evolves => exact hst.evolves
  case standing =>
    intro y hy
    exact (hy.follows hst).or_of_hasEnded hl hid he m
  case failing => nofun
  case hasEnded => exact fun _ _ => he

theorem Carried.of_follows {id : JobId} (hst : Follows i [] s t) : Carried i id none s (.ok ()) t := by
  constructor
  case evolves => exact hst.evolves
  case standing =>
    intro y hy
    simpa using hy.follows hst
  case failing => nofun
  case hasEnded => nofun

private theorem load_secures (c : JobContext) (s : Scene) :
    c.load.Secures (surroundings m₀ i o) (fun a t => Follows i [] s t ∧ match a with
      | .error e => t.Failing i e
      | .ok none => s.stored c.job = none
      | .ok (some r) => t.Glimpse m₀ r ∧ r.id = c.job) s := by
  apply secures_get
  case hfail =>
    intro f t ht hst hf
    exact secures_result fun u _ htu => ⟨hst.trans htu, Failing.follows ⟨hf, f, rfl⟩ htu⟩
  case hnone =>
    intro t ht hst hnone
    refine secures_result fun u _ htu => ⟨hst.trans htu, ?_⟩
    exact hst.evolves.stored_of_none hnone
  case hsome =>
    intro r t ht hst hr hid
    exact secures_result fun u _ htu => ⟨hst.trans htu, hr.evolves htu.evolves, hid⟩

theorem write_secures {r : JobRecord} (hw : s.MayWrite m₀ o r) :
    (JobContext.write r).Secures (surroundings m₀ i o) (fun a t => match a with
      | .error e => Follows i [] s t ∧ t.Failing i e
      | .ok () => (Follows i [] s t ∧ t.HasEnded r.id) ∨
        ∃ now, Follows i ([r.stamped now].filter JobRecord.isTerminal) s t) s := by
  apply secures_update hw
  intro a t u hu hst hup
  cases hup with
  | failed f hf htu =>
    have hfail : u.Failing i f.error.toJobError := ⟨hf, f, rfl⟩
    cases f <;>
      exact secures_result fun v _ huv => ⟨(hst.trans htu).trans huv, hfail.follows huv⟩
  | overtaken x hx hterm htu =>
    -- That another write came first is no error to a context.
    apply secures_result
    intro v hv huv
    exact .inl ⟨(hst.trans htu).trans huv, huv.evolves.hasEnded ⟨x, hx, hterm⟩⟩
  | written now hr htu =>
    apply secures_result
    intro v hv huv
    exact .inr ⟨now, (hst.trans htu).trans_nil huv⟩

theorem reportProgress_secures (c : JobContext) (percent : Int) (hs : (surroundings m₀ i o).Lawful s) :
    (c.reportProgress percent).Secures (surroundings m₀ i o) (Carried i c.job none s) s := by
  apply Dialogue.Secures.bind hs
  apply (load_secures c s).mono
  rintro a t ht ⟨hst, ha⟩
  rcases a with e | _ | r
  · exact secures_result fun u _ htu => .of_failing (hst.trans htu) (ha.follows htu)
  · exact secures_result fun u _ htu => .of_follows (hst.trans htu)
  · obtain ⟨hr, hid⟩ := ha
    cases hterm : r.isTerminal with
    | true =>
      simp only [hterm, if_true]
      exact secures_result fun u _ htu => .of_follows (hst.trans htu)
    | false =>
      simp only [hterm, Bool.false_eq_true, if_false]
      apply secures_clock
      intro now u hu htu
      have hsu := hst.trans htu
      have hmark : r.markRunning percent now = .ok (r.marked now (.running percent)) :=
        JobRecord.mark_of_open hterm (.running percent) now
      simp only [Dialogue.andThen, hmark]
      have hw := (hr.evolves htu.evolves).mayWrite (o := o) (m := .running percent) hterm nofun now
      apply (write_secures hw).mono
      intro a v hv ha
      cases a with
      | error e => exact .of_failing (hsu.trans ha.1) ha.2
      | ok x =>
        rcases ha with ⟨huv, -⟩ | ⟨now', huv⟩
        · exact .of_follows (hsu.trans huv)
        · exact .of_follows (hsu.trans huv)

theorem finish_secures {c : JobContext} {m : Mark} (hs : (surroundings m₀ i o).Lawful s) (hc : s.HasOpened c)
    (hm : ∀ seconds, o.Makes c.job seconds m) (hterm : m.isTerminal = true) :
    (c.finish m).Secures (surroundings m₀ i o) (Carried i c.job (some m) s) s := by
  obtain ⟨hlacks, old, hold⟩ := hs.2.stored_of_hasOpened hs.1 hc
  apply Dialogue.Secures.bind hs
  apply (load_secures c s).mono
  rintro a t ht ⟨hst, ha⟩
  rcases a with e | _ | r
  · exact secures_result fun u _ htu => .of_failing (hst.trans htu) (ha.follows htu)
  · -- The job of a context is stored.
    rw [hold] at ha
    cases ha
  · obtain ⟨hr, hid⟩ := ha
    have hct : t.HasOpened c := hst.evolves.hasOpened hc
    cases hopen : r.isTerminal with
    | true =>
      simp only [hopen, if_true]
      have he : t.HasEnded c.job := ⟨r, hid ▸ hr.stored_of_terminal hopen, hopen⟩
      apply secures_complete hct he
      intro u hu htu
      apply secures_result
      intro v hv huv
      have hev := htu.evolves.trans huv.evolves
      exact .of_hasEnded hv.1 hlacks ((hst.trans htu).trans huv) (hev.hasEnded he) m
    | false =>
      simp only [hopen, Bool.false_eq_true, if_false]
      apply secures_clock
      intro now u hu htu
      have hsu := hst.trans htu
      simp only [Dialogue.andThen, JobRecord.mark_of_open hopen]
      have hw := (hr.evolves htu.evolves).mayWrite (o := o) hopen (fun _ => hid ▸ hm _) now
      apply Dialogue.Secures.bind hu
      apply (write_secures hw).mono
      intro a v hv ha
      rw [JobRecord.marked_id, hid] at ha
      have hcv : ∀ {rs}, Follows i rs u v → v.HasOpened c := fun huv =>
        huv.evolves.hasOpened (htu.evolves.hasOpened hct)
      cases a with
      | error e =>
        obtain ⟨huv, hf⟩ := ha
        exact secures_result fun w _ hvw => .of_failing ((hsu.trans huv).trans hvw) (hf.follows hvw)
      | ok x =>
        rcases ha with ⟨huv, he⟩ | ⟨now', huv⟩
        · apply secures_complete (hcv huv) he
          intro w hw hvw
          apply secures_result
          intro x hx hwx
          have hev := hvw.evolves.trans hwx.evolves
          exact .of_hasEnded hx.1 hlacks (((hsu.trans huv).trans hvw).trans hwx) (hev.hasEnded he) m
        · have hone : [(r.marked now m).stamped now'].filter JobRecord.isTerminal =
              [(r.marked now m).stamped now'] := by
            simp [hterm]
          rw [hone] at huv
          have he : v.HasEnded c.job := by simpa [hid] using huv.hasEnded hv.1
          apply secures_complete (hcv huv) he
          intro w hw hvw
          apply secures_result
          intro x hx hwx
          have hsx := hsu.trans (huv.trans_nil (hvw.trans hwx))
          apply Carried.of_ended hx.1 hsx
          · simpa using hid
          · rw [JobRecord.stamped_outcome]
            exact (hr.wellFormed (hid ▸ hlacks)).marked_outcome hopen now m

end JobLedger.Scene
