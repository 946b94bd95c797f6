import JobLedger.Proofs.Completion

/-!
# The course of work

What work comes to by itself: the first outcome that one of its steps records, and the end that it reaches.
Its task records the two, in this order, whatever happens to the job meanwhile.
-/
namespace JobLedger

open JobRecord (Mark)

namespace Work

/-- The first outcome that steps record while no call fails, and the end that they come to. -/
def course (ending : WorkEnd) : List WorkStep → Option Mark × WorkEnd
  | [] => (none, ending)
  | .setUnserializable reason :: _ => (none, .error ("invalid payload: " ++ serializationFailure reason)
      ("InvalidPayload(" ++ Text.quoted (serializationFailure reason) ++ ")"))
  | x :: xs => (x.mark?.or (course ending xs).1, (course ending xs).2)

private theorem course_cons {ending : WorkEnd} {x : WorkStep} {xs : List WorkStep}
    (hx : ∀ reason, x ≠ .setUnserializable reason) :
    course ending (x :: xs) = (x.mark?.or (course ending xs).1, (course ending xs).2) := by
  cases x with
  | setUnserializable reason => exact absurd rfl (hx reason)
  | _ => rfl

/-- The outcome of a job that its work alone decides. -/
def mark (ending : WorkEnd) (steps : List WorkStep) : Mark :=
  (course ending steps).1.getD (course ending steps).2.mark

theorem outcome_eq_some {completed : Bool} {ending : WorkEnd} {m : Mark}
    (h : outcome completed ending = some m) : m = ending.mark := by
  cases ending with
  | panic text => exact (Option.some.inj h).symm
  | value payload | unserializable reason | error message debug =>
    cases completed with
    | true => cases h
    | false => exact (Option.some.inj h).symm

private theorem completed_of_outcome_eq_none {completed : Bool} {ending : WorkEnd}
    (h : outcome completed ending = none) : completed = true := by
  cases ending <;> cases completed <;> simp_all [outcome]

end Work

private theorem WorkEnd.mark_isTerminal (e : WorkEnd) : e.mark.isTerminal = true := by cases e <;> rfl

theorem WorkStep.Reaches.cons {x : WorkStep} {xs : List WorkStep} {ending e : WorkEnd}
    (h : Reaches xs ending e) : Reaches (x :: xs) ending e := by
  cases h with
  | through => exact .through
  | unserializable h => exact .unserializable (List.mem_cons_of_mem _ h)
  | failure f => exact .failure f

namespace Scene

variable {m₀ : Memory} {s t u : Scene} {i : Nat} {o : Operation}

section
variable {α : Type} {Q : α → Scene → Prop}

private theorem secures_wait {x : Wait} {k : Unit → Task α}
    (hk : ∀ t, (taskSurroundings m₀ i o).Lawful t → Follows i [] s t →
      (k ()).Secures (taskSurroundings m₀ i o) Q t) :
    (Task.wait x >>= k).Secures (taskSurroundings m₀ i o) Q s := by
  intro t ht hst
  refine ⟨trivial, ?_⟩
  intro a u ha _
  obtain rfl : u = t := ha
  have hothers : (surroundings m₀ i o).Others s u := hst
  exact hk u ht (.of_others hothers)

theorem secures_taskResult {a : α}
    (hQ : ∀ t, (taskSurroundings m₀ i o).Lawful t → Follows i [] s t → Q a t) :
    (Dialogue.done a : Task α).Secures (taskSurroundings m₀ i o) Q s := by
  intro t ht hst
  have hothers : (surroundings m₀ i o).Others s t := hst
  exact hQ t ht (.of_others hothers)

end

/-- What a step of work comes to. -/
def Performed (i : Nat) (id : JobId) (x : WorkStep) (s : Scene) (a : Except JobError Unit) (t : Scene) : Prop :=
  match x with
  | .setUnserializable reason => Follows i [] s t ∧ a = .error (.invalidPayload (.unserializable reason))
  | x => Carried i id x.mark? s a t

private theorem perform_secures {c : JobContext} {x : WorkStep} (hs : (surroundings m₀ i o).Lawful s)
    (hc : s.HasOpened c) (hx : ∀ m, x.mark? = some m → ∀ seconds, o.Makes c.job seconds m) :
    (x.perform c).Secures (taskSurroundings m₀ i o) (Performed i c.job x s) s := by
  cases x with
  | progress percent => exact secures_act (reportProgress_secures c percent hs)
  | setResult payload => exact secures_act (finish_secures hs hc (hx _ rfl) rfl)
  | setFailed message detail => exact secures_act (finish_secures hs hc (hx _ rfl) rfl)
  | setUnserializable reason => exact secures_act (secures_result fun t _ hst => ⟨hst, rfl⟩)
  | awaitSignal =>
    exact secures_wait fun t _ hst => secures_taskResult fun u _ htu => Carried.of_follows (hst.trans htu)
  | sleep ms =>
    exact secures_wait fun t _ hst => secures_taskResult fun u _ htu => Carried.of_follows (hst.trans htu)

/-- What steps come to that are performed up to the first error. -/
structure Worked (i : Nat) (id : JobId) (steps : List WorkStep) (ending : WorkEnd) (s : Scene) (e : WorkEnd)
    (t : Scene) : Prop where
  evolves : Evolves s t
  reaches : WorkStep.Reaches steps ending e
  standing : ∀ y, s.Standing i id y → t.Standing i id (y.or (Work.course ending steps).1)
  through : t.HasFailed i ∨ e = (Work.course ending steps).2

theorem Worked.cons {id : JobId} {x : WorkStep} {xs : List WorkStep} {ending e : WorkEnd}
    (hx : Performed i id x s (.ok ()) t) (h : Worked i id xs ending t e u) :
    Worked i id (x :: xs) ending s e u := by
  have hne : ∀ reason, x ≠ .setUnserializable reason := by
    rintro reason rfl
    cases hx.2
  have hcarried : Carried i id x.mark? s (.ok ()) t := by
    cases x with
    | setUnserializable reason => exact absurd rfl (hne reason)
    | _ => exact hx
  constructor
  case evolves => exact hcarried.evolves.trans h.evolves
  case reaches => exact h.reaches.cons
  case standing =>
    intro y hy
    rw [Work.course_cons hne, ← Option.or_assoc]
    exact h.standing _ (hcarried.standing y hy)
  case through =>
    rw [Work.course_cons hne]
    exact h.through

private theorem Worked.of_error {id : JobId} {x : WorkStep} {xs : List WorkStep} {ending : WorkEnd} {e : JobError}
    (hx : Performed i id x s (.error e) t) : Worked i id (x :: xs) ending s (.ofError e) t := by
  have hcarried : ∀ {k}, Carried i id k s (.error e) t → Worked i id (x :: xs) ending s (.ofError e) t := by
    intro k hk
    obtain ⟨hf, f, rfl⟩ := hk.failing e rfl
    exact ⟨hk.evolves, .failure f, fun _ _ => .inl hf, .inl hf⟩
  cases x with
  | setUnserializable reason =>
    obtain ⟨hst, he⟩ := hx
    obtain rfl := Except.error.inj he
    refine ⟨hst.evolves, .unserializable List.mem_cons_self, ?_, .inr rfl⟩
    intro y hy
    simpa [Work.course] using hy.follows hst
  | _ => exact hcarried hx

private theorem performAll_secures {c : JobContext} {ending : WorkEnd} {steps : List WorkStep}
    (hs : (surroundings m₀ i o).Lawful s) (hc : s.HasOpened c)
    (hm : ∀ x ∈ steps, ∀ m, x.mark? = some m → ∀ seconds, o.Makes c.job seconds m) :
    (WorkStep.performAll c ending steps).Secures (taskSurroundings m₀ i o) (Worked i c.job steps ending s) s := by
  induction steps generalizing s with
  | nil =>
    apply secures_taskResult
    intro t ht hst
    refine ⟨hst.evolves, .through, ?_, .inr rfl⟩
    intro y hy
    simpa [Work.course] using hy.follows hst
  | cons x xs ih =>
    have hx := perform_secures hs hc (hm x List.mem_cons_self)
    apply Dialogue.Secures.bind (show (taskSurroundings m₀ i o).Lawful s from hs)
    apply hx.mono
    intro a t ht ha
    cases a with
    | error e =>
      apply secures_taskResult
      intro u hu htu
      have hw : Worked i c.job (x :: xs) ending s (.ofError e) t := .of_error ha
      exact ⟨hw.evolves.trans htu.evolves, hw.reaches, fun y hy => (hw.standing y hy).follows htu,
        hw.through.imp_left htu.hasFailed⟩
    | ok r =>
      have hst : Evolves s t := by
        cases x with
        | setUnserializable reason => cases ha.2
        | _ => exact Carried.evolves ha
      have hxs := ih ht (hst.hasOpened hc) fun y hy => hm y (List.mem_cons_of_mem _ hy)
      exact hxs.mono fun e u _ he => Worked.cons ha he

/-- What a task leaves behind that records the end of work. -/
structure Settled (m : Manager) (i : Nat) (id : JobId) (x : Mark) (s t : Scene) : Prop where
  evolves : Evolves s t
  standing : ∀ y, s.Standing i id y → t.Standing i id (y.or (some x))
  hasEnded : t.HasFailed i ∨ t.HasEnded id
  untracked : t.host.isTracked m.number id = false

private theorem settle_secures {m : Manager} {c : JobContext} {ending : WorkEnd} (hs : (surroundings m₀ i o).Lawful s)
    (hc : s.HasOpened c) (hm : ∀ seconds, o.Makes c.job seconds ending.mark) :
    (Work.settle m c ending).Secures (surroundings m₀ i o) (fun _ t => Settled m i c.job ending.mark s t) s := by
  have hlacks := (hs.2.stored_of_hasOpened hs.1 hc).1
  apply secures_isCompleted hc
  intro b t ht hst hb
  have hct := hst.evolves.hasOpened hc
  cases ho : Work.outcome b ending with
  | none =>
    have he := hb (Work.completed_of_outcome_eq_none ho)
    simp only [Dialogue.andThen, ho]
    apply secures_untrack
    intro d u hu htu hd
    apply secures_result
    intro v hv huv
    have hsv : Follows i [] s v := hst.trans (htu.trans huv)
    have hev : v.HasEnded c.job := (htu.evolves.trans huv.evolves).hasEnded he
    constructor
    case evolves => exact hsv.evolves
    case standing =>
      intro y hy
      exact (hy.follows hsv).or_of_hasEnded hv.1 hlacks hev _
    case hasEnded => exact .inr hev
    case untracked => exact huv.evolves.untracked (htu.evolves.hasOpened hct) hd
  | some x =>
    obtain rfl := Work.outcome_eq_some ho
    simp only [Dialogue.andThen, ho]
    apply Dialogue.Secures.bind ht
    apply (finish_secures ht hct hm ending.mark_isTerminal).mono
    intro a u hu ha
    apply secures_untrack
    intro d v hv huv hd
    apply secures_result
    intro w hw hvw
    have huw := huv.trans hvw
    constructor
    case evolves => exact hst.evolves.trans (ha.evolves.trans huw.evolves)
    case standing =>
      intro y hy
      exact (ha.standing y (hy.follows hst)).follows huw
    case hasEnded =>
      cases a with
      | error e => exact .inl (huw.hasFailed (ha.failing e rfl).1)
      | ok r => exact .inr (huw.evolves.hasEnded (ha.hasEnded rfl rfl))
    case untracked => exact hvw.evolves.untracked (huv.evolves.hasOpened (ha.evolves.hasOpened hct)) hd

/-- Whatever happens to the job meanwhile, a task leaves it ended unless a call of the task failed, with the
outcome of its work unless another process ended it, and tracked by its manager no longer. -/
theorem work_secures {m : Manager} {c : JobContext} {steps : List WorkStep} {ending : WorkEnd}
    (ho : o = .spawn m c (.steps steps ending)) (hc : s.HasOpened c)
    (hown : s.endingsOf i = []) :
    ((Work.steps steps ending).task m c).Secures (taskSurroundings m₀ i o) (fun _ t => t.HasOpened c ∧
      t.Standing i c.job (some (Work.mark ending steps)) ∧ (t.HasFailed i ∨ t.HasEnded c.job) ∧
        t.host.isTracked m.number c.job = false) s := by
  have hstep : ∀ x ∈ steps, ∀ k, x.mark? = some k → ∀ seconds, o.Makes c.job seconds k := by
    subst ho
    exact fun x hx k hk _ => ⟨rfl, .inl ⟨x, hx, hk⟩⟩
  have hend : ∀ e, WorkStep.Reaches steps ending e → ∀ seconds, o.Makes c.job seconds e.mark := by
    subst ho
    exact fun e he _ => ⟨rfl, .inr ⟨e, he, rfl⟩⟩
  apply secures_wait
  intro t ht hst
  have hct := hst.evolves.hasOpened hc
  apply Dialogue.Secures.bind ht
  apply (performAll_secures ht hct hstep).mono
  intro e u hu he
  apply secures_wait
  intro v hv huv
  apply secures_act
  have hcv := huv.evolves.hasOpened (he.evolves.hasOpened hct)
  apply (settle_secures hv hcv (hend e he.reaches)).mono
  intro _ w hlaw hw
  refine ⟨hw.evolves.hasOpened hcv, ?_, hw.hasEnded, hw.untracked⟩
  rcases he.through with hf | rfl
  · exact hw.standing (some (Work.mark ending steps)) (Standing.follows (.inl hf) huv)
  · have hnone : t.Standing i c.job none := .inr (.inr (by simpa [hown] using hst.endingsOf))
    have hstand := hw.standing _ ((he.standing none hnone).follows huv)
    rw [Work.mark]
    cases hx : (Work.course ending steps).1 <;> simpa [hx] using hstand

end Scene

end JobLedger
