import JobLedger.Proofs.Operations

/-!
# Worlds as they go on

Every world that a run reaches is sound: its store and its log account for each other, and each operation
under way goes on to secure its answer. A move is a step of one process and interference to the others.
-/
namespace JobLedger.World

open Scene (taskSurroundings surroundings Evolves Answered)

variable {m₀ : Memory} {w v : World}

/-- What a move does to a world. -/
inductive Moved (w : World) : World → Prop where
  | stay : Moved w w
  | tick (now : Instant) : Moved w { w with host := { w.host with clock := now } }
  | begin (o : Operation) (h : w.allows o = true) : Moved w { w with processes := w.processes ++ [⟨o, o.task⟩] }
  | request (f? : Option StoreFailure) {i : Nat} {o : Operation} {q : Request} {k : q.Answer → Task o.Result}
    (h : w.processes[i]? = some ⟨o, .ask (.request q) k⟩) :
    Moved w ⟨(w.ask f? i o q).2, w.processes.set i ⟨o, k (w.ask f? i o q).1⟩⟩
  | wake {i : Nat} {o : Operation} {x : Wait} {k : Unit → Task o.Result}
    (h : w.processes[i]? = some ⟨o, .ask (.wait x) k⟩) (hx : w.isOver x = true) :
    Moved w { w with processes := w.processes.set i ⟨o, k ()⟩ }

/-- A process after another began is an old one or this one. -/
theorem process_begin {ps : List Process} {i : Nat} {p p' : Process} (h : (ps ++ [p'])[i]? = some p) :
    ps[i]? = some p ∨ i = ps.length ∧ p = p' := by
  rcases Nat.lt_trichotomy i ps.length with hlt | rfl | hgt
  · rw [List.getElem?_append_left hlt] at h
    exact .inl h
  · rw [List.getElem?_append_right (Nat.le_refl _), Nat.sub_self, List.getElem?_cons_zero] at h
    exact .inr ⟨rfl, (Option.some.inj h).symm⟩
  · have hlt := (List.getElem?_eq_some_iff.mp h).1
    rw [List.length_append, List.length_singleton] at hlt
    omega

/-- A process after one went on is this one or another. -/
theorem process_set {ps : List Process} {i j : Nat} {p p' : Process} (h : (ps.set j p')[i]? = some p) :
    j = i ∧ p = p' ∨ j ≠ i ∧ ps[i]? = some p := by
  by_cases hij : j = i
  · subst hij
    have hlt := (List.getElem?_eq_some_iff.mp h).1
    rw [List.length_set] at hlt
    rw [List.getElem?_set_self hlt] at h
    exact .inl ⟨rfl, (Option.some.inj h).symm⟩
  · rw [List.getElem?_set_ne hij] at h
    exact .inr ⟨hij, h⟩

theorem moved_advance (f? : Option StoreFailure) (i : Nat) (w : World) : Moved w (w.advance f? i) := by
  unfold advance
  split
  · rename_i o q k h
    exact .request f? h
  · rename_i o x k h
    split
    case isTrue hx => exact .wake h hx
    case isFalse => exact .stay
  · exact .stay

theorem moved_move (w : World) (x : Move) : Moved w (w.move x) := by
  cases x with
  | tick now => exact .tick now
  | begin o =>
    cases ho : w.allows o with
    | true =>
      rw [move, if_pos ho]
      exact .begin o ho
    | false =>
      rw [move, if_neg (by simp [ho])]
      exact .stay
  | step i => exact moved_advance none i w
  | fail i f => exact moved_advance (some f) i w

/-- The store and the log account for each other, and every process secures its answer. -/
structure Sound (m₀ : Memory) (w : World) : Prop where
  ledger : w.Ledger m₀
  handles : w.Handles
  numbered : ∀ e ∈ w.log, e.process < w.processes.length
  secured : ∀ {i : Nat} {p : Process}, w.processes[i]? = some p →
    p.rest.Secures (taskSurroundings m₀ i p.operation) (Answered i p.operation) w.toScene

theorem Sound.lawful (h : w.Sound m₀) (i : Nat) (o : Operation) : (surroundings m₀ i o).Lawful w.toScene :=
  ⟨h.ledger, h.handles⟩

theorem Sound.mayAsk (h : w.Sound m₀) {i : Nat} {o : Operation} {q : Request} {k : q.Answer → Task o.Result}
    (hp : w.processes[i]? = some ⟨o, .ask (.request q) k⟩) : w.MayAsk m₀ i o q :=
  (h.secured hp w.toScene (h.lawful i o) ⟨.refl _, rfl⟩).1

/-- What has been answered stands. -/
theorem Sound.answered (h : w.Sound m₀) {i : Nat} {o : Operation} {a : o.Result}
    (hp : w.processes[i]? = some ⟨o, .done a⟩) : w.Answered i o a :=
  (h.secured hp).result (h.lawful i o)

theorem Sound.hasOpened_of_yields (h : w.Sound m₀) {c : JobContext}
    (hc : w.processes.any (Process.yields c) = true) : w.HasOpened c := by
  obtain ⟨p, hp, hy⟩ := List.any_eq_true.mp hc
  obtain ⟨i, hi⟩ := List.getElem?_of_mem hp
  unfold Process.yields at hy
  split at hy
  · rename_i m id request r d
    obtain rfl := eq_of_beq hy
    exact (h.answered hi r d rfl).2.2.1
  · cases hy

theorem Sound.evolves_moved (h : w.Sound m₀) (hv : w.Moved v) : Evolves w.toScene v.toScene := by
  cases hv with
  | stay => exact .refl _
  | tick now => exact .of_store_eq rfl (List.append_nil _).symm fun _ hm => hm
  | begin o ho => exact .refl _
  | request f? hp => exact Scene.evolves_ask f? h.ledger h.handles (h.mayAsk hp)
  | wake hp => exact .refl _

private theorem Sound.lawful_moved (h : w.Sound m₀) (hv : w.Moved v) : v.Ledger m₀ ∧ v.Handles := by
  cases hv with
  | stay => exact ⟨h.ledger, h.handles⟩
  | tick now =>
    have hst := h.evolves_moved (.tick now)
    constructor
    · constructor
      case toAccounted => exact h.ledger.toAccounted.of_store_eq rfl hst
      case entry =>
        intro e he
        exact (h.ledger.entry e he).evolves hst
      case createdOnce => exact h.ledger.createdOnce
      case endedOnce => exact h.ledger.endedOnce
    · exact ⟨h.handles.opened, h.handles.openedOnce, h.handles.completed⟩
  | begin o ho => exact ⟨h.ledger, h.handles⟩
  | request f? hp => exact ⟨h.ledger.ask h.handles (h.mayAsk hp), h.handles.ask h.ledger (h.mayAsk hp)⟩
  | wake hp => exact ⟨h.ledger, h.handles⟩

/-- A process goes on to secure what it secured before, by its own steps as by those of others. -/
theorem Sound.secures_moved (h : w.Sound m₀) (hv : w.Moved v) {i : Nat} {o : Operation} {d : Task o.Result}
    {Q : o.Result → Scene → Prop} (hp : w.processes[i]? = some ⟨o, d⟩)
    (hd : d.Secures (taskSurroundings m₀ i o) Q w.toScene) :
    ∃ d', v.processes[i]? = some ⟨o, d'⟩ ∧ d'.Secures (taskSurroundings m₀ i o) Q v.toScene := by
  have hst := h.evolves_moved hv
  have hlaw := h.lawful_moved hv
  cases hv with
  | stay => exact ⟨d, hp, hd⟩
  | tick now => exact ⟨d, hp, hd.others ⟨hst, rfl⟩⟩
  | begin o' ho =>
    have hlt : i < w.processes.length := (List.getElem?_eq_some_iff.mp hp).1
    exact ⟨d, by rw [List.getElem?_append_left hlt, hp], hd⟩
  | @request f? j o' q k hj =>
    by_cases hij : j = i
    · subst hij
      obtain ⟨rfl, rfl⟩ := Process.mk.inj (Option.some.inj (hp.symm.trans hj))
      have hlt : j < w.processes.length := (List.getElem?_eq_some_iff.mp hp).1
      obtain ⟨-, hk⟩ := hd w.toScene (h.lawful j o) ⟨.refl _, rfl⟩
      have hsec := hk _ _ ⟨⟨f?, rfl⟩, hst⟩ hlaw
      exact ⟨k (w.ask f? j o q).1, by simp [List.getElem?_set_self hlt], hsec⟩
    · have hown : (w.ask f? j o' q).2.own i = w.own i := Scene.own_ask_of_ne (Ne.symm hij)
      exact ⟨d, by rw [List.getElem?_set_ne hij, hp], hd.others ⟨hst, hown⟩⟩
  | @wake j o' x k hj =>
    by_cases hij : j = i
    · subst hij
      obtain ⟨rfl, rfl⟩ := Process.mk.inj (Option.some.inj (hp.symm.trans hj))
      have hlt : j < w.processes.length := (List.getElem?_eq_some_iff.mp hp).1
      obtain ⟨-, hk⟩ := hd w.toScene (h.lawful j o) ⟨.refl _, rfl⟩
      exact ⟨k (), by simp [List.getElem?_set_self hlt], hk () _ rfl hlaw⟩
    · exact ⟨d, by rw [List.getElem?_set_ne hij, hp], hd⟩

private theorem Sound.numbered_moved (h : w.Sound m₀) (hv : w.Moved v) :
    w.processes.length ≤ v.processes.length ∧ ∀ e ∈ v.log, e.process < v.processes.length := by
  cases hv with
  | stay => exact ⟨Nat.le_refl _, h.numbered⟩
  | tick now => exact ⟨Nat.le_refl _, h.numbered⟩
  | begin o ho =>
    have hlen : (w.processes ++ [(⟨o, o.task⟩ : Process)]).length = w.processes.length + 1 := by simp
    rw [hlen]
    refine ⟨Nat.le_succ _, ?_⟩
    intro e he
    exact Nat.lt_succ_of_lt (h.numbered e he)
  | @request f? i o q k hi =>
    rw [List.length_set]
    refine ⟨Nat.le_refl _, ?_⟩
    intro e he
    rcases Scene.mem_ask_log.mp he with he | rfl
    · exact h.numbered e he
    · exact (List.getElem?_eq_some_iff.mp hi).1
  | wake hi => exact ⟨by simp, by simpa using h.numbered⟩

/-- The next process to begin has done nothing. -/
theorem Sound.own_eq_nil (h : w.Sound m₀) : w.own w.processes.length = [] := by
  apply List.filter_eq_nil_iff.mpr
  intro e he
  simpa using Nat.ne_of_lt (h.numbered e he)

theorem Sound.moved (h : w.Sound m₀) (hv : w.Moved v) : v.Sound m₀ := by
  have hlaw := h.lawful_moved hv
  have hold : ∀ {i : Nat} {p p' : Process}, w.processes[i]? = some p' → v.processes[i]? = some p →
      p.rest.Secures (taskSurroundings m₀ i p.operation) (Answered i p.operation) v.toScene := by
    intro i p p' hi hp
    obtain ⟨d, hd, hsec⟩ := h.secures_moved hv hi (h.secured hi)
    obtain rfl := Option.some.inj (hd.symm.trans hp)
    exact hsec
  refine ⟨hlaw.1, hlaw.2, (h.numbered_moved hv).2, ?_⟩
  intro i p hp
  cases hv with
  | stay => exact hold hp hp
  | tick now => exact hold hp hp
  | begin o ho =>
    rcases process_begin hp with hi | ⟨rfl, rfl⟩
    · exact hold hi hp
    · apply Scene.operation_secures o hlaw h.own_eq_nil
      intro c hc
      apply h.hasOpened_of_yields
      simpa [allows, hc] using ho
  | request f? hj =>
    rcases process_set hp with ⟨rfl, -⟩ | ⟨-, hi⟩
    · exact hold hj hp
    · exact hold hi hp
  | wake hj hx =>
    rcases process_set hp with ⟨rfl, -⟩ | ⟨-, hi⟩
    · exact hold hj hp
    · exact hold hi hp

theorem start_sound (now : Instant) (hm : m₀.Keyed) : (start now m₀).Sound m₀ := by
  have hlog : ∀ {e : Event} {P : Prop}, e ∈ (start now m₀).log → P := fun h => absurd h List.not_mem_nil
  have hlacks : ∀ {id r} {P : Prop}, (start now m₀).stored id = some r → m₀.Lacks id → P := fun h hl =>
    absurd (h.symm.trans hl) (Option.some_ne_none _)
  have hacc : (start now m₀).Accounted m₀ := by
    constructor
    case keyed => exact hm
    case lacks => exact fun h => h
    case wellFormed => exact hlacks
    case ended => exact fun h hl _ => hlacks h hl
  constructor
  case ledger => exact ⟨hacc, fun _ => hlog, fun _ h => hlog h, List.nodup_nil⟩
  case handles =>
    constructor
    case opened => exact fun _ => hlog
    case openedOnce => exact fun _ _ ⟨_, h, _⟩ => hlog h
    case completed => exact fun _ h => absurd h List.not_mem_nil
  case numbered => exact fun _ => hlog
  case secured =>
    intro i p h
    simp [start] at h

theorem Sound.run (h : w.Sound m₀) (xs : List Move) : (w.run xs).Sound m₀ :=
  run_induction h (fun w x hw => hw.moved (moved_move w x)) xs

/-- Every world that a run reaches is sound. -/
theorem Reachable.sound (hm : m₀.Keyed) (h : w.Reachable m₀) : w.Sound m₀ := by
  obtain ⟨now, xs, rfl⟩ := h
  exact (start_sound now hm).run xs

/-- What holds at first and is kept by every move of a sound world holds in every world that a run reaches. -/
theorem Reachable.induction {P : World → Prop} (hm : m₀.Keyed) (hw : w.Reachable m₀)
    (hstart : ∀ now, P (start now m₀)) (hmove : ∀ {w : World} (x : Move), w.Sound m₀ → P w → P (w.move x)) :
    P w := by
  obtain ⟨now, xs, rfl⟩ := hw
  have hboth : ((start now m₀).run xs).Sound m₀ ∧ P ((start now m₀).run xs) := by
    apply run_induction (P := fun w => w.Sound m₀ ∧ P w) ⟨start_sound now hm, hstart now⟩
    intro w x h
    exact ⟨h.1.moved (moved_move w x), hmove x h.1 h.2⟩
  exact hboth.2

theorem Sound.evolves_run (h : w.Sound m₀) (xs : List Move) : Evolves w.toScene (w.run xs).toScene := by
  induction xs generalizing w with
  | nil => exact .refl _
  | cons x xs ih => exact (h.evolves_moved (moved_move w x)).trans (ih (h.moved (moved_move w x)))

theorem Sound.secures_run (h : w.Sound m₀) {i : Nat} {o : Operation} {d : Task o.Result}
    {Q : o.Result → Scene → Prop} (hp : w.processes[i]? = some ⟨o, d⟩)
    (hd : d.Secures (taskSurroundings m₀ i o) Q w.toScene) (xs : List Move) :
    ∃ d', (w.run xs).processes[i]? = some ⟨o, d'⟩ ∧
      d'.Secures (taskSurroundings m₀ i o) Q (w.run xs).toScene := by
  induction xs generalizing w d with
  | nil => exact ⟨d, hp, hd⟩
  | cons x xs ih =>
    obtain ⟨d', hp', hd'⟩ := h.secures_moved (moved_move w x) hp hd
    exact ih (h.moved (moved_move w x)) hp' hd'

/-- A manager for samples. -/
def sampleManager : Manager := ⟨0, ⟨"a"⟩, Manager.defaultPollInterval⟩

/-- The world after a job was created with nothing else under way. -/
def sample : World :=
  (start .epoch .empty).run
    [.begin (.create sampleManager ⟨1⟩ ⟨"n", 60, none, none⟩), .step 0, .step 0, .step 0]

/-- The context of the job. -/
def sampleContext : JobContext := ⟨0, ⟨1⟩⟩

/-- The record of the job. -/
def sampleRecord : JobRecord := .accepted ⟨1⟩ ⟨"n", 60, none, none⟩ ⟨"a"⟩ .epoch

theorem sample_reachable (moves : List Move) : (sample.run moves).Reachable .empty :=
  ⟨.epoch, _, (run_append _ _ moves).symm⟩

end JobLedger.World
