import JobLedger.Proofs.Ledger

/-!
# Requests under interference

What a process may conclude from the answer to a request. An earlier look at a record stays good for its
origin, and for the whole record once it has ended; what the process itself did to end jobs changes only with
its own requests.
-/
namespace JobLedger.Scene

open JobRecord (Mark)

variable {m₀ : Memory} {s t u : Scene} {i : Nat} {o : Operation} {q : Request}

/-- A later scene in which the process has ended jobs with some more records. -/
structure Follows (i : Nat) (rs : List JobRecord) (s t : Scene) : Prop where
  evolves : Evolves s t
  endingsOf : t.endingsOf i = s.endingsOf i ++ rs
  hasFailed : s.HasFailed i → t.HasFailed i

theorem Follows.trans {rs rs' : List JobRecord} (h : Follows i rs s t) (h' : Follows i rs' t u) :
    Follows i (rs ++ rs') s u := by
  constructor
  case evolves => exact h.evolves.trans h'.evolves
  case endingsOf => rw [h'.endingsOf, h.endingsOf, List.append_assoc]
  case hasFailed =>
    intro hf
    exact h'.hasFailed (h.hasFailed hf)

theorem Follows.trans_nil {rs : List JobRecord} (h : Follows i rs s t) (h' : Follows i [] t u) :
    Follows i rs s u := by
  simpa using h.trans h'

theorem Follows.of_others (h : (surroundings m₀ i o).Others s t) : Follows i [] s t := by
  obtain ⟨hst, hown⟩ := h
  constructor
  case evolves => exact hst
  case endingsOf => rw [Scene.endingsOf, Scene.endingsOf, hown, List.append_nil]
  case hasFailed =>
    rintro ⟨e, he, hf⟩
    exact ⟨e, by rwa [hown], hf⟩

/-- What an answer adds to what the process did. -/
theorem own_of_answers {a : q.Answer} (h : (surroundings m₀ i o).Answers q s a t) :
    t.own i = s.own i ++ [⟨i, o, q, a⟩] := by
  obtain ⟨⟨f?, hf⟩, -⟩ := h
  obtain ⟨rfl, rfl⟩ := Prod.mk.inj hf
  exact own_ask

theorem mem_own_of_answers {a : q.Answer} (h : (surroundings m₀ i o).Answers q s a t) :
    ⟨i, o, q, a⟩ ∈ t.own i := by
  rw [own_of_answers h]
  exact List.mem_append_right _ (List.mem_singleton_self _)

private theorem Follows.of_answers {a : q.Answer} (h : (surroundings m₀ i o).Answers q s a t) :
    Follows i (Event.ending? ⟨i, o, q, a⟩).toList s t := by
  have hown := own_of_answers h
  constructor
  case evolves => exact h.2
  case endingsOf => cases he : Event.ending? ⟨i, o, q, a⟩ <;> simp [Scene.endingsOf, hown, he]
  case hasFailed =>
    rintro ⟨e, he, hf⟩
    refine ⟨e, ?_, hf⟩
    rw [hown]
    exact List.mem_append_left _ he

/-- A call of the process failed, and with this error. -/
def Failing (i : Nat) (e : JobError) (s : Scene) : Prop :=
  s.HasFailed i ∧ ∃ f : StoreFailure, e = f.error.toJobError

theorem Failing.follows {e : JobError} {rs : List JobRecord} (h : s.Failing i e) (hst : Follows i rs s t) :
    t.Failing i e :=
  ⟨hst.hasFailed h.1, h.2⟩

/-- The record was read from the store. -/
structure Glimpse (m₀ : Memory) (r : JobRecord) (s : Scene) : Prop where
  stored : ∃ x, s.stored r.id = some x ∧ x.origin = r.origin ∧ (r.isTerminal = true → x = r)
  wellFormed : m₀.Lacks r.id → r.WellFormed

theorem Glimpse.of_stored (hl : s.Ledger m₀) {id : JobId} {r : JobRecord} (h : s.stored id = some r) :
    s.Glimpse m₀ r := by
  obtain rfl := hl.keyed.id_eq h
  exact ⟨⟨r, h, rfl, fun _ => rfl⟩, hl.wellFormed h⟩

theorem Glimpse.evolves {r : JobRecord} (h : s.Glimpse m₀ r) (hst : Evolves s t) : t.Glimpse m₀ r := by
  obtain ⟨x, hx, ho, hr⟩ := h.stored
  obtain ⟨y, hy, hoy, hxy⟩ := hst.kept hx
  refine ⟨⟨y, hy, hoy.trans ho, ?_⟩, h.wellFormed⟩
  intro hterm
  obtain rfl := hr hterm
  exact hxy hterm

theorem Glimpse.stored_of_terminal {r : JobRecord} (h : s.Glimpse m₀ r) (hr : r.isTerminal = true) :
    s.stored r.id = some r := by
  obtain ⟨x, hx, -, hxr⟩ := h.stored
  rw [hx, hxr hr]

/-- A mark on a record that was read open may be written, however long ago it was read. -/
theorem Glimpse.mayWrite {r : JobRecord} {m : Mark} (h : s.Glimpse m₀ r) (hr : r.isTerminal = false)
    (hm : m.isTerminal = true → o.Makes r.id r.timeoutSeconds m) (now : Instant) :
    s.MayWrite m₀ o (r.marked now m) := by
  constructor
  case origin =>
    obtain ⟨x, hx, ho, -⟩ := h.stored
    exact ⟨x, by rw [JobRecord.marked_id, hx], by rw [JobRecord.marked_origin, ho]⟩
  case state =>
    rw [JobRecord.marked_state]
    exact m.state_ne_accepted
  case wellFormed =>
    intro hl
    rw [JobRecord.marked_id] at hl
    exact (h.wellFormed hl).marked hr now m
  case made =>
    intro hterm
    rw [JobRecord.marked_isTerminal] at hterm
    rw [JobRecord.marked_id, JobRecord.marked_timeoutSeconds, JobRecord.marked_state]
    exact ⟨m, hm hterm, rfl, fun hl => (h.wellFormed hl).marked_outcome hr now m⟩

/-- The answers to a call to replace a record of the store. -/
inductive Update (i : Nat) (r : JobRecord) (s t : Scene) : Except StoreError JobRecord → Prop where
  | failed (f : StoreFailure) (hf : t.HasFailed i) (hst : Follows i [] s t) : Update i r s t (.error f.error)
  | overtaken (x : JobRecord) (hx : t.stored r.id = some x) (hterm : x.isTerminal = true)
    (hst : Follows i [] s t) : Update i r s t (.error (.alreadyTerminal r.id x.state))
  | written (now : Instant) (ht : t.stored r.id = some (r.stamped now))
    (hst : Follows i ([r.stamped now].filter JobRecord.isTerminal) s t) : Update i r s t (.ok (r.stamped now))

theorem hasFailed_of_answers {c : StoreCall} {e : StoreError}
    (h : (surroundings m₀ i o).Answers (.store c) s (.error e) t) (he : e.isFailure = true) : t.HasFailed i :=
  ⟨⟨i, o, .store c, .error e⟩, mem_own_of_answers h, he⟩

private theorem update_of_answers {r : JobRecord} {a : Except StoreError JobRecord} (hw : s.MayWrite m₀ o r)
    (h : (surroundings m₀ i o).Answers (.store (.update r)) s a t) : Update i r s t a := by
  have hst := Follows.of_answers h
  obtain ⟨f?, hf⟩ := h.1
  cases f? with
  | some f =>
    rw [ask_fail] at hf
    obtain ⟨rfl, rfl⟩ := Prod.mk.inj hf
    exact .failed f (hasFailed_of_answers h f.isFailure_error) hst
  | none =>
    obtain ⟨x, hx, -⟩ := hw.origin
    cases hterm : x.isTerminal with
    | true =>
      rw [ask_update_of_terminal hx hterm] at hf
      obtain ⟨rfl, rfl⟩ := Prod.mk.inj hf
      exact .overtaken x hx hterm hst
    | false =>
      rw [ask_update hx hterm] at hf
      obtain ⟨rfl, rfl⟩ := Prod.mk.inj hf
      refine .written s.host.clock ?_ ?_
      · rw [stored_insert (s := s) (r := r.stamped s.host.clock) rfl, if_pos]
        rfl
      · cases hr : r.isTerminal <;> simpa [Event.ending?, Event.written?, Option.filter_some, hr] using hst

section
variable {α : Type} {Q : α → Scene → Prop}

/-- A request that is always possible and ends no job. -/
theorem secures_quiet {k : q.Answer → Action α} (hq : ∀ t : Scene, t.MayAsk m₀ i o q)
    (he : ∀ a, Event.written? ⟨i, o, q, a⟩ = none)
    (hk : ∀ a t, (surroundings m₀ i o).Lawful t → Follows i [] s t →
      (k a).Secures (surroundings m₀ i o) Q t) :
    (Dialogue.ask q k : Action α).Secures (surroundings m₀ i o) Q s := by
  intro t ht hst
  refine ⟨hq t, ?_⟩
  intro a u ha hu
  have htu := Follows.of_answers ha
  rw [Event.ending?_of_written?_none (he a)] at htu
  exact hk a u hu ((Follows.of_others hst).trans htu)

theorem secures_clock {k : Instant → Action α}
    (hk : ∀ now t, (surroundings m₀ i o).Lawful t → Follows i [] s t →
      (k now).Secures (surroundings m₀ i o) Q t) :
    (Dialogue.ask .clock k : Action α).Secures (surroundings m₀ i o) Q s :=
  secures_quiet (fun _ => trivial) (fun _ => rfl) hk

theorem secures_signal {n : Nat} {id : JobId} {k : Bool → Action α}
    (hk : ∀ b t, (surroundings m₀ i o).Lawful t → Follows i [] s t →
      (k b).Secures (surroundings m₀ i o) Q t) :
    (Dialogue.ask (.signal n id) k : Action α).Secures (surroundings m₀ i o) Q s :=
  secures_quiet (fun _ => trivial) (fun _ => rfl) hk

/-- A look at a job fails, or finds no record, or reads the record. -/
theorem secures_get {id : JobId} {k : Except StoreError (Option JobRecord) → Action α}
    (hfail : ∀ f t, (surroundings m₀ i o).Lawful t → Follows i [] s t → t.HasFailed i →
      (k (.error (StoreFailure.error f))).Secures (surroundings m₀ i o) Q t)
    (hnone : ∀ t, (surroundings m₀ i o).Lawful t → Follows i [] s t → t.stored id = none →
      (k (.ok none)).Secures (surroundings m₀ i o) Q t)
    (hsome : ∀ r t, (surroundings m₀ i o).Lawful t → Follows i [] s t → t.Glimpse m₀ r → r.id = id →
      (k (.ok (some r))).Secures (surroundings m₀ i o) Q t) :
    (Dialogue.ask (.store (.get id)) k : Action α).Secures (surroundings m₀ i o) Q s := by
  intro t ht hst
  refine ⟨trivial, ?_⟩
  intro a u ha hu
  have hsu : Follows i [] s u := (Follows.of_others hst).trans (.of_answers ha)
  obtain ⟨f?, hf⟩ := ha.1
  cases f? with
  | some f =>
    obtain ⟨rfl, -⟩ := Prod.mk.inj hf
    exact hfail f u hu hsu (hasFailed_of_answers ha f.isFailure_error)
  | none =>
    obtain ⟨ha', hu'⟩ := Prod.mk.inj hf
    have hstored : u.stored id = t.stored id := hu' ▸ rfl
    have hread : a = .ok (u.stored id) := by
      rw [hstored]
      exact ha'.symm
    subst hread
    cases hx : u.stored id with
    | none => exact hnone u hu hsu hx
    | some r => exact hsome r u hu hsu (.of_stored hu.1 hx) (hu.1.keyed.id_eq hx)

theorem secures_findExpired {now : Instant} {k : Except StoreError (List JobRecord) → Action α}
    (hk : ∀ a t, (surroundings m₀ i o).Lawful t → Follows i [] s t →
      (∀ rs, a = .ok rs → ∀ r ∈ rs, t.Glimpse m₀ r) → (k a).Secures (surroundings m₀ i o) Q t) :
    (Dialogue.ask (.store (.findExpired now)) k : Action α).Secures (surroundings m₀ i o) Q s := by
  intro t ht hst
  refine ⟨trivial, ?_⟩
  intro a u ha hu
  apply hk a u hu ((Follows.of_others hst).trans (.of_answers ha))
  intro rs hrs r hr
  obtain ⟨f?, hf⟩ := ha.1
  obtain ⟨ha', -⟩ := Prod.mk.inj hf
  cases f? with
  | some f => cases ha'.trans hrs
  | none =>
    obtain rfl := Except.ok.inj (ha'.trans hrs)
    have hstored : t.stored r.id = some r := ht.1.keyed.get?_of_mem (List.mem_filter.mp hr).1
    exact (Glimpse.of_stored ht.1 hstored).evolves ha.2

theorem secures_update {r : JobRecord} {k : Except StoreError JobRecord → Action α} (hw : s.MayWrite m₀ o r)
    (hk : ∀ a t u, (surroundings m₀ i o).Lawful u → Follows i [] s t → Update i r t u a →
      (k a).Secures (surroundings m₀ i o) Q u) :
    (Dialogue.ask (.store (.update r)) k : Action α).Secures (surroundings m₀ i o) Q s := by
  intro t ht hst
  have hwt := hw.evolves hst.1
  refine ⟨hwt, ?_⟩
  intro a u ha hu
  exact hk a t u hu (.of_others hst) (update_of_answers hwt ha)

/-- Whether an outcome was recorded through a context of a job. -/
theorem secures_isCompleted {c : JobContext} {k : Bool → Action α} (hc : s.HasOpened c)
    (hk : ∀ b t, (surroundings m₀ i o).Lawful t → Follows i [] s t → (b = true → t.HasEnded c.job) →
      (k b).Secures (surroundings m₀ i o) Q t) :
    (Dialogue.ask (.isCompleted c.number) k : Action α).Secures (surroundings m₀ i o) Q s := by
  intro t ht hst
  refine ⟨trivial, ?_⟩
  intro b u hb hu
  apply hk b u hu ((Follows.of_others hst).trans (.of_answers hb))
  intro htrue
  obtain ⟨f?, hf⟩ := hb.1
  obtain ⟨rfl, -⟩ := Prod.mk.inj hf
  have hmem : c.number ∈ t.host.completed := List.contains_iff_mem.mp htrue
  exact hb.2.hasEnded (ht.2.hasEnded_of_completed (hst.1.hasOpened hc) hmem)

theorem secures_complete {c : JobContext} {k : Unit → Action α} (hc : s.HasOpened c) (he : s.HasEnded c.job)
    (hk : ∀ t, (surroundings m₀ i o).Lawful t → Follows i [] s t →
      (k ()).Secures (surroundings m₀ i o) Q t) :
    (Dialogue.ask (.complete c.number) k : Action α).Secures (surroundings m₀ i o) Q s := by
  intro t ht hst
  refine ⟨⟨c, hst.1.hasOpened hc, rfl, hst.1.hasEnded he⟩, ?_⟩
  intro a u ha hu
  exact hk u hu ((Follows.of_others hst).trans (.of_answers ha))

/-- No longer tracking a job is for ever. -/
theorem secures_untrack {n : Nat} {id : JobId} {k : Bool → Action α}
    (hk : ∀ b t, (surroundings m₀ i o).Lawful t → Follows i [] s t → t.host.isTracked n id = false →
      (k b).Secures (surroundings m₀ i o) Q t) :
    (Dialogue.ask (.untrack n id) k : Action α).Secures (surroundings m₀ i o) Q s := by
  intro t ht hst
  refine ⟨trivial, ?_⟩
  intro b u hb hu
  apply hk b u hu ((Follows.of_others hst).trans (.of_answers hb))
  obtain ⟨f?, hf⟩ := hb.1
  obtain ⟨-, rfl⟩ := Prod.mk.inj hf
  simp [answer, Host.answer, Host.isTracked, Table.contains, Table.get?_erase]

theorem secures_result {a : α}
    (hQ : ∀ t, (surroundings m₀ i o).Lawful t → Follows i [] s t → Q a t) :
    (Dialogue.done a : Action α).Secures (surroundings m₀ i o) Q s := by
  intro t ht hst
  exact hQ t ht (.of_others hst)

end

end JobLedger.Scene
