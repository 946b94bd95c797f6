import JobLedger.Proofs.Worlds

/-!
# Undisturbed cancellations

A cancellation reads the record and writes it later. While no other process writes the record in between,
what it answers is decided by what it read.
-/
namespace JobLedger

variable {m₀ : Memory} {i : Nat} {id : JobId} {l : List Event}

/-- After a request of the process another process wrote the record of the job. -/
def Passed (i : Nat) (id : JobId) (l : List Event) : Prop :=
  ∃ l₁ e l₂, l = l₁ ++ e :: l₂ ∧ (∃ d ∈ l₁, d.process = i) ∧ e.process ≠ i ∧ ∃ r, e.written? = some r ∧ r.id = id

/-- Between two requests of the process another process wrote the record of the job. -/
def Interrupted (i : Nat) (id : JobId) (l : List Event) : Prop :=
  ∃ l₁ d l₂, l = l₁ ++ d :: l₂ ∧ Passed i id l₁ ∧ d.process = i

theorem Passed.append (h : Passed i id l) (es : List Event) : Passed i id (l ++ es) := by
  obtain ⟨l₁, e, l₂, rfl, hd, he⟩ := h
  exact ⟨l₁, e, l₂ ++ es, by simp, hd, he⟩

theorem Interrupted.append (h : Interrupted i id l) (es : List Event) : Interrupted i id (l ++ es) := by
  obtain ⟨l₁, d, l₂, rfl, hp, hd⟩ := h
  exact ⟨l₁, d, l₂ ++ es, by simp, hp, hd⟩

namespace Scene

variable {s t : Scene} {o : Operation} {q : Request} {x : Option JobRecord}

/-- What the process read is still stored, or another process has written it since. -/
def Remains (i : Nat) (id : JobId) (x : Option JobRecord) (s : Scene) : Prop :=
  s.own i ≠ [] ∧ (Passed i id s.log ∨ s.stored id = x)

private theorem Evolves.interrupted (h : Evolves s t) (hs : Interrupted i id s.log) : Interrupted i id t.log := by
  obtain ⟨es, hes, -⟩ := h.logged
  rw [hes]
  exact hs.append es

theorem Remains.others (h : s.Remains i id x) (hst : (surroundings m₀ i o).Others s t) : t.Remains i id x := by
  obtain ⟨⟨es, hes, hkeep⟩, hown⟩ := And.intro hst.1.logged hst.2
  refine ⟨hown ▸ h.1, ?_⟩
  rcases h.2 with hp | hx
  · exact .inl (hes ▸ hp.append es)
  by_cases hw : ∃ e ∈ es, ∃ r, e.written? = some r ∧ r.id = id
  · obtain ⟨e, he, hr⟩ := hw
    have hnone : es.filter (fun e => e.process == i) = [] := by
      have h' := hown
      rw [own, hes, List.filter_append] at h'
      exact List.append_right_eq_self.mp h'
    have hne : e.process ≠ i := by simpa using List.filter_eq_nil_iff.mp hnone e he
    obtain ⟨d, hd⟩ := List.exists_mem_of_ne_nil _ h.1
    obtain ⟨hd, hdi⟩ := mem_own.mp hd
    obtain ⟨l₁, l₂, rfl⟩ := List.append_of_mem he
    have hsplit : t.log = (s.log ++ l₁) ++ e :: l₂ := by rw [hes, List.append_assoc]
    exact .inl ⟨s.log ++ l₁, e, l₂, hsplit, ⟨d, List.mem_append_left _ hd, hdi⟩, hne, hr⟩
  · have hkept : t.stored id = s.stored id := hkeep id fun e he r hr hid => hw ⟨e, he, r, hr, hid⟩
    exact .inr (hkept.trans hx)

private theorem log_of_answers {a : q.Answer} (h : (surroundings m₀ i o).Answers q s a t) :
    t.log = s.log ++ [⟨i, o, q, a⟩] := by
  obtain ⟨⟨f?, hf⟩, -⟩ := h
  obtain ⟨rfl, rfl⟩ := Prod.mk.inj hf
  rfl

private theorem stored_of_answers {a : q.Answer} (h : (surroundings m₀ i o).Answers q s a t)
    (ha : Event.written? ⟨i, o, q, a⟩ = none) (id : JobId) : t.stored id = s.stored id := by
  obtain ⟨⟨f?, hf⟩, -⟩ := h
  obtain ⟨rfl, rfl⟩ := Prod.mk.inj hf
  cases records f? i o q s with
  | nothing he ht => exact stored_congr ht id
  | created r hq he hs ht => exact absurd ((Event.written?_of_created? he).symm.trans ha) (Option.some_ne_none r)
  | updated r old now hq hc he hs ho ht => exact absurd (he.symm.trans ha) (Option.some_ne_none _)

theorem Remains.answers {a : q.Answer} (h : s.Remains i id x) (hst : (surroundings m₀ i o).Answers q s a t)
    (ha : Event.written? ⟨i, o, q, a⟩ = none) : t.Remains i id x := by
  refine ⟨List.ne_nil_of_mem (mem_own_of_answers hst), ?_⟩
  rcases h.2 with hp | hx
  · exact .inl (log_of_answers hst ▸ hp.append _)
  · exact .inr ((stored_of_answers hst ha id).trans hx)

/-- The answer to a cancellation that what it read decides. -/
def Decided (id : JobId) (x : Option JobRecord) (a : Except JobError JobRecord) : Prop :=
  match x with
  | none => a = .error (.notFound id)
  | some r => if r.isTerminal then a = .error (.conflict id r.state) else ∃ r', a = .ok r'

/-- The last request of a cancellation, a write of what it read: it is interrupted, fails or succeeds. -/
theorem Remains.update {r r' : JobRecord} {a : Except JobError JobRecord} {b : Except StoreError JobRecord}
    (h : s.Remains i r.id (some r)) (hr : r.isTerminal = false) (hid : r'.id = r.id)
    (hst : (surroundings m₀ i o).Answers (.store (.update r')) s b t)
    (ha : a = b.mapError StoreError.toJobError) :
    t.HasFailed i ∨ Interrupted i r.id t.log ∨ Decided r.id (some r) a := by
  rcases h.2 with hp | hx
  · exact .inr (.inl (log_of_answers hst ▸ ⟨s.log, _, [], rfl, hp, rfl⟩))
  obtain ⟨f?, hf⟩ := hst.1
  cases f? with
  | some f =>
    obtain ⟨rfl, -⟩ := Prod.mk.inj hf
    exact .inl (hasFailed_of_answers hst f.isFailure_error)
  | none =>
    rw [ask_update (hid ▸ hx) hr] at hf
    obtain ⟨rfl, -⟩ := Prod.mk.inj hf
    refine .inr (.inr ?_)
    subst ha
    simp only [Decided, hr, Bool.false_eq_true, if_false]
    exact ⟨_, rfl⟩

/-- What a cancellation does once it read the record. -/
def cancelFrom (m : Manager) (id : JobId) : Option JobRecord → Action (Except JobError JobRecord)
  | none => return .error (.notFound id)
  | some r =>
    if r.isTerminal then return .error (.conflict id r.state)
    else do
      let _ ← Action.signal m.number id
      match r.markCancelled (← Action.clock) with
      | .error e => return .error e
      | .ok next => return (← Action.call (.update next)).mapError StoreError.toJobError

theorem cancel_task_eq (m : Manager) (id : JobId) :
    (Operation.cancel m id).task = .ask (.request (.store (.get id))) fun a => match a with
      | .error e => .done (.error e.toJobError)
      | .ok x => Task.act (cancelFrom m id x) := by
  have hk : ∀ {k k' : _ → Task (Except JobError JobRecord)}, (∀ a, k a = k' a) →
      (Dialogue.ask (.request (.store (.get id))) k : Task _) = .ask (.request (.store (.get id))) k' :=
    fun h => congrArg _ (funext h)
  apply hk
  intro a
  rcases a with e | _ | r <;> rfl

theorem cancelFrom_secures {m : Manager} (hs : (surroundings m₀ i (.cancel m id)).Lawful s)
    (hown : s.own i ≠ []) (hx : s.stored id = x) : (cancelFrom m id x).Secures (surroundings m₀ i (.cancel m id))
      (fun a t => t.HasFailed i ∨ Interrupted i id t.log ∨ Decided id x a) s := by
  cases x with
  | none => exact secures_result fun t _ _ => .inr (.inr rfl)
  | some r =>
    obtain rfl : r.id = id := hs.1.keyed.id_eq hx
    cases hr : r.isTerminal with
    | true =>
      simp only [cancelFrom, hr, if_true]
      exact secures_result fun t _ _ => .inr (.inr (by simp [Decided, hr]))
    | false =>
      have hrem : s.Remains i r.id (some r) := ⟨hown, .inr hx⟩
      have hglimpse : s.Glimpse m₀ r := .of_stored hs.1 hx
      simp only [cancelFrom, hr, Bool.false_eq_true, if_false]
      intro t ht hst
      refine ⟨trivial, ?_⟩
      intro _ u hu _ v hv huv
      refine ⟨trivial, ?_⟩
      intro now w hw _
      have hmark : r.markCancelled now = .ok (r.marked now .cancelled) :=
        JobRecord.mark_of_open hr .cancelled now
      simp only [Dialogue.andThen, hmark]
      intro x hx hwx
      have hsx : Evolves s x := hst.1.trans (hu.2.trans (huv.1.trans (hw.2.trans hwx.1)))
      have hrem := ((((hrem.others hst).answers hu rfl).others huv).answers hw rfl).others hwx
      refine ⟨(hglimpse.evolves hsx).mayWrite (o := .cancel m r.id) hr (fun _ => ⟨rfl, rfl⟩) now, ?_⟩
      intro b y hb _
      have hverdict := hrem.update hr (JobRecord.marked_id r now .cancelled) hb rfl
      exact secures_result fun z _ hyz => hverdict.imp hyz.hasFailed (Or.imp_left hyz.evolves.interrupted)

end Scene

end JobLedger
