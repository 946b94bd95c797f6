import JobLedger.Proofs.HostAnswers
import JobLedger.Proofs.Interference
import JobLedger.Proofs.Interleaving

/-!
# Operations by themselves

Operations that end without waiting, carried out while no other operation is under way. The clock goes on meanwhile,
and any call of the store may fail instead of being carried out. So does a world in which one process goes on alone
(`World.attempts_begin`).
-/
namespace JobLedger

namespace Operation

/-- An operation that ends without waiting, by what it asks. -/
def action? : (o : Operation) → Option (Action o.Result)
  | .create m id request => some (m.create id request)
  | .getStatus id => some (Manager.getStatus id)
  | .statusView m id => some (m.statusView id)
  | .list query => some (Manager.list query)
  | .cancel m id => some (m.cancel id)
  | .completeTracking m id => some (m.completeTracking id)
  | .sweep m now => some (m.sweepOnce now)
  | .reportProgress c percent => some (c.reportProgress percent)
  | .setResult c payload => some (c.setResult payload)
  | .setFailed c message detail => some (c.setFailed message detail)
  | .setUnserializable _ reason => some (JobContext.setUnserializable reason)
  | .spawn _ _ _ => none

private theorem task_eq_act {o : Operation} {a : Action o.Result} (h : o.action? = some a) : o.task = Task.act a := by
  cases o <;> cases h <;> rfl

end Operation

namespace Host

variable {σ α : Type} {S : StatusStore σ} {h h' : Host σ}

/-- The same process at another time. -/
def Passes (h h' : Host σ) : Prop := ∃ now, h' = { h with clock := now }

theorem Passes.refl (h : Host σ) : h.Passes h := ⟨h.clock, rfl⟩

theorem Passes.trans {h'' : Host σ} (hp : h.Passes h') (hp' : h'.Passes h'') : h.Passes h'' := by
  obtain ⟨now, rfl⟩ := hp
  obtain ⟨now', rfl⟩ := hp'
  exact ⟨now', rfl⟩

/-- An attempt at an operation ends with a result, in a process as it is then. -/
inductive Attempts (S : StatusStore σ) : Action α → Host σ → α → Host σ → Prop where
  | done (a : α) (h : Host σ) : Attempts S (.done a) h a h
  /-- The clock goes on. -/
  | passes {d : Action α} {h h' : Host σ} {a : α} (now : Instant) (hrest : Attempts S d { h with clock := now } a h') :
    Attempts S d h a h'
  | answers {q : Request} {k : q.Answer → Action α} {h h' : Host σ} {a : α}
    (hrest : Attempts S (k (h.answer S q).1) (h.answer S q).2 a h') : Attempts S (.ask q k) h a h'
  /-- A call of the store is not carried out, but fails with some error. -/
  | fails {c : StoreCall} {k : c.Answer → Action α} {h h' : Host σ} {a : α} (e : StoreError)
    (hrest : Attempts S (k (.error e)) h a h') : Attempts S (.ask (.store c) k) h a h'

/-- What an operation does that nothing interrupts is an attempt at it. -/
theorem attempts_perform (S : StatusStore σ) (d : Action α) (h : Host σ) :
    h.Attempts S d (h.perform S d).1 (h.perform S d).2 := by
  induction d generalizing h with
  | done a => exact .done a h
  | ask q k ih => exact .answers (ih _ _)

/-- A process in which only the clock changes and calls of the store may fail. -/
def unsteady (S : StatusStore σ) : Surroundings Request.interface (Host σ) where
  Lawful _ := True
  Others h h' := h.Passes h'
  MayAsk _ _ := True
  Answers
    | .store c, h, a, h' => h.answer S (.store c) = (a, h') ∨ h' = h ∧ ∃ e, a = .error e
    | q, h, a, h' => h.answer S q = (a, h')
  others_refl := .refl
  others_trans := .trans

section
variable {Q : α → Host σ → Prop} {d : Action α}

private theorem answers_unsteady {q : Request} {a : q.Answer} (ha : h.answer S q = (a, h')) :
    (unsteady S).Answers q h a h' := by
  cases q with
  | store c => exact .inl ha
  | _ => exact ha

/-- What an operation secures holds after every attempt at it. -/
theorem Attempts.of_secures {a : α} (ha : h.Attempts S d a h') (hd : d.Secures (unsteady S) Q h) : Q a h' := by
  induction ha with
  | done a h => exact hd.result trivial
  | passes now _ ih => exact ih (hd.others ⟨now, rfl⟩)
  | answers _ ih =>
    obtain ⟨-, hk⟩ := hd _ trivial (.refl _)
    exact ih (hk _ _ (answers_unsteady rfl) trivial)
  | fails e _ ih =>
    obtain ⟨-, hk⟩ := hd _ trivial (.refl _)
    exact ih (hk _ _ (.inr ⟨rfl, e, rfl⟩) trivial)

theorem secures_result {a : α} (hQ : ∀ t, h.Passes t → Q a t) :
    (Dialogue.done a : Action α).Secures (unsteady S) Q h := fun t _ ht => hQ t ht

theorem secures_local {q : Request} (hq : q.IsLocal) {k : q.Answer → Action α}
    (hk : ∀ t a t', h.Passes t → t.answer S q = (a, t') → (k a).Secures (unsteady S) Q t') :
    (Dialogue.ask q k : Action α).Secures (unsteady S) Q h := by
  refine fun t _ ht => ⟨trivial, fun a u ha _ => ?_⟩
  cases q with
  | store c => exact hq.elim
  | _ => exact hk t a u ht ha

theorem secures_call {c : StoreCall} {k : c.Answer → Action α}
    (hk : ∀ t a t', h.Passes t → t.answer S (.store c) = (a, t') → (k a).Secures (unsteady S) Q t')
    (hfail : ∀ t e, h.Passes t → (k (.error e)).Secures (unsteady S) Q t) :
    (Dialogue.ask (.store c) k : Action α).Secures (unsteady S) Q h := by
  refine fun t _ ht => ⟨trivial, fun a u ha _ => ?_⟩
  rcases ha with ha | ⟨rfl, e, rfl⟩
  · exact hk t a u ht ha
  · exact hfail u e ht

theorem secures_true (d : Action α) (h : Host σ) : d.Secures (unsteady S) (fun _ _ => True) h := by
  induction d generalizing h with
  | done a => exact fun _ _ _ => trivial
  | ask q k ih => exact fun _ _ _ => ⟨trivial, fun a u _ _ => ih a u⟩

end

end Host

private theorem Scene.answer_none (q : Request) (h : Host Memory) :
    Scene.answer none q h = h.answer Memory.store q := by
  cases q <;> rfl

/-- A move of the clock or of one process. -/
def Move.isOf (i : Nat) : Move → Bool
  | .tick _ => true
  | .begin _ => false
  | .step j | .fail j _ => j == i

namespace World

variable {w : World} {i : Nat} {o : Operation} {b : o.Result} {moves : List Move}

/-- A request of a process, answered or failed, is the first of an attempt. -/
private theorem attempts_ask (f? : Option StoreFailure) {q : Request} {k : q.Answer → Action o.Result}
    {h' : Host Memory}
    (hrest : (w.ask f? i o q).2.host.Attempts Memory.store (k (w.ask f? i o q).1) b h') :
    w.host.Attempts Memory.store (.ask q k) b h' := by
  cases f? with
  | none =>
    rw [Scene.ask, Scene.answer_none] at hrest
    exact .answers hrest
  | some f =>
    cases q with
    | store c => exact .fails f.error hrest
    | _ => exact .answers hrest

private theorem attempts_advance (f? : Option StoreFailure) {d : Action o.Result}
    (hi : w.processes[i]? = some ⟨o, Task.act d⟩) : ∃ d' : Action o.Result,
      (w.advance f? i).processes[i]? = some ⟨o, Task.act d'⟩ ∧
        ∀ b h', (w.advance f? i).host.Attempts Memory.store d' b h' → w.host.Attempts Memory.store d b h' := by
  cases d with
  | done a =>
    have hstay : w.advance f? i = w := by
      rw [advance, hi]
      rfl
    rw [hstay]
    exact ⟨.done a, hi, fun _ _ => id⟩
  | ask q k =>
    have hadvance := advance_request f? (k := fun a => Task.act (k a)) hi
    rw [hadvance]
    refine ⟨k (w.ask f? i o q).1, ?_, fun _ _ => attempts_ask f?⟩
    rw [List.getElem?_set_self (List.getElem?_eq_some_iff.mp hi).1]

/-- While all other processes rest, one carries out an attempt at its operation. -/
private theorem attempts_run {d : Action o.Result} (hmoves : ∀ x ∈ moves, x.isOf i = true)
    (hi : w.processes[i]? = some ⟨o, Task.act d⟩) (hb : (w.run moves).processes[i]? = some ⟨o, .done b⟩) :
    w.host.Attempts Memory.store d b (w.run moves).host := by
  -- By induction on the moves, for whatever is left of the operation before each of them.
  induction moves generalizing w d with
  | nil =>
    have hdone : Task.act d = .done b := by
      have heq := hi.symm.trans hb
      injection heq with heq
      injection heq
    cases d with
    | done a =>
      cases hdone
      exact .done _ _
    | ask q k => cases hdone
  | cons x xs ih =>
    obtain ⟨hx, hxs⟩ := List.forall_mem_cons.mp hmoves
    rw [run_cons] at hb ⊢
    cases x with
    | tick now => exact .passes now (@ih (w.move (.tick now)) d hxs hi hb)
    | begin o => cases hx
    | step j =>
      obtain rfl : j = i := eq_of_beq hx
      obtain ⟨d', hnext, hattempts⟩ := attempts_advance none hi
      exact hattempts _ _ (ih hxs hnext hb)
    | fail j f =>
      obtain rfl : j = i := eq_of_beq hx
      obtain ⟨d', hnext, hattempts⟩ := attempts_advance (some f) hi
      exact hattempts _ _ (ih hxs hnext hb)

/-- An operation that is begun and then goes on alone, while calls of the store may fail, is an attempt at it. -/
theorem attempts_begin {a : Action o.Result} (ho : o.action? = some a) (hallows : w.allows o = true)
    (hmoves : ∀ x ∈ moves, x.isOf w.processes.length = true)
    (hb : (w.run (.begin o :: moves)).processes[w.processes.length]? = some ⟨o, .done b⟩) :
    w.host.Attempts Memory.store a b (w.run (.begin o :: moves)).host := by
  rw [run_cons, move, if_pos hallows, Operation.task_eq_act ho] at hb ⊢
  refine attempts_run hmoves ?_ hb
  rw [List.getElem?_append_right (Nat.le_refl _), Nat.sub_self]
  rfl

end World

end JobLedger
