import JobLedger.Lifecycle.Host

/-!
# What a process answers

One request after another is answered by the store or by the process itself, which leaves the store alone.
-/
namespace JobLedger

/-- Whether a request is answered by the process itself, not by the store. -/
def Request.IsLocal : Request → Prop
  | .store _ => False
  | _ => True

namespace Host

variable {σ α : Type} {S : StatusStore σ} {h h' : Host σ}

/-- One request of an operation that nothing interrupts. -/
theorem perform_ask {q : Request} {k : q.Answer → Action α} {a : q.Answer} (ha : h.answer S q = (a, h')) :
    h.perform S (.ask q k) = h'.perform S (k a) := by
  show (k (h.answer S q).1).run (answer S) (h.answer S q).2 = _
  rw [ha]
  rfl

theorem answer_call {c : StoreCall} {a : c.Answer} {x : σ} (hp : S.perform h.clock c h.store = (a, x)) :
    h.answer S (.store c) = (a, { h with store := x }) := by
  rw [answer, hp]

/-- An answer takes no time. -/
theorem answer_clock (q : Request) (h : Host σ) : (h.answer S q).2.clock = h.clock := by
  cases q with
  | signal manager id =>
    simp only [answer]
    split
    · rw [fire]
      split <;> rfl
    · rfl
  | complete context =>
    simp only [answer]
    split <;> rfl
  | clock | store _ | track _ _ | untrack _ _ | isCompleted _ => rfl

theorem isCancelled_fire (h : Host σ) (n k : Nat) :
    (h.fire n).isCancelled k = true ↔ h.isCancelled k = true ∨ k = n := by
  unfold fire
  split
  case isTrue hn =>
    constructor
    · exact .inl
    · rintro (hk | rfl)
      · exact hk
      · exact hn
  case isFalse => simp [isCancelled]

/-- Firing a signal concerns the signals only. -/
theorem fire_eq (h : Host σ) (n : Nat) : h.fire n = { h with fired := (h.fire n).fired } := by
  rw [fire]
  split <;> rfl

theorem isCancelled_signal (h : Host σ) (m : Nat) (id : JobId) (k : Nat) :
    (h.answer S (.signal m id)).2.isCancelled k = true ↔
      h.isCancelled k = true ∨ h.tracked.get? (m, id) = some k := by
  simp only [answer]
  split
  · rename_i n hn
    rw [isCancelled_fire, hn, Option.some_inj, eq_comm (a := n)]
  · rename_i hn
    simp [hn]

/-- Looking for a signal concerns the signals only. -/
theorem signal_eq (h : Host σ) (m : Nat) (id : JobId) :
    (h.answer S (.signal m id)).2 = { h with fired := (h.answer S (.signal m id)).2.fired } := by
  simp only [answer]
  split
  · exact fire_eq h _
  · rfl

/-- Noting an outcome concerns the notes only. -/
theorem complete_eq (h : Host σ) (n : Nat) : (h.answer S (.complete n)).2 =
    { h with completed := (h.answer S (.complete n)).2.completed } := by
  simp only [answer]
  split <;> rfl

/-- What the process answers itself leaves the store alone. -/
theorem answer_store {q : Request} (hq : q.IsLocal) (h : Host σ) :
    (h.answer S q).2.store = h.store := by
  cases q with
  | store c => exact hq.elim
  | signal manager id =>
    simp only [answer]
    split
    · rw [fire]
      split <;> rfl
    · rfl
  | complete context =>
    simp only [answer]
    split <;> rfl
  | clock | track _ _ | untrack _ _ | isCompleted _ => rfl

/-- An operation that nothing interrupts takes no time. -/
theorem perform_clock (a : Action α) (h : Host σ) : (h.perform S a).2.clock = h.clock := by
  induction a generalizing h with
  | done a => rfl
  | ask q k ih => exact (ih _ _).trans (answer_clock q h)

theorem perform_bind {β : Type} (a : Action α) (f : α → Action β) (h : Host σ) :
    h.perform S (a >>= f) = (h.perform S a).2.perform S (f (h.perform S a).1) := by
  rw [perform, Dialogue.run_bind]
  rfl

end Host

end JobLedger
