import JobLedger.Lifecycle.Work

/-!
# Contracts of dialogues

What a dialogue may ask and what it may rely on, without regard to the state of its surroundings. A dialogue
that honours a contract still does so for another one if each of its questions is replaced by a dialogue that
keeps both sides of the bargain.
-/
namespace JobLedger

variable {I J : Interface} {α β : Type}

/-- What may be asked, and what the answers are then like. -/
structure Contract (I : Interface) where
  MayAsk : I.Question → Prop
  Answers : (q : I.Question) → I.Answer q → Prop

namespace Dialogue

/-- The dialogue asks only what it may ask as long as the answers are as agreed, and then its result has a
property. -/
def Honours (C : Contract I) (Q : α → Prop) : Dialogue I α → Prop
  | .done a => Q a
  | .ask q k => C.MayAsk q ∧ ∀ a, C.Answers q a → Honours C Q (k a)

variable {C : Contract I} {D : Contract J} {Q R : α → Prop}

theorem Honours.mono {d : Dialogue I α} (h : d.Honours C Q) (hQ : ∀ a, Q a → R a) : d.Honours C R := by
  induction d with
  | done a => exact hQ a h
  | ask q k ih => exact ⟨h.1, fun a ha => ih a (h.2 a ha)⟩

theorem Honours.bind {d : Dialogue I α} {f : α → Dialogue I β} {Q : β → Prop}
    (h : d.Honours C fun a => (f a).Honours C Q) : (d >>= f).Honours C Q := by
  induction d with
  | done a => exact h
  | ask q k ih => exact ⟨h.1, fun a ha => ih a (h.2 a ha)⟩

/-- A contract that allows everything is honoured by every dialogue. -/
theorem honours_of_mayAsk (hC : ∀ q, C.MayAsk q) (d : Dialogue I α) : d.Honours C fun _ => True := by
  induction d with
  | done a => exact trivial
  | ask q k ih => exact ⟨hC q, fun a _ => ih a⟩

/-- Each question replaced by a dialogue that asks what may be asked in its place and answers as agreed. -/
theorem Honours.through {f : (q : I.Question) → Dialogue J (I.Answer q)}
    (hf : ∀ q, C.MayAsk q → (f q).Honours D (C.Answers q)) {d : Dialogue I α} (h : d.Honours C Q) :
    (d.through f).Honours D Q := by
  induction d with
  | done a => exact h
  | ask q k ih => exact Honours.bind ((hf q h.1).mono fun a ha => ih a (h.2 a ha))

end Dialogue

/-- The contract of the steps of a task whose requests are under a contract. -/
def TaskStep.contract (C : Contract Request.interface) : Contract TaskStep.interface where
  MayAsk
    | .request q => C.MayAsk q
    | .wait _ => True
  Answers
    | .request q, a => C.Answers q a
    | .wait _, _ => True

theorem honours_act {α : Type} {Q : α → Prop} {C : Contract Request.interface} {a : Action α} (h : a.Honours C Q) :
    (Task.act a).Honours (TaskStep.contract C) Q := by
  refine Dialogue.Honours.through (fun q hq => ?_) h
  exact ⟨hq, fun _ ha => ha⟩

end JobLedger
