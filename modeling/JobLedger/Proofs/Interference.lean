import JobLedger.Dialogue

/-!
# Dialogues under interference

A dialogue whose surroundings are shared with others. Between any two of its questions the others may change
the state, so what it learned from one answer is of use at the next question only if it outlasts them. The
rules below take a dialogue apart at its questions and at its parts.
-/
namespace JobLedger

variable {I : Interface} {α β σ : Type}

/-- Surroundings that a dialogue shares with others. -/
structure Surroundings (I : Interface) (σ : Type) where
  /-- What holds of every state. -/
  Lawful : σ → Prop
  /-- What the others make of a state. -/
  Others : σ → σ → Prop
  /-- When a question may be asked. -/
  MayAsk : I.Question → σ → Prop
  /-- The answers to a question in a state, each with the state after it. -/
  Answers : (q : I.Question) → σ → I.Answer q → σ → Prop
  others_refl : ∀ s, Others s s
  others_trans : ∀ {s t u}, Others s t → Others t u → Others s u

namespace Dialogue

/-- From a state on, whatever the others do, the dialogue asks only what it may ask, and its result has a
property in every later state. -/
def Secures (E : Surroundings I σ) (Q : α → σ → Prop) : Dialogue I α → σ → Prop
  | .done a, s => ∀ t, E.Lawful t → E.Others s t → Q a t
  | .ask q k, s => ∀ t, E.Lawful t → E.Others s t →
      E.MayAsk q t ∧ ∀ a u, E.Answers q t a u → E.Lawful u → Secures E Q (k a) u

variable {E : Surroundings I σ} {Q R : α → σ → Prop} {s t : σ}

theorem Secures.others {d : Dialogue I α} (h : d.Secures E Q s) (hst : E.Others s t) :
    d.Secures E Q t := by
  cases d with
  | done a =>
    intro u hu htu
    exact h u hu (E.others_trans hst htu)
  | ask q k =>
    intro u hu htu
    exact h u hu (E.others_trans hst htu)

theorem Secures.result {a : α} (h : (Dialogue.done a : Dialogue I α).Secures E Q s) (hs : E.Lawful s) :
    Q a s := h s hs (E.others_refl s)

theorem Secures.mono {d : Dialogue I α} (h : d.Secures E Q s)
    (hQ : ∀ a t, E.Lawful t → Q a t → R a t) : d.Secures E R s := by
  induction d generalizing s with
  | done a =>
    intro t ht hst
    exact hQ a t ht (h t ht hst)
  | ask q k ih =>
    intro t ht hst
    obtain ⟨hq, hk⟩ := h t ht hst
    refine ⟨hq, ?_⟩
    intro a u ha hu
    exact ih a (hk a u ha hu)

/-- One dialogue after another: the second starts from what the first secures. -/
theorem Secures.bind {d : Dialogue I α} {f : α → Dialogue I β} {Q : β → σ → Prop} (hs : E.Lawful s)
    (h : d.Secures E (fun a t => (f a).Secures E Q t) s) : (d >>= f).Secures E Q s := by
  induction d generalizing s with
  | done a => exact h.result hs
  | ask q k ih =>
    intro t ht hst
    obtain ⟨hq, hk⟩ := h t ht hst
    refine ⟨hq, ?_⟩
    intro a u ha hu
    exact ih a hu (hk a u ha hu)

end Dialogue

end JobLedger
