/-!
# Dialogues

Programs as trees of questions to their surroundings. What a program does between two questions cannot be
seen from outside, so an interleaving of programs is an interleaving of their questions.
-/
namespace JobLedger

/-- A set of questions, each with the type of its answers. -/
structure Interface where
  Question : Type
  Answer : Question → Type

/-- A program that asks questions of an interface and ends with a result. -/
inductive Dialogue (I : Interface) (α : Type) where
  | done (result : α)
  | ask (question : I.Question) (next : I.Answer question → Dialogue I α)

namespace Dialogue

variable {I J : Interface} {α β γ σ : Type}

def andThen : Dialogue I α → (α → Dialogue I β) → Dialogue I β
  | .done a, f => f a
  | .ask q k, f => .ask q fun a => andThen (k a) f

instance : Monad (Dialogue I) where
  pure := .done
  bind := andThen

def question (q : I.Question) : Dialogue I (I.Answer q) := .ask q .done

/-- A dialogue held with surroundings that answer from a state. -/
def run (answer : (q : I.Question) → σ → I.Answer q × σ) : Dialogue I α → σ → α × σ
  | .done a, s => (a, s)
  | .ask q k, s => run answer (k (answer q s).1) (answer q s).2

/-- A dialogue with each question replaced by one of another interface. -/
def through (f : (q : I.Question) → Dialogue J (I.Answer q)) : Dialogue I α → Dialogue J α
  | .done a => .done a
  | .ask q k => andThen (f q) fun a => through f (k a)

@[simp] theorem pure_eq_done (a : α) : (pure a : Dialogue I α) = .done a := rfl

@[simp] theorem bind_done (a : α) (f : α → Dialogue I β) : (Dialogue.done a >>= f) = f a := rfl

@[simp] theorem bind_ask (q : I.Question) (k : I.Answer q → Dialogue I α) (f : α → Dialogue I β) :
    (Dialogue.ask q k >>= f) = .ask q fun a => k a >>= f := rfl

@[simp] theorem question_bind (q : I.Question) (f : I.Answer q → Dialogue I β) :
    (question q >>= f) = .ask q f := rfl

theorem bind_assoc (d : Dialogue I α) (f : α → Dialogue I β) (g : β → Dialogue I γ) :
    (d >>= f) >>= g = d >>= fun a => f a >>= g := by
  induction d with
  | done a => rfl
  | ask q k ih => simp only [bind_ask, ih]

theorem bind_pure (d : Dialogue I α) : (d >>= fun a => .done a) = d := by
  induction d with
  | done a => rfl
  | ask q k ih => simp only [bind_ask, ih]

@[simp] theorem run_done (answer : (q : I.Question) → σ → I.Answer q × σ) (a : α) (s : σ) :
    (Dialogue.done a).run answer s = (a, s) := rfl

@[simp] theorem run_ask (answer : (q : I.Question) → σ → I.Answer q × σ) (q : I.Question)
    (k : I.Answer q → Dialogue I α) (s : σ) :
    (Dialogue.ask q k).run answer s = (k (answer q s).1).run answer (answer q s).2 := rfl

theorem run_bind (answer : (q : I.Question) → σ → I.Answer q × σ) (d : Dialogue I α)
    (f : α → Dialogue I β) (s : σ) :
    (d >>= f).run answer s = (f (d.run answer s).1).run answer (d.run answer s).2 := by
  induction d generalizing s with
  | done a => rfl
  | ask q k ih => simp only [bind_ask, run_ask, ih]

end Dialogue

end JobLedger
