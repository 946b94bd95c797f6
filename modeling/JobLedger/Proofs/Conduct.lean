import JobLedger.Proofs.Contracts
import JobLedger.Proofs.Worlds

/-!
# The conduct of operations

What an operation asks and how it ends, told by its own requests and their answers so far. The scene that it
shares with others does not come into it, so no other process can interfere: what every operation keeps to by
itself is kept in every interleaving.
-/
namespace JobLedger

/-- What an operation may ask after what it did, and what it has done when it ends with a result. -/
structure Conduct where
  MayAsk : Operation → Request → List Event → Prop
  Ends : (o : Operation) → o.Result → List Event → Prop

/-- The answers that a request may get. A record to be replaced is there. -/
def Request.Admits : (q : Request) → q.Answer → Prop
  | .store (.update r), a => (∃ now, a = .ok (r.stamped now)) ∨ (∃ f : StoreFailure, a = .error f.error) ∨
    ∃ state, a = .error (.alreadyTerminal r.id state)
  | _, _ => True

namespace Conduct

variable {C : Conduct} {i : Nat} {o : Operation} {l : List Event} {α : Type} {Q : α → List Event → Prop}

/-- What an operation did, as surroundings in which nobody else takes part. -/
def requests (C : Conduct) (i : Nat) (o : Operation) : Surroundings Request.interface (List Event) where
  Lawful _ := True
  Others l l' := l' = l
  MayAsk q l := C.MayAsk o q l
  Answers q l a l' := q.Admits a ∧ l' = l ++ [⟨i, o, q, a⟩]
  others_refl _ := rfl
  others_trans h h' := h'.trans h

/-- The same for an operation that may wait. -/
def steps (C : Conduct) (i : Nat) (o : Operation) : Surroundings TaskStep.interface (List Event) where
  Lawful _ := True
  Others l l' := l' = l
  MayAsk q l := match q with
    | .request q => C.MayAsk o q l
    | .wait _ => True
  Answers q l a l' := match q with
    | .request q => q.Admits a ∧ l' = l ++ [⟨i, o, q, a⟩]
    | .wait _ => l' = l
  others_refl _ := rfl
  others_trans h h' := h'.trans h

theorem secures_ask {q : Request} {k : q.Answer → Action α} (hq : C.MayAsk o q l)
    (hk : ∀ a, q.Admits a → (k a).Secures (C.requests i o) Q (l ++ [⟨i, o, q, a⟩])) :
    (Dialogue.ask q k : Action α).Secures (C.requests i o) Q l := by
  rintro _ - rfl
  refine ⟨hq, ?_⟩
  rintro a _ ⟨ha, rfl⟩ -
  exact hk a ha

theorem secures_done {a : α} (h : Q a l) : (Dialogue.done a : Action α).Secures (C.requests i o) Q l := by
  rintro _ - rfl
  exact h

theorem secures_bind {β : Type} {a : Action α} {f : α → Action β} {Q : β → List Event → Prop}
    (h : a.Secures (C.requests i o) (fun x l' => (f x).Secures (C.requests i o) Q l') l) :
    (a >>= f).Secures (C.requests i o) Q l :=
  Dialogue.Secures.bind trivial h

theorem secures_act {a : Action α} (h : a.Secures (C.requests i o) Q l) :
    (Task.act a).Secures (C.steps i o) Q l := by
  induction a generalizing l with
  | done x => exact h
  | ask q k ih =>
    intro t ht hst
    obtain ⟨hq, hk⟩ := h t ht hst
    exact ⟨hq, fun a u ha hu => ih a (hk a u ha hu)⟩

/-- An operation that asks nothing but what it may ask at any time. -/
theorem secures_of_honours {D : Contract TaskStep.interface} {P : α → Prop} (hA : ∀ x a, D.Answers x a)
    (hD : ∀ q, D.MayAsk (.request q) → ∀ past, C.MayAsk o q past) {d : Task α} (h : d.Honours D P) :
    d.Secures (C.steps i o) (fun a _ => P a) l := by
  induction d generalizing l with
  | done a => exact fun _ _ _ => h
  | ask x k ih =>
    intro t _ _
    refine ⟨?_, fun a u _ _ => ih a (h.2 a (hA x a))⟩
    cases x with
    | request q => exact hD q h.1 t
    | wait y => exact trivial

/-- Every operation keeps to the conduct. -/
def IsKept (C : Conduct) : Prop := ∀ i (o : Operation), o.task.Secures (C.steps i o) (C.Ends o) []

end Conduct

namespace World

variable {m₀ : Memory} {w v : World} {C : Conduct}

/-- Every operation under way has kept to a conduct and goes on to keep to it. -/
structure Keeps (C : Conduct) (w : World) : Prop where
  asked : ∀ e ∈ w.log, ∃ d, w.processes[e.process]? = some ⟨e.operation, d⟩ ∧
    ∃ past later, w.own e.process = past ++ e :: later ∧ C.MayAsk e.operation e.request past
  admitted : ∀ e ∈ w.log, e.request.Admits e.answer
  goesOn : ∀ {i : Nat} {o : Operation} {d : Task o.Result}, w.processes[i]? = some ⟨o, d⟩ →
    d.Secures (C.steps i o) (C.Ends o) (w.own i)

theorem Keeps.mayAsk (h : w.Keeps C) {i : Nat} {o : Operation} {q : Request} {k : q.Answer → Task o.Result}
    (hp : w.processes[i]? = some ⟨o, .ask (.request q) k⟩) : C.MayAsk o q (w.own i) :=
  (h.goesOn hp (w.own i) trivial rfl).1

theorem Keeps.ends (h : w.Keeps C) {i : Nat} {o : Operation} {a : o.Result}
    (hp : w.processes[i]? = some ⟨o, .done a⟩) : C.Ends o a (w.own i) :=
  h.goesOn hp (w.own i) trivial rfl

private theorem Sound.admits (h : w.Sound m₀) (f? : Option StoreFailure) {i : Nat} {o : Operation} {q : Request}
    {k : q.Answer → Task o.Result} (hp : w.processes[i]? = some ⟨o, .ask (.request q) k⟩) :
    q.Admits (w.ask f? i o q).1 := by
  cases q with
  | store c =>
    cases c with
    | update r =>
      have hw : w.MayWrite m₀ o r := h.mayAsk hp
      obtain ⟨x, hx, -⟩ := hw.origin
      cases f? with
      | some f => exact .inr (.inl ⟨f, rfl⟩)
      | none =>
        cases hterm : x.isTerminal with
        | true =>
          rw [Scene.ask_update_of_terminal hx hterm]
          exact .inr (.inr ⟨x.state, rfl⟩)
        | false =>
          rw [Scene.ask_update hx hterm]
          exact .inl ⟨w.host.clock, rfl⟩
    | _ => exact trivial
  | _ => exact trivial

/-- A process keeps its operation and what it did, and does more only by its own requests. -/
private theorem Sound.kept_moved (h : w.Sound m₀) (hv : w.Moved v) {i : Nat} {o : Operation} {d : Task o.Result}
    (hp : w.processes[i]? = some ⟨o, d⟩) :
    ∃ d' es, v.processes[i]? = some ⟨o, d'⟩ ∧ v.own i = w.own i ++ es := by
  obtain ⟨d', hd', -⟩ := h.secures_moved hv hp (h.secured hp)
  obtain ⟨es, hes, -⟩ := (h.evolves_moved hv).logged
  refine ⟨d', es.filter fun e => e.process == i, hd', ?_⟩
  rw [Scene.own, Scene.own, hes, List.filter_append]

private theorem Keeps.asked_moved (hk : w.Keeps C) (h : w.Sound m₀) (hv : w.Moved v) :
    ∀ e ∈ v.log, ∃ d, v.processes[e.process]? = some ⟨e.operation, d⟩ ∧
      ∃ past later, v.own e.process = past ++ e :: later ∧ C.MayAsk e.operation e.request past := by
  have hold : ∀ e ∈ w.log, ∃ d, v.processes[e.process]? = some ⟨e.operation, d⟩ ∧
      ∃ past later, v.own e.process = past ++ e :: later ∧ C.MayAsk e.operation e.request past := by
    intro e he
    obtain ⟨d, hd, past, later, hown, hq⟩ := hk.asked e he
    obtain ⟨d', es, hd', hes⟩ := h.kept_moved hv hd
    exact ⟨d', hd', past, later ++ es, by rw [hes, hown, List.append_assoc, List.cons_append], hq⟩
  intro e he
  cases hv with
  | @request f? i o q k hp =>
    rcases Scene.mem_ask_log.mp he with he | rfl
    · exact hold e he
    · have hlt : i < w.processes.length := (List.getElem?_eq_some_iff.mp hp).1
      exact ⟨k (w.ask f? i o q).1, by simp [Scene.event, List.getElem?_set_self hlt], w.own i, [],
        Scene.own_ask, hk.mayAsk hp⟩
  | _ => exact hold e he

private theorem Keeps.admitted_moved (hk : w.Keeps C) (h : w.Sound m₀) (hv : w.Moved v) :
    ∀ e ∈ v.log, e.request.Admits e.answer := by
  intro e he
  cases hv with
  | @request f? i o q k hp =>
    rcases Scene.mem_ask_log.mp he with he | rfl
    · exact hk.admitted e he
    · exact h.admits f? hp
  | _ => exact hk.admitted e he

theorem Keeps.moved (hC : C.IsKept) (hk : w.Keeps C) (h : w.Sound m₀) (hv : w.Moved v) : v.Keeps C := by
  refine ⟨hk.asked_moved h hv, hk.admitted_moved h hv, ?_⟩
  intro i o d hi
  cases hv with
  | stay => exact hk.goesOn hi
  | tick now => exact hk.goesOn hi
  | begin o' ho =>
    rcases process_begin hi with hi | ⟨rfl, hp⟩
    · exact hk.goesOn hi
    · obtain ⟨rfl, rfl⟩ := Process.mk.inj hp
      exact h.own_eq_nil.symm ▸ hC w.processes.length o
  | @request f? j o' q k hj =>
    rcases process_set hi with ⟨rfl, hp⟩ | ⟨hij, hi⟩
    · obtain ⟨rfl, rfl⟩ := Process.mk.inj hp
      obtain ⟨-, hnext⟩ := hk.goesOn hj (w.own j) trivial rfl
      exact hnext _ _ ⟨h.admits f? hj, Scene.own_ask⟩ trivial
    · have hown : (w.ask f? j o' q).2.own i = w.own i := Scene.own_ask_of_ne (Ne.symm hij)
      exact hown.symm ▸ hk.goesOn hi
  | @wake j o' x k hj hx =>
    rcases process_set hi with ⟨rfl, hp⟩ | ⟨hij, hi⟩
    · obtain ⟨rfl, rfl⟩ := Process.mk.inj hp
      obtain ⟨-, hnext⟩ := hk.goesOn hj (w.own j) trivial rfl
      exact hnext () _ rfl trivial
    · exact hk.goesOn hi

private theorem start_keeps (C : Conduct) (now : Instant) (m₀ : Memory) : (start now m₀).Keeps C :=
  ⟨fun _ he => absurd he List.not_mem_nil, fun _ he => absurd he List.not_mem_nil, fun hi => by simp [start] at hi⟩

/-- What every operation keeps to by itself is kept in every world that a run reaches. -/
theorem Reachable.keeps (hC : C.IsKept) (hm : m₀.Keyed) (hw : w.Reachable m₀) : w.Keeps C :=
  hw.induction hm (start_keeps C · m₀) fun x h hk => hk.moved hC h (moved_move _ x)

end World

end JobLedger
