import JobLedger.Proofs.RecordContracts
import JobLedger.Proofs.Signals

/-!
# Replies and the books of the managers

The table of tracked jobs and the list of the jobs that contexts were made for change only when an operation replies,
in the same step, and the reply tells how. Main statement: `World.Tidy.enterAll`.
-/
namespace JobLedger

/-- What managers note about jobs. -/
structure Books where
  tracked : Table (Nat × JobId) Nat
  /-- The jobs that contexts were made for. -/
  opened : List JobId

/-- How a request changes the books. -/
def Request.Enters : (q : Request) → q.Answer → Books → Books → Prop
  | .track k id, n, b, b' => b' = ⟨b.tracked.insert (k, id) n, b.opened ++ [id]⟩
  | .untrack k id, found, b, b' =>
    found = b.tracked.contains (k, id) ∧ b' = { b with tracked := b.tracked.erase (k, id) }
  | _, _, b, b' => b' = b

/-- A request that leaves the books alone. -/
def Request.IsAloof : Request → Prop
  | .track _ _ | .untrack _ _ => False
  | _ => True

/-- The contract to leave the books alone. A store answers with the record that it was given to create. -/
def Request.aloof : Contract Request.interface where
  MayAsk := IsAloof
  Answers
    | .store (.create r), a => ∀ r', a = .ok r' → r' = r
    | _, _ => True

private theorem letsSweep_aloof : Request.aloof.LetsSweep (fun _ => True) fun _ => True := by
  constructor
  case toLetsMark => exact ⟨trivial, fun _ => trivial, fun _ => trivial, fun _ _ _ _ => trivial, fun _ => trivial⟩
  case findExpired => exact fun _ => trivial
  case found => exact fun _ _ _ => trivial
  case signal => exact fun _ _ => trivial

/-- An operation that is through, with what it answered. -/
structure Reply where
  operation : Operation
  result : operation.Result

namespace Reply

/-- How a reply changes the books. The task of work that could not be set up leaves them as they are. -/
def Enters : Reply → Books → Books → Prop
  | ⟨.create m id _, .ok (_, c)⟩, b, b' =>
    c.job = id ∧ b' = ⟨b.tracked.insert (m.number, id) c.number, b.opened ++ [id]⟩
  | ⟨.completeTracking m id, found⟩, b, b' =>
    found = b.tracked.contains (m.number, id) ∧ b' = { b with tracked := b.tracked.erase (m.number, id) }
  | ⟨.spawn m c (.steps _ _), _⟩, b, b' => b' = { b with tracked := b.tracked.erase (m.number, c.job) }
  | _, b, b' => b' = b

/-- How replies change the books one after another. -/
def EnterAll : List Reply → Books → Books → Prop
  | [], b, b' => b' = b
  | a :: as, b, b' => ∃ c, a.Enters b c ∧ EnterAll as c b'

private theorem enterAll_append {as as' : List Reply} {b b' : Books} :
    EnterAll (as ++ as') b b' ↔ ∃ c, EnterAll as b c ∧ EnterAll as' c b' := by
  induction as generalizing b with
  | nil => simp [EnterAll]
  | cons a as ih =>
    simp only [List.cons_append, EnterAll, ih]
    constructor
    · rintro ⟨c, ha, d, has, has'⟩
      exact ⟨d, ⟨c, ha, has⟩, has'⟩
    · rintro ⟨d, ⟨c, ha, has⟩, has'⟩
      exact ⟨c, ha, d, has, has'⟩

end Reply

/-- Each request leaves the books alone, or is the last one and changes them as the result tells. -/
def Task.EntersLast {α : Type} (E : α → Books → Books → Prop) : Task α → Prop
  | .done a => ∀ b, E a b b
  | .ask (.wait _) k => EntersLast E (k ())
  | .ask (.request q) k => (q.IsAloof ∧ ∀ a, Request.aloof.Answers q a → EntersLast E (k a)) ∨
    ∀ a, ∃ x, k a = .done x ∧ ∀ b b', q.Enters a b b' → E x b b'

namespace Task

variable {α β : Type} {E : α → Books → Books → Prop}

private theorem entersLast_bind {d : Task β} {f : β → Task α}
    (h : d.Honours (TaskStep.contract Request.aloof) fun a => (f a).EntersLast E) : (d >>= f).EntersLast E := by
  induction d with
  | done a => exact h
  | ask x k ih =>
    cases x with
    | wait w => exact ih () (h.2 () trivial)
    | request q => exact .inl ⟨h.1, fun a ha => ih a (h.2 a ha)⟩

private theorem entersLast_act_bind {a : Action β} {f : β → Action α}
    (h : a.Honours Request.aloof fun x => (act (f x)).EntersLast E) : (act (a >>= f)).EntersLast E := by
  induction a with
  | done x => exact h
  | ask q k ih => exact .inl ⟨h.1, fun x hx => ih x (h.2 x hx)⟩

/-- An operation that leaves the books alone. -/
private theorem entersLast_of_aloof {a : Action α} {Q : α → Prop} (h : a.Honours Request.aloof Q)
    (hE : ∀ x b, E x b b) :
    (act a).EntersLast E := by
  rw [← Dialogue.bind_pure a]
  exact entersLast_act_bind (h.mono fun x _ => hE x)

end Task

namespace Operation

private theorem entersLast_spawn (m : Manager) (c : JobContext) (todo : List WorkStep) (ending : WorkEnd) :
    ((Work.steps todo ending).task m c).EntersLast fun a => Reply.Enters ⟨.spawn m c (.steps todo ending), a⟩ := by
  show Task.EntersLast _ (WorkStep.performAll c ending todo >>= _)
  apply Task.entersLast_bind
  apply (letsSweep_aloof.performAll c ending todo fun _ => trivial).mono
  intro last _
  refine .inl ⟨trivial, fun completed _ => ?_⟩
  cases hout : Work.outcome completed last with
  | none =>
    simp only [Dialogue.andThen, hout]
    exact .inr fun _ => ⟨(), rfl, fun _ _ h => h.2⟩
  | some mark =>
    simp only [Dialogue.andThen, hout]
    apply Task.entersLast_act_bind
    apply (letsSweep_aloof.finish c trivial).mono
    exact fun _ _ => .inr fun _ => ⟨(), rfl, fun _ _ h => h.2⟩

/-- Every operation changes the books at most by its last request, as it replies. -/
private theorem entersLast_task (o : Operation) : o.task.EntersLast fun a => Reply.Enters ⟨o, a⟩ := by
  have hC := letsSweep_aloof
  cases o with
  | create m id request =>
    refine .inl ⟨trivial, fun now _ => .inl ⟨trivial, fun a ha => ?_⟩⟩
    cases a with
    | error e => exact fun _ => rfl
    | ok r =>
      obtain rfl := ha r rfl
      exact .inr fun n => ⟨_, rfl, fun _ _ h => ⟨rfl, h⟩⟩
  | getStatus id => exact Task.entersLast_of_aloof (hC.getStatus id) fun _ _ => rfl
  | statusView m id => exact Task.entersLast_of_aloof (hC.statusView m id) fun _ _ => rfl
  | list query => exact .inl ⟨trivial, fun _ _ _ => rfl⟩
  | cancel m id => exact Task.entersLast_of_aloof (hC.cancel m id trivial) fun _ _ => rfl
  | completeTracking m id => exact .inr fun found => ⟨found, rfl, fun _ _ h => h⟩
  | sweep m now => exact Task.entersLast_of_aloof (hC.sweepOnce (fun _ => trivial) m now) fun _ _ => rfl
  | reportProgress c percent => exact Task.entersLast_of_aloof (hC.reportProgress c trivial) fun _ _ => rfl
  | setResult c payload => exact Task.entersLast_of_aloof (hC.finish c trivial) fun _ _ => rfl
  | setFailed c message detail => exact Task.entersLast_of_aloof (hC.finish c trivial) fun _ _ => rfl
  | setUnserializable c reason => exact fun _ => rfl
  | spawn m c work =>
    cases work with
    | steps todo ending => exact entersLast_spawn m c todo ending
    | unfounded => exact fun _ => rfl

end Operation

namespace Scene

/-- The books of a scene. -/
def books (s : Scene) : Books := ⟨s.host.tracked, s.log.filterMap fun e => e.opened?.map fun made => made.2.job⟩

theorem books_ask (f? : Option StoreFailure) (i : Nat) (o : Operation) (q : Request) (s : Scene) :
    (s.ask f? i o q).2.books = ⟨(s.ask f? i o q).2.host.tracked,
      s.books.opened ++ ((s.event f? i o q).opened?.map fun made => made.2.job).toList⟩ := by
  cases he : (s.event f? i o q).opened? <;> simp [books, he]

/-- A request that changes no table and makes no context leaves the books alone. -/
private theorem books_ask_eq {f? : Option StoreFailure} {i : Nat} {o : Operation} {q : Request} {s : Scene}
    (ht : (s.ask f? i o q).2.host.tracked = s.host.tracked) (he : (s.event f? i o q).opened? = none) :
    (s.ask f? i o q).2.books = s.books := by
  rw [books_ask, ht, he]
  simp [books]

private theorem enters_ask (f? : Option StoreFailure) (i : Nat) (o : Operation) (q : Request) (s : Scene) :
    q.Enters (s.ask f? i o q).1 s.books (s.ask f? i o q).2.books := by
  cases q with
  | track k id => exact books_ask f? i o (.track k id) s
  | untrack k id =>
    refine ⟨rfl, (books_ask f? i o (.untrack k id) s).trans ?_⟩
    exact congrArg (Books.mk _) (List.append_nil _)
  | signal k id =>
    refine books_ask_eq ?_ rfl
    show (s.host.answer Memory.store (.signal k id)).2.tracked = s.host.tracked
    rw [Host.signal_eq]
  | complete n =>
    refine books_ask_eq ?_ rfl
    show (s.host.answer Memory.store (.complete n)).2.tracked = s.host.tracked
    rw [Host.complete_eq]
  | store c => cases f? <;> exact books_ask_eq rfl rfl
  | clock | isCompleted n => exact books_ask_eq rfl rfl

/-- The store answers as the contract on the books says. -/
private theorem answers_aloof (f? : Option StoreFailure) (i : Nat) (o : Operation) (q : Request) (s : Scene) :
    Request.aloof.Answers q (s.ask f? i o q).1 := by
  cases q with
  | store c =>
    cases c with
    | create r =>
      intro r' hr'
      cases f? with
      | some f => cases hr'
      | none =>
        replace hr' : (Memory.create r s.host.store).1 = .ok r' := hr'
        rw [Memory.create] at hr'
        split at hr'
        · cases hr'
        · exact (Except.ok.inj hr').symm
    | _ => exact trivial
  | _ => exact trivial

end Scene

/-- What a process answered, if it is through. -/
def Process.reply? : Process → Option Reply
  | ⟨o, .done a⟩ => some ⟨o, a⟩
  | ⟨_, .ask _ _⟩ => none

/-- The process that a move is about. A new one has the next number. -/
def Move.subject? (w : World) : Move → Option Nat
  | .tick _ => none
  | .begin _ => some w.processes.length
  | .step i | .fail i _ => some i

namespace World

variable {w v : World}

/-- What a process answered that was not through before. -/
def replyAt? (w v : World) (i : Nat) : Option Reply :=
  match w.processes[i]?.bind Process.reply? with
  | some _ => none
  | none => v.processes[i]?.bind Process.reply?

/-- What the process that a move is about answers with the move. -/
def reply? (w : World) (x : Move) : Option Reply := (x.subject? w).bind (w.replyAt? (w.move x))

/-- The replies in a run, in order. -/
def replies (w : World) : List Move → List Reply
  | [] => []
  | x :: xs => (w.reply? x).toList ++ (w.move x).replies xs

/-- Every process that is not through changes the books at most by its last request, as it replies. -/
def Tidy (w : World) : Prop :=
  ∀ {i : Nat} {p : Process}, w.processes[i]? = some p → p.reply? = none →
    p.rest.EntersLast fun a => Reply.Enters ⟨p.operation, a⟩

theorem start_tidy (now : Instant) (m₀ : Memory) : (start now m₀).Tidy := fun hi => by simp [start] at hi

/-- A process that left the books alone leaves them so if it is through. -/
private theorem enterAll_reply {o : Operation} {d : Task o.Result} (hd : d.EntersLast fun a => Reply.Enters ⟨o, a⟩)
    (b : Books) : Reply.EnterAll (Process.reply? ⟨o, d⟩).toList b b := by
  cases d with
  | ask x k => rfl
  | done a => exact ⟨b, hd b, rfl⟩

/-- A request leaves the books alone, and the process may do more, or it changes them as the reply tells. -/
theorem Tidy.request (hw : w.Tidy) (f? : Option StoreFailure) {i : Nat} {o : Operation} {q : Request}
    {k : q.Answer → Task o.Result} (hi : w.processes[i]? = some ⟨o, .ask (.request q) k⟩) :
    (k (w.ask f? i o q).1).EntersLast (fun a => Reply.Enters ⟨o, a⟩) ∧ (w.ask f? i o q).2.books = w.books ∨
      ∃ a, k (w.ask f? i o q).1 = .done a ∧ Reply.Enters ⟨o, a⟩ w.books (w.ask f? i o q).2.books := by
  have henters := Scene.enters_ask f? i o q w.toScene
  rcases hw hi rfl with ⟨haloof, hk⟩ | hlast
  · refine .inl ⟨hk _ (Scene.answers_aloof f? i o q w.toScene), ?_⟩
    cases q with
    | track _ _ | untrack _ _ => exact haloof.elim
    | _ => exact henters
  · obtain ⟨a, ha, hresult⟩ := hlast (w.ask f? i o q).1
    exact .inr ⟨a, ha, hresult _ _ henters⟩

theorem Tidy.moved (hw : w.Tidy) (hv : w.Moved v) : v.Tidy := by
  intro i p hi hp
  cases hv with
  | stay => exact hw hi hp
  | tick now => exact hw hi hp
  | begin o ho =>
    rcases process_begin hi with hi | ⟨-, rfl⟩
    · exact hw hi hp
    · exact o.entersLast_task
  | request f? hj =>
    rcases process_set hi with ⟨rfl, rfl⟩ | ⟨-, hi⟩
    · rcases hw.request f? hj with ⟨hk, -⟩ | ⟨a, ha, -⟩
      · exact hk
      · simp only [ha, Process.reply?] at hp
        cases hp
    · exact hw hi hp
  | wake hj hx =>
    rcases process_set hi with ⟨rfl, rfl⟩ | ⟨-, hi⟩
    · have hk := hw hj rfl
      exact hk
    · exact hw hi hp

theorem Tidy.run (hw : w.Tidy) (moves : List Move) : (w.run moves).Tidy :=
  run_induction (P := fun w => w.Tidy) hw (fun w x h => Tidy.moved h (moved_move w x)) moves

private theorem replyAt?_self (w : World) (i : Nat) : w.replyAt? w i = none := by
  unfold replyAt?
  split <;> simp_all

private theorem replyAt?_of_ask {o : Operation} {i : Nat} {y : TaskStep} {k : y.Answer → Task o.Result} {p : Process}
    (hi : w.processes[i]? = some ⟨o, .ask y k⟩) (hv : v.processes[i]? = some p) : w.replyAt? v i = p.reply? := by
  simp [replyAt?, hi, hv, Process.reply?]

/-- A process that goes on changes the books as its reply tells. -/
private theorem Tidy.enterAll_advance (hw : w.Tidy) (f? : Option StoreFailure) (i : Nat) :
    Reply.EnterAll (w.replyAt? (w.advance f? i) i).toList w.books (w.advance f? i).books := by
  have hstay : w.advance f? i = w →
      Reply.EnterAll (w.replyAt? (w.advance f? i) i).toList w.books (w.advance f? i).books := by
    intro h
    rw [h, replyAt?_self]
    rfl
  cases hi : w.processes[i]? with
  | none => exact hstay (by simp only [advance, hi])
  | some p =>
    have hset : ∀ p', (w.processes.set i p')[i]? = some p' := fun p' =>
      List.getElem?_set_self (List.getElem?_eq_some_iff.mp hi).1
    obtain ⟨o, d⟩ := p
    cases d with
    | done a => exact hstay (by simp only [advance, hi])
    | ask y k =>
      cases y with
      | request q =>
        rw [advance_request f? hi, replyAt?_of_ask hi (hset _)]
        show Reply.EnterAll _ w.books (w.ask f? i o q).2.books
        rcases hw.request f? hi with ⟨hk, hbooks⟩ | ⟨a, ha, henters⟩
        · rw [hbooks]
          exact enterAll_reply hk w.books
        · rw [ha]
          exact ⟨_, henters, rfl⟩
      | wait y =>
        cases hy : w.isOver y with
        | false => exact hstay (by simp [advance, hi, hy])
        | true =>
          have hgo : w.advance f? i = { w with processes := w.processes.set i ⟨o, k ()⟩ } := by
            simp [advance, hi, hy]
          have hk : Task.EntersLast (fun a => Reply.Enters ⟨o, a⟩) (k ()) := hw hi rfl
          rw [hgo, replyAt?_of_ask hi (hset _)]
          exact enterAll_reply hk w.books

/-- A move changes the books as its reply tells. -/
theorem Tidy.enterAll_move (hw : w.Tidy) (x : Move) :
    Reply.EnterAll (w.reply? x).toList w.books (w.move x).books := by
  cases x with
  | tick now => rfl
  | step i => exact hw.enterAll_advance none i
  | fail i f => exact hw.enterAll_advance (some f) i
  | begin o =>
    show Reply.EnterAll (w.replyAt? (w.move (.begin o)) w.processes.length).toList _ _
    rw [move]
    split
    · have hreply : w.replyAt? { w with processes := w.processes ++ [⟨o, o.task⟩] } w.processes.length =
          Process.reply? ⟨o, o.task⟩ := by
        simp [replyAt?]
      rw [hreply]
      exact enterAll_reply o.entersLast_task w.books
    · rw [replyAt?_self]
      rfl

/-- In every run the replies change the books, one after another, and nothing else does. -/
theorem Tidy.enterAll (hw : w.Tidy) (moves : List Move) :
    Reply.EnterAll (w.replies moves) w.books (w.run moves).books := by
  induction moves generalizing w with
  | nil => rfl
  | cons x xs ih =>
    have hrest := ih (hw.moved (moved_move w x))
    exact Reply.enterAll_append.mpr ⟨(w.move x).books, hw.enterAll_move x, hrest⟩

end World

end JobLedger
