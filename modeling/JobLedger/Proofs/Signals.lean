import JobLedger.Proofs.HostAnswers
import JobLedger.Proofs.Signalling

/-!
# Contexts and signals

Which contexts are tracked and which signals have fired, against the log. A context is tracked from its making
until it is untracked, and a signal fires exactly if it is searched for while its context is tracked.
-/
namespace JobLedger

/-- The manager was given the context. -/
def HasMade (k : Nat) (c : JobContext) (past : List Event) : Prop := ∃ e ∈ past, e.opened? = some (k, c)

/-- The manager and the job that a request asked to track no longer. -/
def Event.untracked? : Event → Option (Nat × JobId)
  | ⟨_, _, .untrack m id, _⟩ => some (m, id)
  | _ => none

/-- The manager was asked to track the job no longer. -/
def HasUntracked (k : Nat) (id : JobId) (past : List Event) : Prop := ∃ e ∈ past, e.untracked? = some (k, id)

/-- The signal of the job fired that the manager tracked. -/
def HasFired (k : Nat) (id : JobId) (past : List Event) : Prop := ∃ e ∈ past, e.fired? = some (k, id)

section
variable {k : Nat} {c : JobContext} {id : JobId} {past : List Event} {e : Event}

private theorem hasMade_concat : HasMade k c (past ++ [e]) ↔ HasMade k c past ∨ e.opened? = some (k, c) := by
  simp [HasMade, or_and_right, exists_or]

private theorem hasUntracked_concat : HasUntracked k id (past ++ [e]) ↔
    HasUntracked k id past ∨ e.untracked? = some (k, id) := by
  simp [HasUntracked, or_and_right, exists_or]

theorem hasFired_concat : HasFired k id (past ++ [e]) ↔ HasFired k id past ∨ e.fired? = some (k, id) := by
  simp [HasFired, or_and_right, exists_or]

theorem not_hasUntracked (h : past.filterMap Event.untracked? = []) : ¬HasUntracked k id past := by
  rintro ⟨e, he, hu⟩
  cases (List.filterMap_eq_nil_iff.mp h e he).symm.trans hu

end

/-- An entry of a log that was continued by one is the new one, or it stood at the same place before. -/
theorem split_concat {log before after : List Event} {d e : Event} (h : log ++ [d] = before ++ e :: after) :
    log = before ∧ d = e ∨ ∃ later, log = before ++ e :: later := by
  rcases List.eq_nil_or_concat after with rfl | ⟨later, x, rfl⟩
  · obtain ⟨hlog, hd⟩ := List.append_inj' h rfl
    exact .inl ⟨hlog, List.head_eq_of_cons_eq hd⟩
  · rw [List.concat_eq_append, ← List.cons_append, ← List.append_assoc] at h
    exact .inr ⟨later, (List.append_inj' h rfl).1⟩

namespace Event

theorem request_of_fired? {e : Event} {k : Nat} {id : JobId} (h : e.fired? = some (k, id)) :
    e.request = .signal k id := by
  unfold fired? at h
  split at h
  · obtain ⟨rfl, rfl⟩ := Prod.mk.inj (Option.some.inj h)
    rfl
  · cases h

end Event

namespace Scene

variable {m₀ : Memory} {s t : Scene} {f? : Option StoreFailure} {i : Nat} {o : Operation} {q : Request}

/-- What a request does to the tracked contexts and to the signals, told together with the entry that it
leaves. -/
structure Tracks (e : Event) (s t : Scene) : Prop where
  entered : ∀ {k id n}, t.host.tracked.get? (k, id) = some n →
    s.host.tracked.get? (k, id) = some n ∨ e.opened? = some (k, ⟨n, id⟩)
  stays : ∀ {k id n}, s.host.tracked.get? (k, id) = some n → t.host.tracked.get? (k, id) = some n ∨
    e.untracked? = some (k, id) ∨ ∃ n', e.opened? = some (k, ⟨n', id⟩)
  made : ∀ {k c}, e.opened? = some (k, c) → t.host.tracked.get? (k, c.job) = some c.number
  fired : ∀ n, t.host.isCancelled n = true ↔ s.host.isCancelled n = true ∨
    ∃ k id, e.fired? = some (k, id) ∧ s.host.tracked.get? (k, id) = some n
  found : ∀ {k id}, e.fired? = some (k, id) → ∃ n, s.host.tracked.get? (k, id) = some n
  heard : ∀ {k id n}, e.request = .signal k id → s.host.tracked.get? (k, id) = some n → e.fired? = some (k, id)

/-- A request that fires no signal is known by what it does to the tracked contexts. -/
private theorem Tracks.of_quiet {e : Event} (hf : t.host.fired = s.host.fired) (he : e.fired? = none)
    (hq : ∀ k id, e.request = .signal k id → s.host.tracked.get? (k, id) = none)
    (hentered : ∀ k id n, t.host.tracked.get? (k, id) = some n →
      s.host.tracked.get? (k, id) = some n ∨ e.opened? = some (k, ⟨n, id⟩))
    (hstays : ∀ k id n, s.host.tracked.get? (k, id) = some n → t.host.tracked.get? (k, id) = some n ∨
      e.untracked? = some (k, id) ∨ ∃ n', e.opened? = some (k, ⟨n', id⟩))
    (hmade : ∀ k c, e.opened? = some (k, c) → t.host.tracked.get? (k, c.job) = some c.number) : Tracks e s t := by
  constructor
  case entered => exact hentered _ _ _
  case stays => exact hstays _ _ _
  case made => exact hmade _ _
  case fired =>
    intro n
    simp only [Host.isCancelled, hf, he, reduceCtorEq, false_and, exists_false, or_false]
  case found =>
    intro k id h
    cases he.symm.trans h
  case heard =>
    intro k id n h hn
    cases (hq k id h).symm.trans hn

private theorem Tracks.of_eq {e : Event} (ht : t.host.tracked = s.host.tracked) (hf : t.host.fired = s.host.fired)
    (ho : e.opened? = none) (he : e.fired? = none)
    (hq : ∀ k id, e.request = .signal k id → s.host.tracked.get? (k, id) = none) : Tracks e s t := by
  refine .of_quiet hf he hq (fun k id n h => .inl (ht ▸ h)) (fun k id n h => .inl (ht ▸ h)) ?_
  intro k c h
  cases ho.symm.trans h

/-- A new context takes the place of the one that was tracked for its job. -/
private theorem tracks_track (f? : Option StoreFailure) (i : Nat) (o : Operation) (k : Nat) (id : JobId) (s : Scene) :
    Tracks (s.event f? i o (.track k id)) s (s.ask f? i o (.track k id)).2 := by
  have htable : ∀ k' id', (s.ask f? i o (.track k id)).2.host.tracked.get? (k', id') =
      if (k', id') = (k, id) then some s.host.contexts else s.host.tracked.get? (k', id') :=
    fun k' id' => Table.get?_insert s.host.tracked (k, id) (k', id') s.host.contexts
  have hopened : (s.event f? i o (.track k id)).opened? = some (k, ⟨s.host.contexts, id⟩) := rfl
  refine .of_quiet rfl rfl (fun _ _ h => by cases h) ?_ ?_ ?_
  · intro k' id' n hn
    rw [htable] at hn
    split at hn
    case isTrue h =>
      obtain ⟨rfl, rfl⟩ := Prod.mk.inj h
      obtain rfl := Option.some.inj hn
      exact .inr hopened
    case isFalse => exact .inl hn
  · intro k' id' n hn
    rw [htable]
    split
    case isTrue h =>
      obtain ⟨rfl, rfl⟩ := Prod.mk.inj h
      exact .inr (.inr ⟨_, hopened⟩)
    case isFalse => exact .inl hn
  · intro k' c hc
    obtain ⟨rfl, rfl⟩ := Prod.mk.inj (Option.some.inj (hopened.symm.trans hc))
    rw [htable, if_pos rfl]

private theorem tracks_untrack (f? : Option StoreFailure) (i : Nat) (o : Operation) (k : Nat) (id : JobId) (s : Scene) :
    Tracks (s.event f? i o (.untrack k id)) s (s.ask f? i o (.untrack k id)).2 := by
  have htable : ∀ k' id', (s.ask f? i o (.untrack k id)).2.host.tracked.get? (k', id') =
      if (k', id') = (k, id) then none else s.host.tracked.get? (k', id') :=
    fun k' id' => Table.get?_erase s.host.tracked (k, id) (k', id')
  refine .of_quiet rfl rfl (fun _ _ h => by cases h) ?_ ?_ fun _ _ h => by cases h
  · intro k' id' n hn
    rw [htable] at hn
    split at hn
    · cases hn
    · exact .inl hn
  · intro k' id' n hn
    rw [htable]
    split
    case isTrue h =>
      obtain ⟨rfl, rfl⟩ := Prod.mk.inj h
      exact .inr (.inl rfl)
    case isFalse => exact .inl hn

/-- The signal of the context that is tracked for the job fires. -/
private theorem tracks_signal (f? : Option StoreFailure) (i : Nat) (o : Operation) (k : Nat) (id : JobId) (s : Scene) :
    Tracks (s.event f? i o (.signal k id)) s (s.ask f? i o (.signal k id)).2 := by
  cases hk : s.host.tracked.get? (k, id) with
  | none =>
    refine .of_eq ?_ ?_ rfl ?_ ?_
    · simp [ask, answer, Host.answer, hk]
    · simp [ask, answer, Host.answer, hk]
    · simp [event, ask, answer, Host.answer, hk, Event.fired?]
    · rintro _ _ ⟨⟩
      exact hk
  | some n =>
    have hfired : (s.event f? i o (.signal k id)).fired? = some (k, id) := by
      simp [event, ask, answer, Host.answer, hk, Event.fired?]
    have hhost : (s.ask f? i o (.signal k id)).2.host = s.host.fire n := by
      simp [ask, answer, Host.answer, hk]
    have htable : (s.ask f? i o (.signal k id)).2.host.tracked = s.host.tracked := by
      rw [hhost, Host.fire]
      split <;> rfl
    constructor
    case entered => exact fun h => .inl (htable ▸ h)
    case stays => exact fun h => .inl (htable.symm ▸ h)
    case made => exact fun h => by cases h
    case fired =>
      intro j
      rw [hhost, Host.isCancelled_fire]
      constructor
      · rintro (hj | rfl)
        · exact .inl hj
        · exact .inr ⟨k, id, hfired, hk⟩
      · rintro (hj | ⟨k', id', he, hj⟩)
        · exact .inl hj
        · obtain ⟨rfl, rfl⟩ := Prod.mk.inj (Option.some.inj (hfired.symm.trans he))
          exact .inr (Option.some.inj (hj.symm.trans hk))
    case found =>
      intro k' id' he
      obtain ⟨rfl, rfl⟩ := Prod.mk.inj (Option.some.inj (hfired.symm.trans he))
      exact ⟨n, hk⟩
    case heard =>
      rintro _ _ _ ⟨⟩ -
      exact hfired

/-- Each request leaves its entry so. -/
theorem tracks (f? : Option StoreFailure) (i : Nat) (o : Operation) (q : Request) (s : Scene) :
    Tracks (s.event f? i o q) s (s.ask f? i o q).2 := by
  cases q with
  | track k id => exact tracks_track f? i o k id s
  | signal k id => exact tracks_signal f? i o k id s
  | untrack k id => exact tracks_untrack f? i o k id s
  | complete n =>
    refine .of_eq ?_ ?_ rfl rfl fun _ _ h => by cases h
    · simp only [ask, answer, Host.answer]
      split <;> rfl
    · simp only [ask, answer, Host.answer]
      split <;> rfl
  | store call => cases f? <;> exact .of_eq rfl rfl rfl rfl fun _ _ h => by cases h
  | clock => exact .of_eq rfl rfl rfl rfl fun _ _ h => by cases h
  | isCompleted n => exact .of_eq rfl rfl rfl rfl fun _ _ h => by cases h

theorem hasOpened_of_hasMade {k : Nat} {c : JobContext} (h : HasMade k c s.log) : s.HasOpened c := by
  obtain ⟨e, he, ho⟩ := h
  exact ⟨e, he, k, ho⟩

/-- The tracked contexts and the signals, against the log. -/
structure Signals (s : Scene) : Prop where
  tracked : ∀ {k id n}, s.host.tracked.get? (k, id) = some n → HasMade k ⟨n, id⟩ s.log
  held : ∀ {k c}, HasMade k c s.log →
    s.host.tracked.get? (k, c.job) = some c.number ∨ HasUntracked k c.job s.log
  madeOnce : ∀ {k k' c c'}, HasMade k c s.log → HasMade k' c' s.log → c.job = c'.job → k = k' ∧ c = c'
  cancelled : ∀ {n}, s.host.isCancelled n = true → ∃ k id, HasFired k id s.log ∧ HasMade k ⟨n, id⟩ s.log
  fired : ∀ {k id}, HasFired k id s.log → ∃ n, HasMade k ⟨n, id⟩ s.log ∧ s.host.isCancelled n = true
  /-- A search for a context that was made and not untracked before finds it. -/
  heard : ∀ {before e after k c}, s.log = before ++ e :: after → e.request = .signal k c.job →
    HasMade k c before → ¬HasUntracked k c.job before → e.fired? = some (k, c.job)

/-- A request that an operation may ask keeps the signals. -/
theorem Signals.ask (hs : s.Signals) (hl : s.Ledger m₀) (hh : s.Handles) (hq : s.MayAsk m₀ i o q) :
    (s.ask f? i o q).2.Signals := by
  have ht := Scene.tracks f? i o q s
  have hnew : ∀ {k k' c c'}, HasMade k c s.log → (s.event f? i o q).opened? = some (k', c') → c.job ≠ c'.job := by
    intro k k' c c' hc hc'
    obtain ⟨rfl, -⟩ := opened?_event hc'
    exact job_ne_of_mayAsk_track hl hh hq (hasOpened_of_hasMade hc)
  constructor
  case tracked =>
    intro k id n hn
    rw [ask_log, hasMade_concat]
    exact (ht.entered hn).imp_left hs.tracked
  case held =>
    intro k c hc
    rw [ask_log, hasMade_concat] at hc
    rw [ask_log, hasUntracked_concat]
    rcases hc with hc | hc
    · rcases hs.held hc with hn | hu
      · rcases ht.stays hn with hn | hu | ⟨n, hn⟩
        · exact .inl hn
        · exact .inr (.inr hu)
        · exact (hnew hc hn rfl).elim
      · exact .inr (.inl hu)
    · exact .inl (ht.made hc)
  case madeOnce =>
    intro k k' c c' hc hc' hjob
    rw [ask_log, hasMade_concat] at hc hc'
    rcases hc with hc | hc
    · rcases hc' with hc' | hc'
      · exact hs.madeOnce hc hc' hjob
      · exact absurd hjob (hnew hc hc')
    · rcases hc' with hc' | hc'
      · exact absurd hjob.symm (hnew hc' hc)
      · exact Prod.mk.inj (Option.some.inj (hc.symm.trans hc'))
  case cancelled =>
    intro n hn
    rcases (ht.fired n).mp hn with hn | ⟨k, id, he, hk⟩
    · obtain ⟨k, id, hf, hm⟩ := hs.cancelled hn
      exact ⟨k, id, hasFired_concat.mpr (.inl hf), hasMade_concat.mpr (.inl hm)⟩
    · exact ⟨k, id, hasFired_concat.mpr (.inr he), hasMade_concat.mpr (.inl (hs.tracked hk))⟩
  case fired =>
    intro k id hf
    rcases hasFired_concat.mp hf with hf | hf
    · obtain ⟨n, hm, hn⟩ := hs.fired hf
      exact ⟨n, hasMade_concat.mpr (.inl hm), (ht.fired n).mpr (.inl hn)⟩
    · obtain ⟨n, hn⟩ := ht.found hf
      exact ⟨n, hasMade_concat.mpr (.inl (hs.tracked hn)), (ht.fired n).mpr (.inr ⟨k, id, hf, hn⟩)⟩
  case heard =>
    intro before e after k c hlog he hm hu
    rcases split_concat hlog with ⟨rfl, rfl⟩ | ⟨later, hlog⟩
    · rcases hs.held hm with hn | hu'
      · exact ht.heard he hn
      · exact absurd hu' hu
    · exact hs.heard hlog he hm hu

/-- A signal has fired exactly if a search for it found its context. -/
theorem Signals.isCancelled_iff (hs : s.Signals) (hh : s.Handles) {k : Nat} {c : JobContext}
    (hc : HasMade k c s.log) : s.host.isCancelled c.number = true ↔ HasFired k c.job s.log := by
  constructor
  · intro hn
    obtain ⟨k', id, hf, hm⟩ := hs.cancelled hn
    have heq : c = ⟨c.number, id⟩ :=
      hh.openedOnce c _ (hasOpened_of_hasMade hc) (hasOpened_of_hasMade hm) rfl
    obtain ⟨rfl, -⟩ := hs.madeOnce hc hm (congrArg JobContext.job heq)
    exact congrArg JobContext.job heq ▸ hf
  · intro hf
    obtain ⟨n, hm, hn⟩ := hs.fired hf
    obtain ⟨-, heq⟩ := hs.madeOnce hc hm rfl
    exact congrArg JobContext.number heq ▸ hn

end Scene

namespace World

variable {m₀ : Memory} {w v : World}

theorem Sound.signals_moved (h : w.Sound m₀) (hs : w.Signals) (hv : w.Moved v) : v.Signals := by
  cases hv with
  | request f? hp => exact hs.ask h.ledger h.handles (h.mayAsk hp)
  | _ => exact ⟨hs.tracked, hs.held, hs.madeOnce, hs.cancelled, hs.fired, hs.heard⟩

theorem start_signals (now : Instant) (m₀ : Memory) : (start now m₀).Signals := by
  have hmade : ∀ {k c}, ¬HasMade k c (start now m₀).log := by
    rintro k c ⟨e, he, -⟩
    exact List.not_mem_nil he
  have hfired : ∀ {k id}, ¬HasFired k id (start now m₀).log := by
    rintro k id ⟨e, he, -⟩
    exact List.not_mem_nil he
  constructor
  case tracked => exact fun h => by cases h
  case held => exact fun h => absurd h hmade
  case madeOnce => exact fun h => absurd h hmade
  case cancelled => exact fun h => by cases h
  case fired => exact fun h => absurd h hfired
  case heard => exact fun h => absurd h.symm (List.append_ne_nil_of_right_ne_nil _ (List.cons_ne_nil _ _))

/-- In every world that a run reaches the signals agree with the log. -/
theorem Reachable.signals (hm : m₀.Keyed) (hw : w.Reachable m₀) : w.Signals :=
  hw.induction (P := fun w => w.Signals) hm (start_signals · m₀) fun x h hs => h.signals_moved hs (moved_move _ x)

end World

end JobLedger
