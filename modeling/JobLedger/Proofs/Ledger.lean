import JobLedger.Proofs.Interference
import JobLedger.Proofs.KeyedMemory
import JobLedger.Proofs.Scenes

/-!
# The ledger of a scene

The invariant of the shared store and of its log, for whatever operations are under way. A record is put into
the store only by a request of an operation that may make it, so the log accounts for every record and for
the end of every job.
-/
namespace JobLedger

open JobRecord (Mark accepted accepted_wellFormed)

/-- The mark that a step of work asks for, if one that ends the job. -/
def WorkStep.mark? : WorkStep → Option Mark
  | .setResult payload => some (.succeeded payload)
  | .setFailed message detail => some (.failed message detail)
  | _ => none

/-- What is said of a result without a JSON form, with the reason that its serializer gives. -/
def serializationFailure (reason : String) : String := "result serialization failed: " ++ Text.withPosition reason

/-- The mark by which the end of work is recorded. -/
def WorkEnd.mark : WorkEnd → Mark
  | .value payload => .succeeded payload
  | .unserializable reason => .failed (serializationFailure reason) none
  | .error message debug => .failed message (some debug)
  | .panic text => .failed "job panicked" text

/-- The ends that steps with an end may come to. -/
inductive WorkStep.Reaches (steps : List WorkStep) (ending : WorkEnd) : WorkEnd → Prop where
  | through : Reaches steps ending ending
  | unserializable {reason : String} (h : .setUnserializable reason ∈ steps) :
    Reaches steps ending (.ofError (.invalidPayload (.unserializable reason)))
  | failure (f : StoreFailure) : Reaches steps ending (.ofError f.error.toJobError)

namespace Operation

/-- The operation may create the record. -/
def Creates : Operation → JobRecord → Prop
  | .create m id request, r => ∃ now, r = accepted id request m.instanceId now
  | _, _ => False

/-- The operation may end a job, which has the timeout, with the mark. -/
def Makes (id : JobId) (seconds : UInt64) : Operation → Mark → Prop
  | .cancel _ job, m => job = id ∧ m = .cancelled
  | .sweep _ _, m => m = .timedOut (Sweep.timeoutMessage seconds)
  | .setResult c payload, m => c.job = id ∧ m = .succeeded payload
  | .setFailed c message detail, m => c.job = id ∧ m = .failed message detail
  | .spawn _ c (.steps steps ending), m => c.job = id ∧
    ((∃ x ∈ steps, x.mark? = some m) ∨ ∃ e, WorkStep.Reaches steps ending e ∧ m = e.mark)
  | _, _ => False

/-- An operation other than work makes one mark of a job. -/
theorem Makes.unique {id : JobId} {seconds : UInt64} {o : Operation} {m m' : Mark} (h : o.Makes id seconds m)
    (h' : o.Makes id seconds m') (ho : ∀ g c work, o ≠ .spawn g c work) : m = m' := by
  cases o with
  | spawn g c work => exact absurd rfl (ho g c work)
  | sweep g now => exact h.trans h'.symm
  | cancel g job => exact h.2.trans h'.2.symm
  | setResult c payload => exact h.2.trans h'.2.symm
  | setFailed c message detail => exact h.2.trans h'.2.symm
  | _ => exact h.elim

theorem Creates.isTerminal {o : Operation} {r : JobRecord} (h : o.Creates r) : r.isTerminal = false := by
  cases o with
  | create m id request =>
    obtain ⟨now, rfl⟩ := h
    rfl
  | _ => exact h.elim

theorem Creates.wellFormed {o : Operation} {r : JobRecord} (h : o.Creates r) : r.WellFormed := by
  cases o with
  | create m id request =>
    obtain ⟨now, rfl⟩ := h
    exact accepted_wellFormed id request m.instanceId now
  | _ => exact h.elim

end Operation

namespace Scene

variable {m₀ : Memory} {s t : Scene} {f? : Option StoreFailure} {i : Nat} {o : Operation} {q : Request}

/-- The operation may put the record into the store in the place of an open one. -/
structure MayWrite (m₀ : Memory) (o : Operation) (r : JobRecord) (s : Scene) : Prop where
  origin : ∃ x, s.stored r.id = some x ∧ x.origin = r.origin
  state : r.state ≠ .accepted
  wellFormed : m₀.Lacks r.id → r.WellFormed
  made : r.isTerminal = true →
    ∃ m, o.Makes r.id r.timeoutSeconds m ∧ m.state = r.state ∧ (m₀.Lacks r.id → r.outcome = m.outcome)

/-- The operation of a process may ask the request. -/
def MayAsk (m₀ : Memory) (i : Nat) (o : Operation) (q : Request) (s : Scene) : Prop :=
  match q with
  | .store (.create r) => o.Creates r
  | .store (.update r) => s.MayWrite m₀ o r
  | .track _ id =>
    (∃ e ∈ s.own i, ∃ r, e.created? = some r ∧ r.id = id) ∧ ∀ e ∈ s.own i, e.opened? = none
  | .complete n => ∃ c, s.HasOpened c ∧ c.number = n ∧ s.HasEnded c.job
  | _ => True

/-- The entry accounts for the record that it put into the store. -/
structure Entry (m₀ : Memory) (e : Event) (s : Scene) : Prop where
  created : ∀ r, e.created? = some r → m₀.Lacks r.id ∧ e.operation.Creates r ∧
    ∃ x, s.stored r.id = some x ∧ x.origin = r.origin
  ending : ∀ r, e.ending? = some r → s.stored r.id = some r ∧
    ∃ m, e.operation.Makes r.id r.timeoutSeconds m ∧ m.state = r.state ∧ (m₀.Lacks r.id → r.outcome = m.outcome)

/-- Every stored record is in its place, well formed if new, and its end is told in the log. -/
structure Accounted (m₀ : Memory) (s : Scene) : Prop where
  keyed : s.host.store.Keyed
  lacks : ∀ {id}, s.stored id = none → m₀.Lacks id
  wellFormed : ∀ {id r}, s.stored id = some r → m₀.Lacks id → r.WellFormed
  ended : ∀ {id r}, s.stored id = some r → m₀.Lacks id → r.isTerminal = true → ∃ e ∈ s.log, e.ending? = some r

/-- The stored records and the log account for each other, no job was created or ended twice. -/
structure Ledger (m₀ : Memory) (s : Scene) : Prop extends Accounted m₀ s where
  entry : ∀ e ∈ s.log, s.Entry m₀ e
  createdOnce : ∀ e ∈ s.log, ∀ e' ∈ s.log, ∀ r r', e.created? = some r → e'.created? = some r' →
    r.id = r'.id → e.process = e'.process
  endedOnce : (s.endings.map JobRecord.id).Nodup

/-- Every context was made for a job that the same process created, and is used for this one only. -/
structure Handles (s : Scene) : Prop where
  opened : ∀ e ∈ s.log, ∀ m c, e.opened? = some (m, c) → c.number < s.host.contexts ∧
    ∃ e' ∈ s.own e.process, ∃ r, e'.created? = some r ∧ r.id = c.job
  openedOnce : ∀ c c', s.HasOpened c → s.HasOpened c' → c.number = c'.number → c = c'
  completed : ∀ n ∈ s.host.completed, ∃ c, s.HasOpened c ∧ c.number = n ∧ s.HasEnded c.job

theorem MayWrite.evolves {r : JobRecord} (h : s.MayWrite m₀ o r) (hst : Evolves s t) : t.MayWrite m₀ o r := by
  obtain ⟨x, hx, ho⟩ := h.origin
  obtain ⟨y, hy, hoy, -⟩ := hst.kept hx
  exact ⟨⟨y, hy, hoy.trans ho⟩, h.state, h.wellFormed, h.made⟩

theorem Entry.evolves {e : Event} (h : s.Entry m₀ e) (hst : Evolves s t) : t.Entry m₀ e := by
  constructor
  case created =>
    intro r hr
    obtain ⟨hl, hc, x, hx, ho⟩ := h.created r hr
    obtain ⟨y, hy, hoy, -⟩ := hst.kept hx
    exact ⟨hl, hc, y, hy, hoy.trans ho⟩
  case ending =>
    intro r hr
    obtain ⟨hs, hm⟩ := h.ending r hr
    exact ⟨hst.stored_of_terminal hs (Event.ending?_eq_some.mp hr).2, hm⟩

private theorem Entry.of_written?_none {e : Event} (h : e.written? = none) : s.Entry m₀ e := by
  constructor
  case created =>
    intro r hr
    rw [Event.written?_of_created? hr] at h
    cases h
  case ending =>
    intro r hr
    rw [Event.ending?_of_written?_none h] at hr
    cases hr

/-- A request that an operation may ask leaves the stored records what they were. -/
theorem kept_ask (f? : Option StoreFailure) (hq : s.MayAsk m₀ i o q) {id : JobId} {r : JobRecord}
    (hr : s.stored id = some r) : ∃ r', (s.ask f? i o q).2.stored id = some r' ∧ r'.origin = r.origin ∧
      (r' = r ∨ r.state.canBecome r'.state = true) := by
  cases records f? i o q s with
  | nothing he ht => exact ⟨r, (stored_congr ht id).trans hr, rfl, .inl rfl⟩
  | created n hn he hs ht =>
    have hid : id ≠ n.id := by
      rintro rfl
      rw [hs] at hr
      cases hr
    exact ⟨r, by rw [stored_insert ht, if_neg hid, hr], rfl, .inl rfl⟩
  | updated n old now hn hc he hs ho ht =>
    subst hn
    by_cases hid : id = n.id
    · subst hid
      obtain ⟨x, hx, hox⟩ := hq.origin
      obtain rfl := Option.some.inj (hs.symm.trans hr)
      obtain rfl := Option.some.inj (hx.symm.trans hr)
      -- The look behind the record may be old; that the store still held it open settles the transition.
      have hb : x.state.canBecome n.state = true := JobState.canBecome_iff.mpr ⟨ho, hq.state⟩
      exact ⟨n.stamped now, by rw [stored_insert ht, if_pos]; rfl, hox.symm, .inr hb⟩
    · exact ⟨r, by rw [stored_insert ht, JobRecord.stamped_id, if_neg hid, hr], rfl, .inl rfl⟩

/-- A job is given a context only once. -/
theorem job_ne_of_mayAsk_track (hl : s.Ledger m₀) (hh : s.Handles) {k : Nat} {id : JobId}
    (hq : s.MayAsk m₀ i o (.track k id)) {c : JobContext} (hc : s.HasOpened c) : c.job ≠ id := by
  obtain ⟨⟨e', he', r', hr', rfl⟩, hno⟩ := hq
  obtain ⟨e, he, n, hn⟩ := hc
  obtain ⟨-, e'', he'', r'', hr'', hid⟩ := hh.opened e he n c hn
  intro heq
  have hp := hl.createdOnce e'' (mem_own.mp he'').1 e' (mem_own.mp he').1 r'' r' hr'' hr' (hid.trans heq)
  have hi : e.process = i := ((mem_own.mp he'').2.symm.trans hp).trans (mem_own.mp he').2
  have hnone := hno e (mem_own.mpr ⟨he, hi⟩)
  rw [hn] at hnone
  cases hnone

private theorem not_tracked_ask (hl : s.Ledger m₀) (hh : s.Handles) (hq : s.MayAsk m₀ i o q) {m : Nat} {c : JobContext}
    (hc : s.HasOpened c) (hm : s.host.isTracked m c.job = false) :
    (s.ask f? i o q).2.host.isTracked m c.job = false := by
  cases q with
  | track k id =>
    have hne := job_ne_of_mayAsk_track hl hh hq hc
    have hkey : (m, c.job) ≠ (k, id) := fun h => hne (congrArg Prod.snd h)
    simpa [ask, answer, Host.answer, Host.isTracked, Table.contains, Table.get?_insert, hkey] using hm
  | untrack k id =>
    simp only [ask, answer, Host.answer, Host.isTracked, Table.contains, Table.get?_erase]
    split
    · rfl
    · exact hm
  | signal k id =>
    simp only [ask, answer, Host.answer]
    split
    · unfold Host.fire
      split <;> exact hm
    · exact hm
  | complete n =>
    simp only [ask, answer, Host.answer]
    split <;> exact hm
  | store call => cases f? <;> exact hm
  | clock => exact hm
  | isCompleted n => exact hm

/-- A request that an operation may ask leads to a later scene. -/
theorem evolves_ask (f? : Option StoreFailure) (hl : s.Ledger m₀) (hh : s.Handles) (hq : s.MayAsk m₀ i o q) :
    Evolves s (s.ask f? i o q).2 := by
  constructor
  case kept =>
    intro id r hr
    obtain ⟨r', hr', ho, hs⟩ := kept_ask f? hq hr
    refine ⟨r', hr', ho, ?_⟩
    intro ht
    rcases hs with hs | hb
    · exact hs
    · have hopen := (JobState.canBecome_iff.mp hb).1
      exact Bool.noConfusion (ht.symm.trans hopen)
  case untracked =>
    intro m c hc hm
    exact not_tracked_ask hl hh hq hc hm
  case logged =>
    refine ⟨[s.event f? i o q], ask_log, ?_⟩
    intro id hid
    have hne := hid _ (List.mem_singleton_self _)
    cases records f? i o q s with
    | nothing he ht => exact stored_congr ht id
    | created n hn he hs ht => rw [stored_insert ht, if_neg (Ne.symm (hne n (Event.written?_of_created? he)))]
    | updated n old now hn hc he hs ho ht =>
      rw [stored_insert ht, if_neg (Ne.symm (hne (n.stamped now) he))]

theorem mem_ask_log {e : Event} : e ∈ (s.ask f? i o q).2.log ↔ e ∈ s.log ∨ e = s.event f? i o q := by
  rw [ask_log, List.mem_append, List.mem_singleton]

private theorem endings_ask : (s.ask f? i o q).2.endings = s.endings ++ (s.event f? i o q).ending?.toList := by
  cases h : (s.event f? i o q).ending? <;> simp [endings, h]

theorem Accounted.of_store_eq (h : s.Accounted m₀) (ht : t.host.store = s.host.store) (hst : Evolves s t) :
    t.Accounted m₀ := by
  have heq := stored_congr ht
  constructor
  case keyed => exact ht ▸ h.keyed
  case lacks =>
    intro id hr
    exact h.lacks (heq id ▸ hr)
  case wellFormed =>
    intro id r hr
    exact h.wellFormed (heq id ▸ hr)
  case ended =>
    intro id r hr hm hterm
    obtain ⟨e, hmem, hend⟩ := h.ended (heq id ▸ hr) hm hterm
    exact ⟨e, hst.mem_log hmem, hend⟩

/-- A record put into its place, with an entry of the log that tells of it. -/
theorem Accounted.put (h : s.Accounted m₀) (hst : Evolves s t) {x : JobRecord} {e : Event}
    (ht : t.host.store = ⟨s.host.store.records.insert x.id x⟩) (hx : m₀.Lacks x.id → x.WellFormed)
    (hmem : e ∈ t.log) (he : e.written? = some x) : t.Accounted m₀ := by
  have hold : ∀ {id}, id ≠ x.id → t.stored id = s.stored id := fun hid =>
    (stored_insert ht _).trans (if_neg hid)
  have hnew : t.stored x.id = some x := (stored_insert ht x.id).trans (if_pos rfl)
  constructor
  case keyed => exact ht ▸ h.keyed.insert x
  case lacks =>
    intro id hr
    by_cases hid : id = x.id
    · rw [hid, hnew] at hr
      cases hr
    · exact h.lacks ((hold hid).symm.trans hr)
  case wellFormed =>
    intro id r hr hm
    by_cases hid : id = x.id
    · subst hid
      obtain rfl := Option.some.inj (hnew.symm.trans hr)
      exact hx hm
    · exact h.wellFormed ((hold hid).symm.trans hr) hm
  case ended =>
    intro id r hr hm hterm
    by_cases hid : id = x.id
    · subst hid
      obtain rfl := Option.some.inj (hnew.symm.trans hr)
      exact ⟨e, hmem, Event.ending?_eq_some.mpr ⟨he, hterm⟩⟩
    · obtain ⟨e', hmem', hend⟩ := h.ended ((hold hid).symm.trans hr) hm hterm
      exact ⟨e', hst.mem_log hmem', hend⟩

/-- The log after a request accounts for what it did if its new entry does. -/
private theorem Ledger.entry_ask (hl : s.Ledger m₀) (hst : Evolves s (s.ask f? i o q).2)
    (he : (s.ask f? i o q).2.Entry m₀ (s.event f? i o q)) :
    ∀ e ∈ (s.ask f? i o q).2.log, (s.ask f? i o q).2.Entry m₀ e := by
  intro e hmem
  rcases mem_ask_log.mp hmem with h | rfl
  · exact (hl.entry e h).evolves hst
  · exact he

private theorem Ledger.createdOnce_ask (hl : s.Ledger m₀)
    (he : ∀ r, (s.event f? i o q).created? = some r → s.stored r.id = none) :
    ∀ e ∈ (s.ask f? i o q).2.log, ∀ e' ∈ (s.ask f? i o q).2.log, ∀ r r', e.created? = some r →
      e'.created? = some r' → r.id = r'.id → e.process = e'.process := by
  have hnew : ∀ e ∈ s.log, ∀ r r', e.created? = some r → (s.event f? i o q).created? = some r' →
      r.id ≠ r'.id := by
    intro e hmem r r' hr hr' hid
    obtain ⟨-, -, x, hx, -⟩ := (hl.entry e hmem).created r hr
    rw [hid, he r' hr'] at hx
    cases hx
  intro e hmem e' hmem' r r' hr hr' hid
  rcases mem_ask_log.mp hmem with h | rfl
  · rcases mem_ask_log.mp hmem' with h' | rfl
    · exact hl.createdOnce e h e' h' r r' hr hr' hid
    · exact absurd hid (hnew e h r r' hr hr')
  · rcases mem_ask_log.mp hmem' with h' | rfl
    · exact absurd hid.symm (hnew e' h' r' r hr' hr)
    · rfl

private theorem Ledger.endedOnce_ask (hl : s.Ledger m₀)
    (he : ∀ r, (s.event f? i o q).ending? = some r → ∃ x, s.stored r.id = some x ∧ x.isTerminal = false) :
    ((s.ask f? i o q).2.endings.map JobRecord.id).Nodup := by
  rw [endings_ask]
  cases h : (s.event f? i o q).ending? with
  | none => simpa using hl.endedOnce
  | some r =>
    obtain ⟨x, hx, hopen⟩ := he r h
    have hnot : r.id ∉ s.endings.map JobRecord.id := by
      intro hmem
      obtain ⟨r', hr', hid⟩ := List.mem_map.mp hmem
      obtain ⟨e, hlog, hend⟩ := List.mem_filterMap.mp hr'
      have hs := ((hl.entry e hlog).ending r' hend).1
      rw [hid, hx] at hs
      obtain rfl := Option.some.inj hs
      exact Bool.noConfusion ((Event.ending?_eq_some.mp hend).2.symm.trans hopen)
    rw [Option.toList_some, List.map_append, List.map_singleton, List.nodup_append]
    refine ⟨hl.endedOnce, by simp, ?_⟩
    intro a ha b hb hab
    rw [hab, List.mem_singleton.mp hb] at ha
    exact hnot ha

/-- A request that an operation may ask keeps the ledger. -/
theorem Ledger.ask (hl : s.Ledger m₀) (hh : s.Handles) (hq : s.MayAsk m₀ i o q) :
    (s.ask f? i o q).2.Ledger m₀ := by
  have hst := evolves_ask f? hl hh hq
  have hmem : s.event f? i o q ∈ (s.ask f? i o q).2.log := mem_ask_log.mpr (.inr rfl)
  cases records f? i o q s with
  | nothing he ht =>
    constructor
    case toAccounted => exact hl.toAccounted.of_store_eq ht hst
    case entry => exact hl.entry_ask hst (.of_written?_none he)
    case createdOnce =>
      apply hl.createdOnce_ask
      intro r hr
      rw [Event.written?_of_created? hr] at he
      cases he
    case endedOnce =>
      apply hl.endedOnce_ask
      intro r hr
      rw [Event.ending?_of_written?_none he] at hr
      cases hr
  | created n hn he hs ht =>
    subst hn
    have hc : o.Creates n := hq
    have hw := Event.written?_of_created? he
    have hnone := Event.ending?_of_written?_open hw hc.isTerminal
    have hentry : (s.ask f? i o (.store (.create n))).2.Entry m₀ (s.event f? i o (.store (.create n))) := by
      constructor
      case created =>
        intro r hr
        obtain rfl := Option.some.inj (he.symm.trans hr)
        exact ⟨hl.lacks hs, hc, n, by rw [stored_insert ht, if_pos rfl], rfl⟩
      case ending =>
        intro r hr
        rw [hnone] at hr
        cases hr
    constructor
    case toAccounted => exact hl.toAccounted.put hst ht (fun _ => hc.wellFormed) hmem hw
    case entry => exact hl.entry_ask hst hentry
    case createdOnce =>
      apply hl.createdOnce_ask
      intro r hr
      obtain rfl := Option.some.inj (he.symm.trans hr)
      exact hs
    case endedOnce =>
      apply hl.endedOnce_ask
      intro r hr
      rw [hnone] at hr
      cases hr
  | updated n old now hn hc he hs ho ht =>
    subst hn
    have hw : s.MayWrite m₀ o n := hq
    have hend : ∀ {r}, (s.event f? i o (.store (.update n))).ending? = some r →
        r = n.stamped now ∧ n.isTerminal = true := by
      intro r hr
      obtain ⟨hr, hterm⟩ := Event.ending?_eq_some.mp hr
      obtain rfl := Option.some.inj (he.symm.trans hr)
      exact ⟨rfl, hterm⟩
    have hentry : (s.ask f? i o (.store (.update n))).2.Entry m₀ (s.event f? i o (.store (.update n))) := by
      constructor
      case created =>
        intro r hr
        rw [hc] at hr
        cases hr
      case ending =>
        intro r hr
        obtain ⟨rfl, hterm⟩ := hend hr
        exact ⟨by rw [stored_insert ht, if_pos rfl], hw.made hterm⟩
    constructor
    case toAccounted =>
      exact hl.toAccounted.put hst (x := n.stamped now) ht (fun hm => (hw.wellFormed hm).stamped now) hmem he
    case entry => exact hl.entry_ask hst hentry
    case createdOnce =>
      apply hl.createdOnce_ask
      intro r hr
      rw [hc] at hr
      cases hr
    case endedOnce =>
      apply hl.endedOnce_ask
      intro r hr
      obtain ⟨rfl, -⟩ := hend hr
      exact ⟨old, hs, ho⟩

theorem opened?_event {m : Nat} {c : JobContext} (h : (s.event f? i o q).opened? = some (m, c)) :
    q = .track m c.job ∧ c.number = s.host.contexts ∧ (s.ask f? i o q).2.host.contexts = s.host.contexts + 1 := by
  cases q with
  | track k id =>
    obtain ⟨rfl, rfl⟩ := Prod.mk.inj (Option.some.inj h)
    exact ⟨rfl, rfl, rfl⟩
  | _ => cases h

private theorem contexts_ask : s.host.contexts ≤ (s.ask f? i o q).2.host.contexts := by
  cases q with
  | track k id => exact Nat.le_succ _
  | store call => cases f? <;> exact Nat.le_refl _
  | signal k id =>
    simp only [ask, answer, Host.answer]
    split
    · unfold Host.fire
      split <;> exact Nat.le_refl _
    · exact Nat.le_refl _
  | complete n =>
    simp only [ask, answer, Host.answer]
    split <;> exact Nat.le_refl _
  | _ => exact Nat.le_refl _

private theorem completed_ask {n : Nat} (h : n ∈ (s.ask f? i o q).2.host.completed) :
    n ∈ s.host.completed ∨ q = .complete n := by
  cases q with
  | complete k =>
    simp only [ask, answer, Host.answer] at h
    split at h
    · exact .inl h
    · rcases List.mem_append.mp h with h | h
      · exact .inl h
      · rw [List.mem_singleton.mp h]
        exact .inr rfl
  | signal k id =>
    simp only [ask, answer, Host.answer] at h
    split at h
    · unfold Host.fire at h
      split at h <;> exact .inl h
    · exact .inl h
  | store call => cases f? <;> exact .inl h
  | _ => exact .inl h

private theorem hasOpened_ask {c : JobContext} (h : (s.ask f? i o q).2.HasOpened c) :
    s.HasOpened c ∨ ∃ m, (s.event f? i o q).opened? = some (m, c) := by
  obtain ⟨e, hmem, m, hm⟩ := h
  rcases mem_ask_log.mp hmem with h | rfl
  · exact .inl ⟨e, h, m, hm⟩
  · exact .inr ⟨m, hm⟩

/-- A request that an operation may ask keeps the contexts apart. -/
theorem Handles.ask (hl : s.Ledger m₀) (hh : s.Handles) (hq : s.MayAsk m₀ i o q) :
    (s.ask f? i o q).2.Handles := by
  have hst := evolves_ask f? hl hh hq
  have hnew : ∀ {c c' : JobContext} {m}, s.HasOpened c → (s.event f? i o q).opened? = some (m, c') →
      c.number ≠ c'.number := by
    intro c c' m hc hm hn
    obtain ⟨-, hnum, -⟩ := opened?_event hm
    obtain ⟨e, he, k, hk⟩ := hc
    have hlt := (hh.opened e he k c hk).1
    omega
  constructor
  case opened =>
    intro e he m c hm
    rcases mem_ask_log.mp he with h | rfl
    · obtain ⟨hlt, e', he', hr⟩ := hh.opened e h m c hm
      have hmem := mem_own.mp he'
      exact ⟨Nat.lt_of_lt_of_le hlt contexts_ask, e', mem_own.mpr ⟨hst.mem_log hmem.1, hmem.2⟩, hr⟩
    · obtain ⟨rfl, hnum, hsucc⟩ := opened?_event hm
      obtain ⟨⟨e', he', hr⟩, -⟩ := hq
      have hmem := mem_own.mp he'
      exact ⟨by omega, e', mem_own.mpr ⟨hst.mem_log hmem.1, hmem.2⟩, hr⟩
  case openedOnce =>
    intro c c' hc hc' hn
    rcases hasOpened_ask hc with h | ⟨m, hm⟩
    · rcases hasOpened_ask hc' with h' | ⟨m', hm'⟩
      · exact hh.openedOnce c c' h h' hn
      · exact absurd hn (hnew h hm')
    · rcases hasOpened_ask hc' with h' | ⟨m', hm'⟩
      · exact absurd hn.symm (hnew h' hm)
      · exact congrArg Prod.snd (Option.some.inj (hm.symm.trans hm'))
  case completed =>
    intro n hn
    rcases completed_ask hn with h | rfl
    · obtain ⟨c, hc, hnum, hend⟩ := hh.completed n h
      exact ⟨c, hst.hasOpened hc, hnum, hst.hasEnded hend⟩
    · obtain ⟨c, hc, hnum, hend⟩ := hq
      exact ⟨c, hst.hasOpened hc, hnum, hst.hasEnded hend⟩

theorem Handles.stored_of_hasOpened (hl : s.Ledger m₀) (hh : s.Handles) {c : JobContext} (hc : s.HasOpened c) :
    m₀.Lacks c.job ∧ ∃ r, s.stored c.job = some r := by
  obtain ⟨e, he, m, hm⟩ := hc
  obtain ⟨-, e', he', r, hr, hid⟩ := hh.opened e he m c hm
  obtain ⟨hlacks, -, x, hx, -⟩ := (hl.entry e' (mem_own.mp he').1).created r hr
  exact hid ▸ ⟨hlacks, x, hx⟩

theorem Handles.hasEnded_of_completed (hh : s.Handles) {c : JobContext} (hc : s.HasOpened c)
    (h : c.number ∈ s.host.completed) : s.HasEnded c.job := by
  obtain ⟨c', hc', hn, hend⟩ := hh.completed c.number h
  exact hh.openedOnce c' c hc' hc hn ▸ hend

theorem Ledger.stored_of_mem_endingsOf (hl : s.Ledger m₀) {r : JobRecord} (hr : r ∈ s.endingsOf i) :
    s.stored r.id = some r ∧ r.isTerminal = true := by
  obtain ⟨e, he, hend⟩ := List.mem_filterMap.mp hr
  exact ⟨((hl.entry e (mem_own.mp he).1).ending r hend).1, (Event.ending?_eq_some.mp hend).2⟩

/-- A process ends no job twice. -/
theorem Ledger.nodup_endingsOf (hl : s.Ledger m₀) (i : Nat) : ((s.endingsOf i).map JobRecord.id).Nodup := by
  have hsub : (s.endingsOf i).Sublist s.endings := List.Sublist.filterMap _ List.filter_sublist
  exact hl.endedOnce.sublist (hsub.map _)

private theorem eq_of_nodup_endings {l : List Event} (h : ((l.filterMap Event.ending?).map JobRecord.id).Nodup)
    {e e' : Event} {r r' : JobRecord} (he : e ∈ l) (he' : e' ∈ l) (hr : e.ending? = some r)
    (hr' : e'.ending? = some r') (hid : r.id = r'.id) : e = e' := by
  induction l with
  | nil => cases he
  | cons d l ih =>
    have hmem : ∀ {f x}, f ∈ l → f.ending? = some x → x.id ∈ (l.filterMap Event.ending?).map JobRecord.id :=
      fun hf hx => List.mem_map.mpr ⟨_, List.mem_filterMap.mpr ⟨_, hf, hx⟩, rfl⟩
    have hl : ((l.filterMap Event.ending?).map JobRecord.id).Nodup :=
      h.sublist (((List.sublist_cons_self d l).filterMap _).map _)
    have hnew : ∀ {x}, d.ending? = some x → x.id ∉ (l.filterMap Event.ending?).map JobRecord.id := by
      intro x hx
      rw [List.filterMap_cons_some hx] at h
      exact (List.nodup_cons.mp h).1
    rcases List.mem_cons.mp he with rfl | hel
    · rcases List.mem_cons.mp he' with rfl | hel'
      · rfl
      · exact absurd (hid ▸ hmem hel' hr') (hnew hr)
    · rcases List.mem_cons.mp he' with rfl | hel'
      · exact absurd (hid ▸ hmem hel hr) (hnew hr')
      · exact ih hl hel hel'

/-- The entry that tells of the end of a job is the only one. -/
theorem Ledger.eq_of_ending (hl : s.Ledger m₀) {e e' : Event} {r r' : JobRecord} (he : e ∈ s.log) (he' : e' ∈ s.log)
    (hr : e.ending? = some r) (hr' : e'.ending? = some r') (hid : r.id = r'.id) : e = e' :=
  eq_of_nodup_endings hl.endedOnce he he' hr hr' hid

/-- What a process shares its scene with: any processes that keep the ledger and the contexts. -/
def surroundings (m₀ : Memory) (i : Nat) (o : Operation) : Surroundings Request.interface Scene where
  Lawful s := s.Ledger m₀ ∧ s.Handles
  Others s t := Evolves s t ∧ t.own i = s.own i
  MayAsk q s := s.MayAsk m₀ i o q
  Answers q s a t := (∃ f?, s.ask f? i o q = (a, t)) ∧ Evolves s t
  others_refl s := ⟨.refl s, rfl⟩
  others_trans h h' := ⟨h.1.trans h'.1, h'.2.trans h.2⟩

/-- The same for a process that may wait. -/
def taskSurroundings (m₀ : Memory) (i : Nat) (o : Operation) : Surroundings TaskStep.interface Scene where
  Lawful s := s.Ledger m₀ ∧ s.Handles
  Others s t := Evolves s t ∧ t.own i = s.own i
  MayAsk q s := match q with
    | .request q => s.MayAsk m₀ i o q
    | .wait _ => True
  Answers q s a t := match q with
    | .request q => (∃ f?, s.ask f? i o q = (a, t)) ∧ Evolves s t
    | .wait _ => t = s
  others_refl s := ⟨.refl s, rfl⟩
  others_trans h h' := ⟨h.1.trans h'.1, h'.2.trans h.2⟩

/-- An operation secures as part of a task what it secures by itself. -/
theorem secures_act {α : Type} {Q : α → Scene → Prop} {a : Action α} {s : Scene}
    (h : a.Secures (surroundings m₀ i o) Q s) : (Task.act a).Secures (taskSurroundings m₀ i o) Q s := by
  induction a generalizing s with
  | done x => exact h
  | ask q k ih =>
    intro t ht hst
    obtain ⟨hq, hk⟩ := h t ht hst
    exact ⟨hq, fun a u ha hu => ih a (hk a u ha hu)⟩

end Scene

end JobLedger
