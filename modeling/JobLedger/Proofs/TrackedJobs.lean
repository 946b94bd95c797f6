import JobLedger.Proofs.Replies
import Mathlib.Data.List.Nodup

/-!
# Tracked jobs

A manager tracks the jobs that it created and that were not completed since, neither by its caller nor by a task that
carried out its work. Main statement: `tracked_jobs_are_created_and_not_completed`.
-/
namespace JobLedger

namespace Reply

variable {a : Reply} {as : List Reply} {b b' : Books} {key : Nat × JobId} {n : Nat}

/-- The job that was created, with the manager that tracks it and the context made for it. -/
def opens? : Reply → Option ((Nat × JobId) × Nat)
  | ⟨.create m id _, .ok (_, c)⟩ => some ((m.number, id), c.number)
  | _ => none

/-- The job that the manager is to track no longer. The task of work that could not be set up does not get there. -/
def forgets? : Reply → Option (Nat × JobId)
  | ⟨.completeTracking m id, _⟩ => some (m.number, id)
  | ⟨.spawn m c (.steps _ _), _⟩ => some (m.number, c.job)
  | _ => none

/-- Whether the reply tells a caller that a job was tracked and is no longer. -/
def completes (key : Nat × JobId) : Reply → Bool
  | ⟨.completeTracking m id, found⟩ => found && decide ((m.number, id) = key)
  | _ => false

/-- The job that was created. -/
def job? (a : Reply) : Option JobId := a.opens?.map fun opened => opened.1.2

/-- Whether the reply tells that a job was created. -/
def creates (key : Nat × JobId) (a : Reply) : Bool := a.opens?.any fun opened => decide (opened.1 = key)

/-- A reply opens a job, forgets one or leaves the books as they are. -/
theorem Enters.cases (h : a.Enters b b') :
    (∃ key n, a.opens? = some (key, n) ∧ a.forgets? = none ∧
      b' = ⟨b.tracked.insert key n, b.opened ++ [key.2]⟩) ∨
    (∃ key, a.opens? = none ∧ a.forgets? = some key ∧ b' = { b with tracked := b.tracked.erase key }) ∨
    (a.opens? = none ∧ a.forgets? = none ∧ b' = b) := by
  obtain ⟨o, x⟩ := a
  cases o with
  | create m id request =>
    rcases x with e | ⟨r, c⟩
    · exact .inr (.inr ⟨rfl, rfl, h⟩)
    · exact .inl ⟨_, _, rfl, rfl, h.2⟩
  | completeTracking m id => exact .inr (.inl ⟨_, rfl, rfl, h.2⟩)
  | spawn m c work =>
    cases work with
    | steps todo ending => exact .inr (.inl ⟨_, rfl, rfl, h⟩)
    | unfounded => exact .inr (.inr ⟨rfl, rfl, h⟩)
  | _ => exact .inr (.inr ⟨rfl, rfl, h⟩)

/-- A caller is told so only of a job that was tracked. -/
private theorem Enters.of_completes (h : a.Enters b b') (ha : a.completes key = true) :
    a.forgets? = some key ∧ b.tracked.contains key = true := by
  obtain ⟨o, x⟩ := a
  cases o with
  | completeTracking m id =>
    simp only [completes, Bool.and_eq_true, decide_eq_true_eq] at ha
    obtain ⟨hfound, rfl⟩ := ha
    exact ⟨rfl, h.1.symm.trans hfound⟩
  | _ => cases ha

/-- The reply neither opens nor forgets the job. -/
def Spares (key : Nat × JobId) (a : Reply) : Prop := a.forgets? ≠ some key ∧ ∀ n, a.opens? ≠ some (key, n)

theorem Enters.get? (h : a.Enters b b') :
    b'.tracked.get? key = some n ↔ a.opens? = some (key, n) ∨ b.tracked.get? key = some n ∧ a.Spares key := by
  rcases h.cases with ⟨key', n', ho, hf, rfl⟩ | ⟨key', ho, hf, rfl⟩ | ⟨ho, hf, rfl⟩
  · rw [Table.get?_insert]
    simp only [Spares, ho, hf, Option.some.injEq, Prod.mk.injEq]
    by_cases hk : key = key'
    · simp [hk]
    · simp [hk, Ne.symm hk]
  · rw [Table.get?_erase]
    simp only [Spares, ho, hf]
    by_cases hk : key = key'
    · simp [hk]
    · simp [hk, Ne.symm hk]
  · simp [Spares, ho, hf]

/-- A job is tracked exactly if it was opened, or tracked at first, and neither opened nor forgotten since. -/
theorem EnterAll.get? (h : EnterAll as b b') :
    b'.tracked.get? key = some n ↔
      (∃ before a after, as = before ++ a :: after ∧ a.opens? = some (key, n) ∧ ∀ x ∈ after, x.Spares key) ∨
        b.tracked.get? key = some n ∧ ∀ x ∈ as, x.Spares key := by
  induction as generalizing b with
  | nil =>
    obtain rfl : b' = b := h
    simp
  | cons a as ih =>
    obtain ⟨c, ha, has⟩ := h
    rw [ih has, ha.get?, List.forall_mem_cons]
    constructor
    · rintro (⟨before, x, after, rfl, hx, hafter⟩ | ⟨hopens | ⟨hb, hspares⟩, hall⟩)
      · exact .inl ⟨a :: before, x, after, rfl, hx, hafter⟩
      · exact .inl ⟨[], a, as, rfl, hopens, hall⟩
      · exact .inr ⟨hb, hspares, hall⟩
    · rintro (⟨before, x, after, heq, hx, hafter⟩ | ⟨hb, hspares, hall⟩)
      · rcases List.cons_eq_append_iff.mp heq with ⟨rfl, hcons⟩ | ⟨before', rfl, rfl⟩
        · obtain ⟨rfl, rfl⟩ := List.cons.inj hcons
          exact .inr ⟨.inl hx, hafter⟩
        · exact .inl ⟨before', x, after, rfl, hx, hafter⟩
      · exact .inr ⟨.inr ⟨hb, hspares⟩, hall⟩

theorem Enters.opened (h : a.Enters b b') : b'.opened = b.opened ++ a.job?.toList := by
  rcases h.cases with ⟨key', n', ho, -, rfl⟩ | ⟨key', ho, -, rfl⟩ | ⟨ho, -, rfl⟩ <;> simp [job?, ho]

theorem EnterAll.opened (h : EnterAll as b b') : b'.opened = b.opened ++ as.filterMap job? := by
  induction as generalizing b with
  | nil =>
    obtain rfl : b' = b := h
    simp
  | cons a as ih =>
    obtain ⟨c, ha, has⟩ := h
    rw [ih has, ha.opened]
    cases ho : a.job? <;> simp [ho]

private theorem Enters.nodup_keys (h : a.Enters b b') (hb : (b.tracked.entries.map Prod.fst).Nodup) :
    (b'.tracked.entries.map Prod.fst).Nodup := by
  rcases h.cases with ⟨key', n', -, -, rfl⟩ | ⟨key', -, -, rfl⟩ | ⟨-, -, rfl⟩
  · exact Table.nodup_keys_put key' n' hb
  · exact (List.filter_sublist.map Prod.fst).nodup hb
  · exact hb

private theorem EnterAll.nodup_keys (h : EnterAll as b b') (hb : (b.tracked.entries.map Prod.fst).Nodup) :
    (b'.tracked.entries.map Prod.fst).Nodup := by
  induction as generalizing b with
  | nil =>
    obtain rfl : b' = b := h
    exact hb
  | cons a as ih =>
    obtain ⟨c, ha, has⟩ := h
    exact ih has (ha.nodup_keys hb)

/-- One reply: a job that is completed was tracked, and is tracked no longer. -/
private theorem Enters.count_completes (h : a.Enters b b') (key : Nat × JobId) :
    (a.completes key).toNat + (b'.tracked.contains key).toNat ≤
      (a.creates key).toNat + (b.tracked.contains key).toNat := by
  have hquiet : a.forgets? ≠ some key → a.completes key = false := fun hf =>
    Bool.eq_false_iff.mpr fun hc => hf (h.of_completes hc).1
  rcases h.cases with ⟨key', n', ho, hf, rfl⟩ | ⟨key', ho, hf, rfl⟩ | ⟨ho, hf, rfl⟩
  · rw [hquiet (by simp [hf])]
    by_cases hk : key' = key
    · have hone : ((b.tracked.insert key' n').contains key).toNat ≤ 1 := Bool.toNat_le _
      simp only [creates, ho, hk, Option.any_some, decide_true, Bool.toNat_true, Bool.toNat_false]
      rw [hk] at hone
      omega
    · simp [creates, ho, hk, Table.contains, Table.get?_insert, Ne.symm hk]
  · by_cases hk : key' = key
    · subst hk
      have hgone : (b.tracked.erase key').contains key' = false := by simp [Table.contains, Table.get?_erase]
      rw [hgone]
      cases hc : a.completes key' with
      | false => simp
      | true => simp [(h.of_completes hc).2]
    · rw [hquiet (by simp [hf, hk])]
      simp [Table.contains, Table.get?_erase, Ne.symm hk]
  · rw [hquiet (by simp [hf])]
    simp

/-- Callers are told that a job was tracked at most as often as it was created. -/
private theorem EnterAll.count_completes (h : EnterAll as b b') (key : Nat × JobId) :
    as.countP (completes key) + (b'.tracked.contains key).toNat ≤
      as.countP (creates key) + (b.tracked.contains key).toNat := by
  induction as generalizing b with
  | nil =>
    obtain rfl : b' = b := h
    simp
  | cons a as ih =>
    obtain ⟨c, ha, has⟩ := h
    have hfirst := ha.count_completes key
    have hrest := ih has
    simp only [List.countP_cons]
    cases hc : a.completes key <;> cases hr : a.creates key <;> simp [hc, hr] at hfirst ⊢ <;> omega

end Reply

namespace World

open Reply

variable {m₀ : Memory} {w v : World}

private theorem Sound.nodup_opened_moved (h : w.Sound m₀) (hw : w.books.opened.Nodup) (hv : w.Moved v) :
    v.books.opened.Nodup := by
  cases hv with
  | @request f? i o q k hp =>
    show (w.ask f? i o q).2.books.opened.Nodup
    rw [Scene.books_ask]
    cases q with
    | track m id =>
      have hnew : id ∉ w.books.opened := by
        intro hid
        obtain ⟨e, he, ho⟩ := List.mem_filterMap.mp hid
        obtain ⟨⟨k', c⟩, hc, hjob⟩ := Option.map_eq_some_iff.mp ho
        exact Scene.job_ne_of_mayAsk_track h.ledger h.handles (h.mayAsk hp) ⟨e, he, k', hc⟩ hjob
      exact List.nodup_append_comm.mp (List.nodup_cons.mpr ⟨hnew, hw⟩)
    | _ => simpa [Scene.event, Event.opened?] using hw
  | _ => exact hw

/-- A job is given a context once. -/
private theorem Reachable.nodup_opened (hm : m₀.Keyed) (hw : w.Reachable m₀) : w.books.opened.Nodup :=
  hw.induction (P := fun w => w.books.opened.Nodup) hm (fun _ => List.nodup_nil)
    fun x h hn => h.nodup_opened_moved hn (moved_move _ x)

/-- The number of jobs that a manager tracks is that of the jobs in its table. -/
private theorem exists_trackedCount (hkeys : (w.host.tracked.entries.map Prod.fst).Nodup) (k : Nat) :
    ∃ ids : List JobId, ids.Nodup ∧ (∀ id, id ∈ ids ↔ w.host.isTracked k id = true) ∧
      w.host.trackedCount k = ids.length := by
  let own := w.host.tracked.entries.filter fun e => e.1.1 == k
  refine ⟨own.map fun e => e.1.2, ?_, fun id => ?_, ?_⟩
  · have hown : (own.map Prod.fst).Nodup := (List.filter_sublist.map Prod.fst).nodup hkeys
    have hpairs : own.map Prod.fst = (own.map fun e => e.1.2).map fun id => (k, id) := by
      rw [List.map_map]
      apply List.map_congr_left
      intro e he
      have hk : e.1.1 = k := by simpa using (List.mem_filter.mp he).2
      exact Prod.ext hk rfl
    rw [hpairs] at hown
    exact List.Nodup.of_map _ hown
  · rw [Host.isTracked, Table.contains, Option.isSome_iff_exists]
    constructor
    · rintro hid
      obtain ⟨⟨⟨k', id'⟩, n⟩, he, rfl⟩ := List.mem_map.mp hid
      obtain ⟨hmem, hk⟩ := List.mem_filter.mp he
      obtain rfl : k' = k := by simpa using hk
      exact ⟨n, Table.find?_of_mem hkeys hmem⟩
    · rintro ⟨n, hn⟩
      have he : ((k, id), n) ∈ own := List.mem_filter.mpr ⟨Table.mem_of_find? hn, by simp⟩
      exact List.mem_map.mpr ⟨_, he, rfl⟩
  · rw [List.length_map, Host.trackedCount, List.countP_eq_length_filter]

/-- Only a creation that succeeds, a completion and the end of a task change what is tracked. -/
private theorem Tidy.tracked_move (hw : w.Tidy) {x : Move}
    (hx : ∀ a, w.reply? x = some a → a.opens? = none ∧ a.forgets? = none) :
    (w.move x).host.tracked = w.host.tracked := by
  have henters := hw.enterAll_move x
  have hbooks : (w.move x).books = w.books := by
    cases ha : w.reply? x with
    | none =>
      rw [ha] at henters
      exact henters
    | some a =>
      obtain ⟨ho, hf⟩ := hx a ha
      rw [ha] at henters
      obtain ⟨b, henters, hb⟩ := henters
      rcases henters.cases with ⟨key, n, hsome, -, -⟩ | ⟨key, -, hsome, -⟩ | ⟨-, -, rfl⟩
      · cases ho.symm.trans hsome
      · cases hf.symm.trans hsome
      · exact hb
  exact congrArg Books.tracked hbooks

end World

open World Reply in
/-- In every run of operations on managers that share a memory, however calls fail: a manager tracks the jobs that it
created, each with the context made for it, from the reply to the creation until a caller completes it or a task
that carried out its work is at its end; they are counted; a job is created at most once, and then at most one caller
is told that it was tracked; and no other step changes what is tracked, be it of a creation that fails, a cancellation,
a sweep or the writing of an outcome. -/
theorem tracked_jobs_are_created_and_not_completed {m₀ : Memory} (hm : m₀.Keyed) (now : Instant)
    (moves : List Move) :
    let w := (start now m₀).run moves
    let replies := (start now m₀).replies moves
    (∀ k id n, w.host.tracked.get? (k, id) = some n ↔ ∃ before a after, replies = before ++ a :: after ∧
      a.opens? = some ((k, id), n) ∧ ∀ x ∈ after, x.forgets? ≠ some (k, id)) ∧
    (∀ k, ∃ ids : List JobId, ids.Nodup ∧ (∀ id, id ∈ ids ↔ w.host.isTracked k id = true) ∧
      w.host.trackedCount k = ids.length) ∧
    (∀ k id, replies.countP (completes (k, id)) ≤ replies.countP (creates (k, id)) ∧
      replies.countP (fun a => a.job? == some id) ≤ 1) ∧
    ∀ x, (∀ a, w.reply? x = some a → a.opens? = none ∧ a.forgets? = none) →
      (w.move x).host.tracked = w.host.tracked := by
  intro w replies
  have hw : w.Reachable m₀ := ⟨now, moves, rfl⟩
  have hstart : (start now m₀).Tidy := start_tidy now m₀
  have htidy : w.Tidy := hstart.run moves
  have hall : EnterAll replies ⟨.empty, []⟩ w.books := hstart.enterAll moves
  have hopened : (replies.filterMap job?).Nodup := by
    have hn := hw.nodup_opened hm
    rwa [hall.opened, List.nil_append] at hn
  refine ⟨fun k id n => ?_, exists_trackedCount (hall.nodup_keys List.nodup_nil), fun k id => ⟨?_, ?_⟩,
    fun x hx => htidy.tracked_move hx⟩
  · show w.books.tracked.get? (k, id) = some n ↔ _
    rw [hall.get?]
    simp only [Table.get?_empty, reduceCtorEq, false_and, or_false]
    constructor
    · rintro ⟨before, a, after, heq, ha, hafter⟩
      exact ⟨before, a, after, heq, ha, fun x hx => (hafter x hx).1⟩
    · rintro ⟨before, a, after, heq, ha, hafter⟩
      refine ⟨before, a, after, heq, ha, fun x hx => ⟨hafter x hx, fun n' hn' => ?_⟩⟩
      -- A second creation of the job would give it a second context.
      have hjob : id ∈ after.filterMap job? := List.mem_filterMap.mpr ⟨x, hx, by rw [job?, hn']; rfl⟩
      have hfirst : a.job? = some id := by rw [job?, ha]; rfl
      rw [heq, List.filterMap_append, List.filterMap_cons_some hfirst] at hopened
      exact (List.nodup_cons.mp (List.nodup_append.mp hopened).2.1).1 hjob
  · have hcount := hall.count_completes (k, id)
    have hnone : (Table.empty : Table (Nat × JobId) Nat).contains (k, id) = false := rfl
    rw [hnone] at hcount
    simp only [Bool.toNat_false] at hcount
    omega
  · have hone := List.nodup_iff_count_le_one.mp hopened id
    rwa [List.count_filterMap] at hone

namespace World

open Reply

/-- Two jobs are created, and a caller completes the first, of which it is told once. -/
def sampleTracking : List Move :=
  [.begin (.create sampleManager ⟨1⟩ ⟨"n", 60, none, none⟩), .step 0, .step 0, .step 0,
    .begin (.create sampleManager ⟨2⟩ ⟨"n", 60, none, none⟩), .step 1, .step 1, .step 1,
    .begin (.completeTracking sampleManager ⟨1⟩), .step 2, .begin (.completeTracking sampleManager ⟨1⟩), .step 3]

theorem sample_tracked_jobs : Memory.empty.Keyed ∧
    (∃ before a after, (start .epoch .empty).replies sampleTracking = before ++ a :: after ∧
      a.opens? = some ((0, ⟨2⟩), 1) ∧ ∀ x ∈ after, x.forgets? ≠ some (0, ⟨2⟩)) ∧
    (¬∃ before a after, (start .epoch .empty).replies sampleTracking = before ++ a :: after ∧
      a.opens? = some ((0, ⟨1⟩), 0) ∧ ∀ x ∈ after, x.forgets? ≠ some (0, ⟨1⟩)) ∧
    ((start .epoch .empty).replies sampleTracking).countP (completes (0, ⟨1⟩)) = 1 := by
  obtain ⟨htracked, -, hcounts, -⟩ :=
    tracked_jobs_are_created_and_not_completed Memory.empty_keyed .epoch sampleTracking
  refine ⟨Memory.empty_keyed, (htracked 0 ⟨2⟩ 1).mp rfl, fun h => ?_, ?_⟩
  · cases (htracked 0 ⟨1⟩ 0).mpr h
  · have hcreated : ((start .epoch .empty).replies sampleTracking).countP (creates (0, ⟨1⟩)) = 1 := rfl
    have htold : 1 ≤ ((start .epoch .empty).replies sampleTracking).countP (completes (0, ⟨1⟩)) := Nat.le_refl 1
    exact Nat.le_antisymm (hcreated ▸ (hcounts 0 ⟨1⟩).1) htold

end World

end JobLedger
