import JobLedger.Proofs.OverdueJobs
import JobLedger.Proofs.SweepAccounts

/-!
# What a sweep does to a memory

A sweep that nothing interrupts times out exactly the jobs that are open and past their deadline, each of them in its
place, and leaves all else as it is. It makes no difference in which order the memory yields them. A later sweep of an
earlier time finds nothing to do. Main statement: `sweep_times_out_the_expired`.
-/
namespace JobLedger

namespace Table

variable {κ α : Type} [DecidableEq κ]

/-- An entry that is there is changed in its place. -/
private theorem put_eq_map {k : κ} {b : α} (a : α) {es : List (κ × α)} (hes : (es.map Prod.fst).Nodup)
    (h : (k, b) ∈ es) :
    put k a es = es.map fun e => if e.1 = k then (k, a) else e := by
  induction es with
  | nil => cases h
  | cons e es ih =>
    obtain ⟨l, c⟩ := e
    obtain ⟨hl, hes⟩ := List.nodup_cons.mp hes
    rw [put, List.map_cons]
    by_cases hk : l = k
    · have hrest : ∀ e ∈ es, ¬e.1 = k := fun e he heq => hl (List.mem_map.mpr ⟨e, he, heq.trans hk.symm⟩)
      rw [if_pos hk, if_pos hk, List.map_congr_left fun e he => if_neg (hrest e he), List.map_id']
    · have hmem : (k, b) ∈ es := by
        rcases List.mem_cons.mp h with heq | hmem
        · exact absurd (congrArg Prod.fst heq).symm hk
        · exact hmem
      rw [if_neg hk, if_neg hk, ih hes hmem]

end Table

namespace Memory

variable {S : StatusStore Memory} {s : Memory} {clock now : Instant} {ids : List JobId}

/-- A store that answers as the memory does, but yields the expired records in an order of its own. -/
structure YieldsInSomeOrder (S : StatusStore Memory) : Prop where
  call : ∀ now c s, (∀ t, c ≠ .findExpired t) → S.perform now c s = store.perform now c s
  found : ∀ now t s, ∃ rs, rs.Perm (s.records.values.filter fun r => r.isExpired t) ∧
    S.perform now (.findExpired t) s = (.ok rs, s)

private theorem store_yieldsInSomeOrder :
    YieldsInSomeOrder store := ⟨fun _ _ _ _ => rfl, fun _ _ _ => ⟨_, .refl _, rfl⟩⟩

/-- The memory after jobs were timed out. -/
def timeOut (clock : Instant) (ids : List JobId) (s : Memory) : Memory :=
  ⟨⟨s.records.entries.map fun e => (e.1, if e.1 ∈ ids then Sweep.timedOut clock e.2 else e.2)⟩⟩

/-- The memory after the jobs were timed out that are open and past their deadline at a time. -/
def swept (clock now : Instant) (s : Memory) : Memory :=
  ⟨⟨s.records.entries.map fun e => (e.1, if e.2.isExpired now then Sweep.timedOut clock e.2 else e.2)⟩⟩

private theorem keys_timeOut (clock : Instant) (ids : List JobId) (s : Memory) :
    (s.timeOut clock ids).records.entries.map Prod.fst = s.records.entries.map Prod.fst := by
  simp [timeOut]

private theorem timeOut_nil (clock : Instant) (s : Memory) : s.timeOut clock [] = s := by simp [timeOut]

private theorem timeOut_cons {id : JobId} (hid : id ∉ ids) (s : Memory) :
    s.timeOut clock (id :: ids) = (s.timeOut clock [id]).timeOut clock ids := by
  simp only [timeOut, List.map_map]
  congr 2
  apply List.map_congr_left
  intro e _
  by_cases he : e.1 = id
  · simp [he, hid]
  · simp [he]

private theorem mem_timeOut {r : JobRecord} (hr : (r.id, r) ∈ s.records.entries) (hid : r.id ∉ ids) :
    (r.id, r) ∈ (s.timeOut clock ids).records.entries :=
  List.mem_map.mpr ⟨(r.id, r), hr, by simp [hid]⟩

/-- An open job is timed out in its place. -/
private theorem update_timedOut {r : JobRecord} (hkeys : (s.records.entries.map Prod.fst).Nodup)
    (hr : (r.id, r) ∈ s.records.entries) (hopen : r.isTerminal = false) :
    update clock (Sweep.timedOut clock r) s = (.ok (Sweep.timedOut clock r), s.timeOut clock [r.id]) := by
  have hget : s.records.get? r.id = some r := Table.find?_of_mem hkeys hr
  have hentries : Table.put r.id (Sweep.timedOut clock r) s.records.entries =
      s.records.entries.map fun e => (e.1, if e.1 ∈ [r.id] then Sweep.timedOut clock e.2 else e.2) := by
    rw [Table.put_eq_map _ hkeys hr]
    apply List.map_congr_left
    rintro ⟨k, x⟩ he
    by_cases hk : k = r.id
    · subst hk
      obtain rfl : x = r := Option.some.inj ((Table.find?_of_mem hkeys he).symm.trans hget)
      simp
    · simp [hk]
  rw [update, Sweep.timedOut_id, hget]
  simp only [hopen, Bool.false_eq_true, if_false]
  rw [timeOut, Table.insert, ← hentries]
  rfl

private theorem Keyed.ids_eq (hs : s.Keyed) : s.records.values.map JobRecord.id = s.records.entries.map Prod.fst := by
  rw [Table.values, List.map_map]
  exact List.map_congr_left hs.own

private theorem Keyed.mem_entries (hs : s.Keyed) {r : JobRecord} (hr : r ∈ s.records.values) :
    (r.id, r) ∈ s.records.entries :=
  Table.mem_of_find? (hs.get?_of_mem hr)

/-- To time out the jobs that are expired is to time out those that the memory yields as such. -/
private theorem Keyed.swept_eq (hs : s.Keyed) {rs : List JobRecord}
    (hrs : rs.Perm (s.records.values.filter fun r => r.isExpired now)) :
    s.swept clock now = s.timeOut clock (rs.map JobRecord.id) := by
  rw [swept, timeOut]
  congr 2
  apply List.map_congr_left
  rintro ⟨id, r⟩ he
  have hid : r.id = id := hs.own _ he
  have hiff : id ∈ rs.map JobRecord.id ↔ r.isExpired now = true := by
    rw [(hrs.map JobRecord.id).mem_iff, List.mem_map]
    constructor
    · rintro ⟨x, hx, hxid⟩
      obtain ⟨hx, hexpired⟩ := List.mem_filter.mp hx
      have hget : s.records.get? id = some x := hxid ▸ hs.get?_of_mem hx
      obtain rfl := Option.some.inj (hget.symm.trans (Table.find?_of_mem hs.distinct he))
      exact hexpired
    · exact fun hexpired => ⟨r, List.mem_filter.mpr ⟨List.mem_map.mpr ⟨_, he, rfl⟩, hexpired⟩, hid⟩
  simp only [hiff]

/-- What was timed out is not expired, whatever the time. -/
private theorem not_isExpired_of_mem_swept {t : Instant} (ht : now.before t = false) {r : JobRecord}
    (hr : r ∈ (s.swept clock now).records.values) : r.isExpired t = false := by
  simp only [swept, Table.values, List.map_map, List.mem_map, Function.comp] at hr
  obtain ⟨⟨id, x⟩, -, rfl⟩ := hr
  cases hx : x.isExpired now with
  | true => rfl
  | false =>
    simp only [Bool.false_eq_true, if_false]
    cases hopen : x.isTerminal with
    | true => simp [JobRecord.isExpired, hopen]
    | false =>
      simp only [JobRecord.isExpired, hopen, Bool.not_false, Bool.true_and] at hx ⊢
      rw [← Bool.not_eq_true] at hx ⊢
      exact fun hbefore => hx (Instant.before_of_before_of_not_before hbefore ht)

/-- To time out open jobs of the memory, one by one, is to time them all out. -/
private theorem YieldsInSomeOrder.perform_expireAll (hS : YieldsInSomeOrder S) (m : Manager) {rs : List JobRecord}
    (hids : (rs.map JobRecord.id).Nodup) (hopen : ∀ r ∈ rs, r.isTerminal = false) (report : SweepReport)
    {h : Host Memory} (hkeys : (h.store.records.entries.map Prod.fst).Nodup)
    (hrs : ∀ r ∈ rs, (r.id, r) ∈ h.store.records.entries) :
    ∃ h', h.perform S (Sweep.expireAll m rs report) = ({ report with timedOut := report.timedOut + rs.length }, h') ∧
      h' = { h with store := h.store.timeOut h.clock (rs.map JobRecord.id), fired := h'.fired } ∧
      ∀ n, h'.isCancelled n = true ↔
        h.isCancelled n = true ∨ ∃ r ∈ rs, h.tracked.get? (m.number, r.id) = some n := by
  induction rs generalizing report h with
  | nil =>
    refine ⟨h, rfl, ?_, by simp⟩
    rw [List.map_nil, timeOut_nil]
  | cons r rs ih =>
    obtain ⟨hnew, hids⟩ := List.nodup_cons.mp hids
    obtain ⟨a, h₁, he, hfirst, -⟩ := Sweep.expires_of_open m (hopen r List.mem_cons_self) report h
    have hupdate : update h.clock (Sweep.timedOut h.clock r) h.store = _ :=
      update_timedOut hkeys (hrs r List.mem_cons_self) (hopen r List.mem_cons_self)
    obtain ⟨rfl, hstore⟩ := Prod.mk.inj
      (he.answer.symm.trans ((hS.call h.clock (.update _) h.store fun _ h => by cases h).trans hupdate))
    have hkeys₁ : (h₁.store.records.entries.map Prod.fst).Nodup := by rwa [hstore, keys_timeOut]
    have hrs₁ : ∀ x ∈ rs, (x.id, x) ∈ h₁.store.records.entries := by
      intro x hx
      rw [hstore]
      refine mem_timeOut (hrs x (List.mem_cons_of_mem _ hx)) ?_
      rw [List.mem_singleton]
      exact fun heq => hnew (List.mem_map.mpr ⟨x, hx, heq⟩)
    obtain ⟨h₂, hrest, hframe, hfired⟩ :=
      ih hids (fun x hx => hopen x (List.mem_cons_of_mem _ hx)) (Sweep.enter report .timedOut) hkeys₁ hrs₁
    refine ⟨h₂, ?_, ?_, fun n => ?_⟩
    · rw [Sweep.expireAll, Host.perform_bind, hfirst, Sweep.fate, hrest]
      simp only [Sweep.enter, List.length_cons, Nat.add_comm, Nat.add_left_comm]
    · rw [hframe, hstore, he.clock, he.frame, List.map_cons, timeOut_cons hnew]
    · rw [hfired, he.fired, he.tracked]
      simp [Sweep.fate, or_assoc]

/-- What a sweep does, in whatever order it finds the expired jobs. -/
private theorem YieldsInSomeOrder.perform_sweepOnce (hS : YieldsInSomeOrder S) (m : Manager) (now : Instant)
    {h : Host Memory} (hs : h.store.Keyed) :
    ∃ h', h.perform S (m.sweepOnce now) =
        (.ok ⟨h.store.records.values.countP fun r => r.isExpired now,
          h.store.records.values.countP fun r => r.isExpired now, 0, 0⟩, h') ∧
      h' = { h with store := h.store.swept h.clock now, fired := h'.fired } ∧
      ∀ n, h'.isCancelled n = true ↔ h.isCancelled n = true ∨
        ∃ r ∈ h.store.records.values, r.isExpired now = true ∧ h.tracked.get? (m.number, r.id) = some n := by
  obtain ⟨rs, hrs, hfound⟩ := hS.found h.clock now h.store
  have hmem : ∀ r, r ∈ rs ↔ r ∈ h.store.records.values ∧ r.isExpired now = true :=
    fun r => hrs.mem_iff.trans List.mem_filter
  have hids : (rs.map JobRecord.id).Nodup := by
    refine (hrs.map JobRecord.id).nodup_iff.mpr ((List.filter_sublist.map JobRecord.id).nodup ?_)
    rw [hs.ids_eq]
    exact hs.distinct
  have hopen : ∀ r ∈ rs, r.isTerminal = false := by
    intro r hr
    have hexpired := ((hmem r).mp hr).2
    rw [JobRecord.isExpired, Bool.and_eq_true, Bool.not_eq_true'] at hexpired
    exact hexpired.1
  obtain ⟨h', hperform, hframe, hfired⟩ := hS.perform_expireAll m hids hopen ⟨rs.length, 0, 0, 0⟩ hs.distinct
    fun r hr => hs.mem_entries ((hmem r).mp hr).1
  have hanswer : h.answer S (.store (.findExpired now)) = (.ok rs, { h with store := h.store }) :=
    Host.answer_call hfound
  have hlength : rs.length = h.store.records.values.countP fun r => r.isExpired now := by
    rw [hrs.length_eq, List.countP_eq_length_filter]
  refine ⟨h', ?_, ?_, fun n => ?_⟩
  · rw [Manager.sweepOnce, Action.call, Dialogue.question_bind, Host.perform_ask hanswer]
    dsimp only
    rw [Host.perform_bind, hperform, Host.perform, hlength]
    simp only [Nat.zero_add]
    rfl
  · rw [hs.swept_eq hrs]
    exact hframe
  · rw [hfired]
    simp only [hmem, and_assoc]

/-- A sweep that finds nothing expired does nothing. -/
private theorem YieldsInSomeOrder.perform_sweepOnce_of_none (hS : YieldsInSomeOrder S) (m : Manager) {h : Host Memory}
    (hnone : ∀ r ∈ h.store.records.values, r.isExpired now = false) :
    h.perform S (m.sweepOnce now) = (.ok ⟨0, 0, 0, 0⟩, h) := by
  obtain ⟨rs, hrs, hfound⟩ := hS.found h.clock now h.store
  have hempty : h.store.records.values.filter (fun r => r.isExpired now) = [] :=
    List.filter_eq_nil_iff.mpr fun r hr => by simp [hnone r hr]
  obtain rfl : rs = [] := List.Perm.eq_nil (hempty ▸ hrs)
  have hanswer : h.answer S (.store (.findExpired now)) = (.ok [], h) := Host.answer_call hfound
  rw [Manager.sweepOnce, Action.call, Dialogue.question_bind, Host.perform_ask hanswer]
  rfl

end Memory

open Memory in
/-- A sweep times out the open jobs that are past their deadline, leaves the other records and the rest of the process
as they are, and fires the signals of the jobs it timed out that its manager tracks. The order in which the store
yields the jobs makes no difference. A sweep of the same or an earlier time after it, whenever it is made and by
whichever manager, finds nothing. -/
theorem sweep_times_out_the_expired {S S' : StatusStore Memory} (hS : YieldsInSomeOrder S) (hS' : YieldsInSomeOrder S')
    (m : Manager) (now : Instant) {h : Host Memory} (hs : h.store.Keyed) :
    ∃ n after, n = h.store.records.values.countP (fun r => r.isExpired now) ∧
      h.perform S (m.sweepOnce now) = (.ok ⟨n, n, 0, 0⟩, after) ∧
      after = { h with store := h.store.swept h.clock now, fired := after.fired } ∧
      (∀ k, after.isCancelled k = true ↔ h.isCancelled k = true ∨
        ∃ r ∈ h.store.records.values, r.isExpired now = true ∧ h.tracked.get? (m.number, r.id) = some k) ∧
      (∃ other, h.perform S' (m.sweepOnce now) = (.ok ⟨n, n, 0, 0⟩, other) ∧
        other = { after with fired := other.fired } ∧ ∀ k, other.isCancelled k = after.isCancelled k) ∧
      ∀ (m' : Manager) (clock' now' : Instant), now.before now' = false →
        { after with clock := clock' }.perform S' (m'.sweepOnce now') =
          (.ok ⟨0, 0, 0, 0⟩, { after with clock := clock' }) := by
  obtain ⟨after, hperform, hframe, hfired⟩ := hS.perform_sweepOnce m now hs
  obtain ⟨other, hperform', hframe', hfired'⟩ := hS'.perform_sweepOnce m now hs
  refine ⟨_, after, rfl, hperform, hframe, hfired, ⟨other, hperform', ?_, fun k => ?_⟩, ?_⟩
  · rw [hframe, hframe']
  · rw [Bool.eq_iff_iff, hfired, hfired']
  · intro m' clock' now' hnow
    refine hS'.perform_sweepOnce_of_none m' fun r hr => ?_
    have hstore : after.store = h.store.swept h.clock now := by rw [hframe]
    exact not_isExpired_of_mem_swept hnow (hstore ▸ hr)

namespace Memory

/-- The memory with the expired records the other way round. -/
def reversed : StatusStore Memory where
  perform now c s := match c with
    | .findExpired t => (.ok (s.records.values.filter fun r => r.isExpired t).reverse, s)
    | c => store.perform now c s

private theorem reversed_yieldsInSomeOrder : YieldsInSomeOrder reversed := by
  constructor
  case call =>
    intro now c s hc
    cases c with
    | findExpired t => exact absurd rfl (hc t)
    | create _ | get _ | update _ | list _ => rfl
  case found => exact fun _ _ _ => ⟨_, List.reverse_perm _, rfl⟩

/-- A process whose memory has a job of sixty seconds and one of ninety, and one of an hour between them. Its manager
tracks the first. -/
def sampleOverdue : Host Memory where
  clock := .epoch
  store := ⟨⟨[(⟨1⟩, .accepted ⟨1⟩ ⟨"n", 60, none, none⟩ ⟨"a"⟩ .epoch),
    (⟨2⟩, .accepted ⟨2⟩ ⟨"n", 3600, none, none⟩ ⟨"a"⟩ .epoch),
    (⟨3⟩, .accepted ⟨3⟩ ⟨"n", 90, none, none⟩ ⟨"a"⟩ .epoch)]⟩⟩
  tracked := ⟨[((0, ⟨1⟩), 0)]⟩
  contexts := 1

/-- Two minutes after all jobs were created. -/
def sampleTime : Instant := .plus .epoch (.ofSeconds 120)

/-- Two jobs of a sample are timed out, each with its own timeout in its message. -/
theorem sample_sweep : sampleOverdue.store.Keyed ∧ YieldsInSomeOrder store ∧ YieldsInSomeOrder reversed ∧
    sampleTime.before sampleTime = false ∧
    ∃ after, sampleOverdue.perform reversed (Manager.sweepOnce ⟨0, ⟨"a"⟩, Manager.defaultPollInterval⟩ sampleTime) =
        (.ok ⟨2, 2, 0, 0⟩, after) ∧
      after.store.records.values.map JobRecord.state = [.timedOut, .accepted, .timedOut] ∧
      after.store.records.values.map JobRecord.errorMessage =
        [some "job exceeded its timeout of 60s", none, some "job exceeded its timeout of 90s"] ∧
      after.isCancelled 0 = true ∧
      after.perform store (Manager.sweepOnce ⟨1, ⟨"b"⟩, Manager.defaultPollInterval⟩ sampleTime) =
        (.ok ⟨0, 0, 0, 0⟩, after) := by
  have hkeyed : sampleOverdue.store.Keyed := ⟨by decide, by decide⟩
  obtain ⟨n, after, hn, hperform, hframe, hfired, -, hrest⟩ := sweep_times_out_the_expired
    reversed_yieldsInSomeOrder store_yieldsInSomeOrder ⟨0, ⟨"a"⟩, Manager.defaultPollInterval⟩ sampleTime hkeyed
  obtain rfl : n = 2 := hn.trans (by decide)
  have hstore : after.store = sampleOverdue.store.swept .epoch sampleTime := by rw [hframe]; rfl
  refine ⟨hkeyed, store_yieldsInSomeOrder, reversed_yieldsInSomeOrder, by decide, after, hperform, ?_, ?_, ?_, ?_⟩
  · rw [hstore]
    decide
  · rw [hstore]
    decide +kernel
  · exact (hfired 0).mpr (.inr ⟨_, .head _, by decide, by decide⟩)
  · exact hrest _ after.clock sampleTime (by decide)

end Memory

end JobLedger
