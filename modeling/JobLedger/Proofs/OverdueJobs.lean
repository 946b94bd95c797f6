import JobLedger.Lifecycle.Schedule
import JobLedger.Proofs.HostAnswers
import JobLedger.Proofs.JobFootprints
import JobLedger.Proofs.KeptRecords

/-!
# Overdue jobs in memory

A record that is stored in memory stays stored, and one that has ended stays as it is. No operation puts off the
deadline of a job, so a job that is overdue stays overdue until it has ended, which it has after a sweep. Main
statement: `Host.hasEnded_sweepOnce`.
-/
namespace JobLedger

namespace Instant

variable {s t u : Instant}

private theorem before_iff : s.before t = true ↔ s.second < t.second ∨ s.second = t.second ∧ s.nano < t.nano := by
  simp [before]

theorem not_before_iff : s.before t = false ↔ t.second < s.second ∨ t.second = s.second ∧ t.nano ≤ s.nano := by
  rw [← Bool.not_eq_true, before_iff]
  omega

theorem before_of_before_of_not_before (hst : s.before t = true) (htu : u.before t = false) : s.before u = true := by
  rw [before_iff] at *
  rw [not_before_iff] at htu
  omega

private theorem before_of_not_before_of_before (hst : t.before s = false) (htu : t.before u = true) :
    s.before u = true := by
  rw [before_iff] at *
  rw [not_before_iff] at hst
  omega

end Instant

namespace JobRecord

@[simp] theorem marked_deadline (r : JobRecord) (now : Instant) (m : Mark) :
    (r.marked now m).deadline = r.deadline := by
  cases m <;> rfl

/-- If the record is of a job and still open, then it is due no later than a time. -/
def IsDueBy (id : JobId) (d : Instant) (r : JobRecord) : Prop :=
  r.id = id → r.isTerminal = false → d.before r.deadline = false

theorem isKept_isDueBy (id : JobId) (d : Instant) : IsKept (IsDueBy id d) := by
  intro r now m hopen hr hid _
  rw [marked_deadline]
  exact hr (by rwa [marked_id] at hid) hopen

theorem isKept_true : IsKept fun _ => True := fun _ _ _ _ _ => trivial

end JobRecord

namespace Memory

variable {id : JobId} {d now : Instant} {c : StoreCall} {s : Memory} {r : JobRecord}

/-- A call leaves a record as it is, or puts another one in the place of an open record. -/
private theorem get?_perform (h : s.records.get? id = some r) (now : Instant) (c : StoreCall) :
    (store.perform now c s).2.records.get? id = some r ∨ ∃ u : JobRecord, c = .update u ∧ u.id = id ∧
      r.isTerminal = false ∧ (store.perform now c s).2.records.get? id = some (u.stamped now) := by
  cases c with
  | create u =>
    left
    show (create u s).2.records.get? id = some r
    rw [create]
    split
    · exact h
    · rename_i hnew
      have hne : id ≠ u.id := by
        rintro rfl
        exact hnew (by rw [Table.contains, h, Option.isSome_some])
      rw [Table.get?_insert, if_neg hne, h]
  | update u =>
    have hget := get?_update now u s id
    by_cases hid : u.id = id
    · subst hid
      cases hopen : r.isTerminal with
      | true => exact .inl (hget.trans (by simp [h, hopen]))
      | false => exact .inr ⟨u, rfl, rfl, rfl, hget.trans (by simp [h, hopen, JobRecord.stamped])⟩
    · exact .inl (hget.trans (by rw [if_neg fun hr => hid hr.1.symm, h]))
  | get _ | findExpired _ | list _ => exact .inl h

theorem Keyed.perform (h : s.Keyed) (now : Instant) (c : StoreCall) : (store.perform now c s).2.Keyed := by
  cases c with
  | create u =>
    show (create u s).2.Keyed
    rw [create]
    split
    · exact h
    · exact h.insert u
  | update u => exact h.update now u
  | get _ | findExpired _ | list _ => exact h

/-- The record of a job is stored. -/
def IsStored (id : JobId) (s : Memory) : Prop := ∃ r, s.records.get? id = some r

/-- The record of a job is stored and has ended. -/
def HasEnded (id : JobId) (s : Memory) : Prop := ∃ r, s.records.get? id = some r ∧ r.isTerminal = true

/-- The record of a job is stored and, if it is open, due no later than a time. -/
structure IsDueBy (id : JobId) (d : Instant) (s : Memory) : Prop where
  keyed : s.Keyed
  stored : ∃ r, s.records.get? id = some r ∧ r.IsDueBy id d

theorem HasEnded.perform (h : s.HasEnded id) (now : Instant) (c : StoreCall) :
    (store.perform now c s).2.HasEnded id := by
  obtain ⟨r, hr, hend⟩ := h
  rcases get?_perform hr now c with hsame | ⟨u, -, -, hopen, -⟩
  · exact ⟨r, hsame, hend⟩
  · rw [hend] at hopen
    cases hopen

theorem IsStored.perform (h : s.IsStored id) (now : Instant) (c : StoreCall) :
    (store.perform now c s).2.IsStored id := by
  obtain ⟨r, hr⟩ := h
  rcases get?_perform hr now c with hsame | ⟨u, -, -, -, hput⟩
  · exact ⟨r, hsame⟩
  · exact ⟨_, hput⟩

/-- A record that ends a job ends it, unless another one has. -/
private theorem IsStored.hasEnded_update {u : JobRecord} (h : s.IsStored u.id) (hu : u.isTerminal = true)
    (now : Instant) :
    (store.perform now (.update u) s).2.HasEnded u.id := by
  obtain ⟨r, hr⟩ := h
  have hget := get?_update now u s u.id
  cases hopen : r.isTerminal with
  | true => exact ⟨r, hget.trans (by simp [hr, hopen]), hopen⟩
  | false => exact ⟨u.stamped now, hget.trans (by simp [hr, hopen, JobRecord.stamped]), hu⟩

/-- A call keeps the time by which a job is due if it does not put off the deadline. -/
theorem IsDueBy.perform (h : s.IsDueBy id d) (hc : ∀ u, c = .update u → u.IsDueBy id d) :
    (store.perform now c s).2.IsDueBy id d := by
  obtain ⟨r, hr, hdue⟩ := h.stored
  refine ⟨h.keyed.perform now c, ?_⟩
  rcases get?_perform hr now c with hsame | ⟨u, hu, -, -, hput⟩
  · exact ⟨r, hsame, hdue⟩
  · exact ⟨u.stamped now, hput, hc u hu⟩

end Memory

/-- A property of stored records that is kept by what is asked under the contract to keep a property of records. -/
def Request.Upholds (P : JobRecord → Prop) (I : Memory → Prop) : Prop :=
  ∀ (q : Request) (h : Host Memory), I h.store → (Request.keeping P).MayAsk q →
    (Request.keeping P).Answers q (h.answer Memory.store q).1 ∧ I (h.answer Memory.store q).2.store

namespace Request

variable {id : JobId} {d : Instant} {P : JobRecord → Prop} {I : Memory → Prop}

private theorem upholds_of_perform (hI : ∀ s now c, I s → I (Memory.store.perform now c s).2) :
    Upholds (fun _ => True) I := by
  intro q h hs _
  cases q with
  | store c =>
    refine ⟨?_, hI h.store h.clock c hs⟩
    cases c with
    | get _ => exact fun _ _ => trivial
    | findExpired _ => exact fun _ _ _ _ => trivial
    | create _ | update _ | list _ => exact trivial
  | _ => exact ⟨trivial, by rwa [Host.answer_store (by exact trivial)]⟩

theorem upholds_keyed : Upholds (fun _ => True) Memory.Keyed :=
  upholds_of_perform fun _ now c hs => hs.perform now c

theorem upholds_hasEnded (id : JobId) : Upholds (fun _ => True) (Memory.HasEnded id) :=
  upholds_of_perform fun _ now c hs => hs.perform now c

theorem upholds_isDueBy (id : JobId) (d : Instant) : Upholds (JobRecord.IsDueBy id d) (Memory.IsDueBy id d) := by
  intro q h hs hq
  obtain ⟨r, hr, hdue⟩ := hs.stored
  have hread : ∀ k u, h.store.records.get? k = some u → u.IsDueBy id d := by
    intro k u hu hid
    obtain rfl : k = id := (hs.keyed.id_eq hu).symm.trans hid
    obtain rfl := Option.some.inj (hr.symm.trans hu)
    exact hdue hid
  cases q with
  | store c =>
    refine ⟨?_, hs.perform fun u hu => ?_⟩
    · cases c with
      | get k => exact fun u hu => hread k u (Except.ok.inj hu)
      | findExpired t =>
        intro rs hrs u hu
        obtain rfl := Except.ok.inj hrs
        exact hread u.id u (hs.keyed.get?_of_mem (List.mem_filter.mp hu).1)
      | create _ | update _ | list _ => exact trivial
    · subst hu
      exact hq
  | _ => exact ⟨trivial, by rwa [Host.answer_store (by exact trivial)]⟩

end Request

namespace Host

variable {α : Type} {P : JobRecord → Prop} {I : Memory → Prop} {h : Host Memory} {id : JobId} {d : Instant}

/-- What an operation keeps whose requests are under a contract. -/
theorem perform_keeps (hI : Request.Upholds P I) {Q : α → Prop} {a : Action α}
    (ha : a.Honours (Request.keeping P) Q) (hs : I h.store) : I (h.perform Memory.store a).2.store := by
  induction a generalizing h with
  | done a => exact hs
  | ask q k ih =>
    obtain ⟨hanswer, hs⟩ := hI q h hs ha.1
    exact ih _ (ha.2 _ hanswer) hs

/-- What every call keeps is kept by every operation. -/
private theorem perform_keeps_of_perform (hI : ∀ s now c, I s → I (Memory.store.perform now c s).2) (a : Action α)
    (hs : I h.store) : I (h.perform Memory.store a).2.store := by
  induction a generalizing h with
  | done a => exact hs
  | ask q k ih =>
    refine ih _ ?_
    cases q with
    | store c => exact hI h.store h.clock c hs
    | _ => rwa [answer_store (by exact trivial)]

private theorem hasEnded_perform (a : Action α) (hs : h.store.HasEnded id) :
    (h.perform Memory.store a).2.store.HasEnded id :=
  perform_keeps_of_perform (fun _ now c hs => hs.perform now c) a hs

private theorem isStored_perform (a : Action α) (hs : h.store.IsStored id) :
    (h.perform Memory.store a).2.store.IsStored id :=
  perform_keeps_of_perform (fun _ now c hs => hs.perform now c) a hs

/-- A job that was found open has ended after it was timed out. -/
private theorem hasEnded_expire (m : Manager) {r : JobRecord} (hopen : r.isTerminal = false)
    (hs : h.store.IsStored r.id)
    (report : SweepReport) : (h.perform Memory.store (Sweep.expire m r report)).2.store.HasEnded r.id := by
  have hmark := JobRecord.mark_of_open hopen (.timedOut (Sweep.timeoutMessage r.timeoutSeconds)) h.clock
  change r.markTimedOut _ h.clock = _ at hmark
  have hs : h.store.IsStored (r.marked h.clock (.timedOut (Sweep.timeoutMessage r.timeoutSeconds))).id := by
    rwa [JobRecord.marked_id]
  have hend := hs.hasEnded_update (by rw [JobRecord.marked_isTerminal]; rfl) h.clock
  rw [JobRecord.marked_id] at hend
  have hclock : h.answer Memory.store .clock = (h.clock, h) := rfl
  rw [Sweep.expire, Action.clock, Dialogue.question_bind, perform_ask hclock]
  simp only [hmark]
  rw [Action.call, Dialogue.question_bind, perform_ask (answer_call rfl)]
  exact hasEnded_perform _ hend

private theorem hasEnded_expireAll (m : Manager) {r : JobRecord} (hopen : r.isTerminal = false) {rs : List JobRecord}
    (hr : r ∈ rs) (hs : h.store.IsStored r.id) (report : SweepReport) :
    (h.perform Memory.store (Sweep.expireAll m rs report)).2.store.HasEnded r.id := by
  induction rs generalizing h report with
  | nil => cases hr
  | cons u rs ih =>
    rw [Sweep.expireAll, perform_bind]
    rcases List.mem_cons.mp hr with rfl | hr
    · exact hasEnded_perform _ (hasEnded_expire m hopen hs report)
    · exact ih hr (isStored_perform _ hs) _

/-- After a sweep every job has ended that was stored and overdue. -/
theorem hasEnded_sweepOnce (m : Manager) (hs : h.store.IsDueBy id d) (hd : d.before h.clock = true) :
    (h.perform Memory.store (m.sweepOnce h.clock)).2.store.HasEnded id := by
  obtain ⟨r, hr, hdue⟩ := hs.stored
  obtain rfl : r.id = id := hs.keyed.id_eq hr
  cases hopen : r.isTerminal with
  | true => exact hasEnded_perform _ ⟨r, hr, hopen⟩
  | false =>
    have hexpired : r.isExpired h.clock = true := by
      rw [JobRecord.isExpired, hopen, Instant.before_of_not_before_of_before (hdue rfl hopen) hd]
      rfl
    have hfound : r ∈ h.store.records.values.filter fun u => u.isExpired h.clock := by
      refine List.mem_filter.mpr ⟨?_, hexpired⟩
      exact List.mem_map.mpr ⟨(r.id, r), Table.mem_of_find? hr, rfl⟩
    have hcall : Memory.store.perform h.clock (.findExpired h.clock) h.store =
        (.ok (h.store.records.values.filter fun u => u.isExpired h.clock), h.store) := rfl
    rw [Manager.sweepOnce, Action.call, Dialogue.question_bind, perform_ask (answer_call hcall)]
    dsimp only
    rw [perform_bind]
    exact hasEnded_expireAll m hopen hfound ⟨r, hr⟩ _

end Host

end JobLedger
