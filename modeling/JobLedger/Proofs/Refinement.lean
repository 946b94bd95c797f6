import JobLedger.Proofs.Mirror

/-!
# The key-value store refines the memory

The same calls at the same times get the same answers from the key-value store and from a memory, as long as no
key expires, no command fails and the records come back from their texts. Listings and searches see the newest
records only, as many as the index holds.
-/
namespace JobLedger

/-- The identifiers of the records that calls create in a memory, the newest first. -/
def Memory.newcomers : List (Instant × StoreCall) → Memory → List JobId
  | [], _ => []
  | (now, c) :: cs, m => newcomers cs (store.perform now c m).2 ++ m.newcomer now c

namespace Redis

variable {s : Settings}

/-- Each of some calls, made one after another, is steady. -/
def SteadyRun (s : Settings) : List (Instant × StoreCall) → Server → Prop
  | [], _ => True
  | (now, c) :: cs, x => Steady s now c x ∧ SteadyRun s cs ((store s).perform now c x).2

instance SteadyRun.decide (s : Settings) :
    (calls : List (Instant × StoreCall)) → (x : Server) → Decidable (SteadyRun s calls x)
  | [], _ => inferInstanceAs (Decidable True)
  | (now, c) :: cs, x =>
    have := SteadyRun.decide s cs ((store s).perform now c x).2
    inferInstanceAs (Decidable (_ ∧ _))

private theorem SteadyRun.of_append {cs ds : List (Instant × StoreCall)} {x : Server} (h : SteadyRun s (cs ++ ds) x) :
    SteadyRun s cs x ∧ SteadyRun s ds ((store s).after x cs) := by
  induction cs generalizing x with
  | nil => exact ⟨trivial, h⟩
  | cons c cs ih => exact ⟨⟨h.1, (ih h.2).1⟩, (ih h.2).2⟩

/-- A run of calls on both sides. -/
theorem Mirrors.after (hcap : s.indexCap.toNat < Nat.pow 2 63) {m : Memory} {ids : List JobId} {x : Server}
    (h : Mirrors s m ids x.database) {calls : List (Instant × StoreCall)} (hr : ∀ d ∈ calls, d.2.IsRestorable d.1)
    (hs : SteadyRun s calls x) :
    Mirrors s (Memory.store.after m calls) (m.newcomers calls ++ ids) ((store s).after x calls).database := by
  induction calls generalizing m ids x with
  | nil => exact h
  | cons c cs ih =>
    have hstep := (h.perform hcap (hr c List.mem_cons_self) hs.1).2
    have hrest := ih hstep (fun d hd => hr d (List.mem_cons_of_mem _ hd)) hs.2
    rwa [← List.append_assoc] at hrest

/-- Every call of a run gets the answer that it gets from a memory. -/
theorem answer_follows_memory (hcap : s.indexCap.toNat < Nat.pow 2 63) {x : Server} (hx : x.database.entries = .empty)
    (calls : List (Instant × StoreCall)) (now : Instant) (c : StoreCall)
    (hr : ∀ d ∈ calls ++ [(now, c)], d.2.IsRestorable d.1) (hs : SteadyRun s (calls ++ [(now, c)]) x) :
    c.Follows (Memory.store.after .empty calls) ((Memory.empty.newcomers calls).take s.capacity) now
      ((store s).perform now c ((store s).after x calls)).1 := by
  obtain ⟨hbefore, hnow⟩ := hs.of_append
  have hempty : Mirrors s .empty [] x.database := empty_mirrors s hx
  have h := hempty.after hcap (fun d hd => hr d (List.mem_append_left _ hd)) hbefore
  rw [List.append_nil] at h
  exact (h.perform hcap (hr (now, c) (by simp)) hnow.1).1

/-- A job that was created at the end of a day and has ended, with a result. -/
def sampleRecord (n : Nat) : JobRecord :=
  { JobRecord.accepted ⟨.ofNat 128 n⟩ { name := "sum", timeoutSeconds := 5 } ⟨"a"⟩ endOfDay with
    state := .succeeded, resultPayload := some (.array [.int 1]) }

private theorem sampleRecord_isRestorable (n : Nat) : (sampleRecord n).IsRestorable where
  times := ⟨.inr rfl, .inr rfl, by simp [sampleRecord, JobRecord.accepted]⟩
  payload := by
    intro p hp
    obtain rfl : Json.array [.int 1] = p := Option.some.inj hp
    refine ⟨Json.noConfusion, ?_, ?_, by decide⟩
    · simp [Json.IsWhole, Json.Everywhere, Json.EverywhereInItems, Json.IsWholeNumber, Json.int]
    · simp [Json.IsSorted, Json.Everywhere, Json.EverywhereInItems, Json.HasSortedMembers, Json.int]

/-- Two jobs, one more than the index holds in the run below. -/
def sampleCreations : List (Instant × StoreCall) :=
  [(.epoch, .create (sampleRecord 1)), (.epoch, .create (sampleRecord 2))]

/-- A server without any entry, as servers usually are. -/
def usualServer : Server := { database := { entries := .empty, leeway := .usual } }

theorem capped_listing_follows_memory :
    SteadyRun { indexCap := 1 } (sampleCreations ++ [(.epoch, .list .everything)]) usualServer ∧
    ((store { indexCap := 1 }).perform .epoch (.list .everything)
      ((store { indexCap := 1 }).after usualServer sampleCreations)).1 = .ok [sampleRecord 2] := by
  have hs : SteadyRun { indexCap := 1 } (sampleCreations ++ [(.epoch, .list .everything)]) usualServer := by
    decide +kernel
  have h := answer_follows_memory (s := { indexCap := 1 }) (by decide) rfl sampleCreations .epoch (.list .everything)
    (by
      intro d hd
      simp only [sampleCreations, List.cons_append, List.nil_append, List.mem_cons, List.not_mem_nil, or_false] at hd
      rcases hd with rfl | rfl | rfl
      · exact sampleRecord_isRestorable 1
      · exact sampleRecord_isRestorable 2
      · trivial) hs
  have hone : ListQuery.everything.select [sampleRecord 2] = [sampleRecord 2] := by
    simp [ListQuery.select, ListQuery.accepts, ListQuery.everything, ListQuery.offset, ListQuery.limit,
      ListQuery.clampSize, ListQuery.maxPageSize]
  exact ⟨hs, h.trans (congrArg Except.ok hone)⟩

/-- The job that was created within a minute is put into a store a minute later. -/
def leapCreation : List (Instant × StoreCall) := [(.plus .epoch (.ofSeconds 86220), .create leapRecord)]

/-- Half a second after 23:57:04, when the job has run for more than a minute. -/
def afterLeap : Instant := ⟨86224, 500000000, by decide, by decide⟩

private theorem leapCreation_entries {y : Server} (hy : (store {}).after .empty leapCreation = y) :
    y.database.list? afterLeap.millis (Settings.indexKey {}) = some [leapRecord.id.text] ∧
      y.database.text? afterLeap.millis (Settings.recordKey {} leapRecord.id.text) = some (some leapRecord.encode) := by
  obtain ⟨hrecord, hindex⟩ := perform_create_first (by decide) (x := .empty) rfl (by decide +kernel) hy
  exact ⟨Database.list?_of_entry (Database.entry?_eq_some.2 ⟨hindex, y.database.serves_of_lt _ (by decide)⟩),
    Database.text?_eq_some.2 ⟨_, Database.entry?_eq_some.2 ⟨hrecord, y.database.serves_of_lt _ (by decide)⟩⟩⟩

/-- A memory finds the job expired, while the server has put off its deadline by a second. -/
theorem leap_second_differs_on_server :
    SteadyRun {} (leapCreation ++ [(afterLeap, .findExpired afterLeap)]) .empty ∧ leapRecord.resultPayload = none ∧
    (Memory.store.perform afterLeap (.findExpired afterLeap) (Memory.store.after .empty leapCreation)).1 =
      .ok [leapRecord] ∧
    ((store {}).perform afterLeap (.findExpired afterLeap) ((store {}).after .empty leapCreation)).1 = .ok [] := by
  have hs : SteadyRun {} (leapCreation ++ [(afterLeap, .findExpired afterLeap)]) .empty := by decide +kernel
  refine ⟨hs, rfl, rfl, ?_⟩
  obtain ⟨hitems, htext⟩ := leapCreation_entries rfl
  have hread : [leapRecord.encode].mapM Exchange.decode = .ok [leapRecord.timesRestored] := by
    rw [List.mapM_cons, Exchange.decode, leapRecord_decode?]
    rfl
  rw [findExpired_answer hitems (answered_of_noneFails hs.of_append.2.1.noneFails), Database.texts, List.map_map,
    List.map_singleton, Function.comp_apply, htext]
  exact congrArg (Except.map _) hread

end Redis

end JobLedger
