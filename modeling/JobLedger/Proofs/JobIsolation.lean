import JobLedger.Proofs.RereadNumbers
import JobLedger.Proofs.SharedServer
import JobLedger.Proofs.UnreadableRecords

/-!
# One job's result and the other jobs

No result that is nested at most 126 deep keeps any operation from being carried out. One that is nested deeper
is stored, and then neither its job nor any listing that comes across it can be read.
-/
namespace JobLedger

/-- A result is read back unless it is nested too deep. -/
private theorem Json.isReadable_of_depth_le {v : Json} (h : v.IsRepresentable) (hd : v.depth ≤ 126) : v.IsReadable :=
  Document.isSome_value?_written h hd

namespace Redis

variable {s : Settings} {now : Instant} {x : Server}

/-- Listings, searches and looks at stored jobs succeed if none of their commands fails. -/
structure Serves (s : Settings) (now : Instant) (x : Server) : Prop where
  list : ∀ q, Answered ((store s).perform now (.list q) x).1 → ∃ rs, ((store s).perform now (.list q) x).1 = .ok rs
  findExpired : ∀ t, Answered ((store s).perform now (.findExpired t) x).1 →
    ∃ rs, ((store s).perform now (.findExpired t) x).1 = .ok rs
  get : ∀ id : JobId, (∃ value, x.database.text? now.millis (s.recordKey id.text) = some (some value)) →
    Answered ((store s).perform now (.get id) x).1 → ∃ r, ((store s).perform now (.get id) x).1 = .ok (some r)

/-- All that is under the keys of some identifiers can be read. -/
private theorem Stores.exists_decoded (h : Stores s JobRecord.IsStorable x.database) (t : Int) (items : List String) :
    ∃ rs, ((x.database.texts t (items.map s.recordKey)).filterMap fun v => v).mapM Exchange.decode = .ok rs := by
  obtain ⟨rs, hrs, -, -⟩ := h.decode_texts (fun _ hr => hr.isReadable) items
  exact ⟨rs, hrs⟩

theorem Stores.serves (h : Stores s JobRecord.IsStorable x.database) : Serves s now x where
  list q ha := by
    cases hp : (store s).perform now (.list q) x with
    | mk a y =>
      rw [hp] at ha
      obtain ⟨-, ids, -, rfl⟩ := perform_list hp ha
      obtain ⟨rs, hrs⟩ := h.exists_decoded now.millis ids
      rw [hrs]
      exact ⟨_, rfl⟩
  findExpired t ha := by
    cases hp : (store s).perform now (.findExpired t) x with
    | mk a y =>
      rw [hp] at ha
      obtain ⟨-, ids, -, rfl⟩ := perform_findExpired hp ha
      obtain ⟨rs, hrs⟩ := h.exists_decoded now.millis ids
      rw [hrs]
      exact ⟨_, rfl⟩
  get id hstored ha := by
    obtain ⟨value, hvalue⟩ := hstored
    cases hp : (store s).perform now (.get id) x with
    | mk a y =>
      rw [hp] at ha
      obtain ⟨-, ⟨-, hnone⟩ | ⟨value', hvalue', rfl⟩⟩ := perform_get hp ha
      · rw [hvalue] at hnone
        cases hnone
      · obtain ⟨r, rfl, -, hr⟩ := h.of_text? hvalue'
        rw [decode_encode hr.isReadable]
        exact ⟨_, rfl⟩

namespace Network

/-- No result that is nested at most 126 deep breaks an operation: none that was carried out was answered with a
failure of the store, and all that is stored can be read. -/
theorem no_result_breaks_operations (hx : x.database = .empty) (moves : List Move) {w : Network}
    (hw : (start now x).run s moves = w) (hok : w.NoneFailed)
    (hp : ∀ o ∈ w.operations, ∀ p ∈ o.payloads, p.IsRepresentable ∧ p.depth ≤ 126) :
    (∀ (i : Nat) (o : Operation) (a : o.Result), w.clients[i]? = some ⟨o, .done a⟩ → o.Concludes a) ∧
      Serves s w.host.clock w.host.store := by
  subst hw
  have hbegins : ∀ o ∈ ((start now x).run s moves).operations, Begins s JobRecord.IsStorable Operation.Concludes o :=
    fun o ho => honours_start fun p hpo => Json.isReadable_of_depth_le (hp o ho p hpo).1 (hp o ho p hpo).2
  have hempty : Stores s JobRecord.IsStorable x.database := hx ▸ Stores.empty s _
  have hsound := (start_sound now hempty).run hok hbegins
  exact ⟨fun i o a h => hsound.honours i _ h, hsound.stores.serves⟩

/-- A manager for samples. -/
def sampleManager : Manager := ⟨0, ⟨"a"⟩, Manager.defaultPollInterval⟩

/-- A job is created, its result is being set, and the jobs are listed meanwhile. -/
def sampleMoves : List Move :=
  [.begin (.create sampleManager ⟨1⟩ { name := "n", timeoutSeconds := 60 }), .step 0, .step 0, .step 0, .step 0,
    .step 0, .begin (.setResult ⟨0, ⟨1⟩⟩ (.array [.int 1])), .step 1, .step 1, .begin (.list .everything), .step 2,
    .step 2, .step 2]

/-- The server and the clients after that. -/
def sample : Network := (start .epoch .empty).run {} sampleMoves

/-- The listing has been carried out, with success. -/
theorem sample_listing_succeeds : ∃ rs, sample.clients[2]? = some ⟨.list .everything, .done (.ok rs)⟩ := by
  have hok : sample.NoneFailed := List.all_eq_true.1 (by decide +kernel)
  have hoperations : sample.operations =
      [.create sampleManager ⟨1⟩ { name := "n", timeoutSeconds := 60 }, .setResult ⟨0, ⟨1⟩⟩ (.array [.int 1]),
        .list .everything] := rfl
  have hp : ∀ o ∈ sample.operations, ∀ p ∈ o.payloads, p.IsRepresentable ∧ p.depth ≤ 126 := by
    rw [hoperations]
    simp [Operation.payloads, Json.IsRepresentable, Json.Everywhere, Json.EverywhereInItems, Json.IsRepresentableNumber,
      Json.Number.IsRepresentable, Json.int, Json.depth, Json.depthItems]
  obtain ⟨a, ha⟩ : ∃ a, sample.clients[2]? = some ⟨.list .everything, .done a⟩ := ⟨_, rfl⟩
  obtain ⟨rs, rfl⟩ := (@no_result_breaks_operations {} .epoch .empty rfl sampleMoves sample rfl hok hp).1 2 _ a ha
  exact ⟨rs, ha⟩

/-- A result of one of two jobs is accepted by commands that do not fail, and then neither of them is listed or swept
any longer. -/
theorem nested_result_stops_listing : ∃ moves,
    ((start .epoch .empty).run {} moves).NoneFailed ∧
      ((start .epoch .empty).run {} moves).clients[2]? =
        some ⟨.setResult ⟨0, ⟨1⟩⟩ (nested 126), .done (.ok ())⟩ ∧
      twoJobs.host.store.database.list? 0 (Settings.indexKey {}) = some [JobId.text ⟨2⟩, JobId.text ⟨1⟩] ∧
      Blocks {} ⟨1⟩ ((start .epoch .empty).run {} moves).host := by
  have hdeep : 126 < (nested 126).depth := by rw [depth_nested]; decide
  obtain ⟨moves, look, put, hset⟩ := exists_setsResult twoJobs_holdsOpen twoJobs_expiry (nested 126)
  obtain ⟨h', hperform, hblocks⟩ := deep_result_blocks twoJobs_holdsOpen twoJobs_expiry twoJobs_index (by simp) hdeep
  have hhost : (twoJobs.run {} moves).host = h' := congrArg Prod.snd (hset.perform.symm.trans hperform)
  refine ⟨creations ++ moves, ?_⟩
  rw [run_append]
  exact ⟨hset.noneFailed twoJobs_noneFailed, hset.client, twoJobs_index, hhost ▸ hblocks⟩

end Network

end Redis

end JobLedger
