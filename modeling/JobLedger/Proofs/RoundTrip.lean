import JobLedger.Proofs.EndedRecords
import JobLedger.Proofs.Outcomes
import JobLedger.Proofs.UnreadableRecords

/-!
# Results that come back

Once a result has ended its job, everyone who looks at the job is told of this result: in memory of any, on a
key-value server of one that is not null and is nested at most 126 deep. A result of null is stored there as no
result, and one that is nested deeper keeps the job from being looked at.
-/
namespace JobLedger

/-- Whoever looks at the job is told of its result. -/
structure ReadsBack {σ : Type} (S : StatusStore σ) (h : Host σ) (id : JobId) (payload : Json) : Prop where
  getStatus : ∃ r : JobRecord, (h.perform S (Manager.getStatus id)).1 = .ok r ∧ r.state = .succeeded ∧
    r.percentComplete = 100 ∧ r.result Json.Reader.json = .ok (some payload)
  statusView : ∀ m : Manager, ∃ view : JobStatusView, (h.perform S (m.statusView id)).1 = .ok view ∧
    view.result = some payload

section
variable {σ : Type} {S : StatusStore σ} {h : Host σ} {id : JobId} {r : JobRecord} {x : σ} {payload : Json}

private theorem perform_getStatus (hget : S.perform h.clock (.get id) h.store = (.ok (some r), x)) :
    (h.perform S (Manager.getStatus id)).1 = .ok r :=
  congrArg Prod.fst (Host.perform_ask (q := .store (.get id)) (Host.answer_call hget))

theorem perform_statusView (hget : S.perform h.clock (.get id) h.store = (.ok (some r), x)) (m : Manager) :
    (h.perform S (m.statusView id)).1 = .ok (JobStatusView.ofRecord r m.pollInterval) :=
  congrArg Prod.fst (Host.perform_ask (q := .store (.get id)) (Host.answer_call hget))

private theorem readsBack_of_get (hget : S.perform h.clock (.get id) h.store = (.ok (some r), x))
    (hstate : r.state = .succeeded) (hpercent : r.percentComplete = 100) (hpayload : r.resultPayload = some payload)
    (hsorted : payload.IsSorted) : ReadsBack S h id payload where
  getStatus := by
    refine ⟨r, perform_getStatus hget, hstate, hpercent, ?_⟩
    rw [JobRecord.result, hpayload]
    simp only [Json.Reader.ofJson?, Json.Reader.json, Json.Document.value?_ofJson hsorted (Nat.le_refl _)]
  statusView m := by
    refine ⟨_, perform_statusView hget m, ?_⟩
    simp only [JobStatusView.ofRecord, hstate, if_true, hpayload]

end

/-- A result has ended its job. -/
def World.HasConcluded (w : World) (c : JobContext) (payload : Json) : Prop :=
  ∃ e ∈ w.log, e.operation = .setResult c payload ∧ e.ending?.isSome

/-- In memory any result that ended its job comes back. -/
theorem World.readsBack {w : World} (hw : w.Reachable .empty) {c : JobContext} {payload : Json}
    (hc : w.HasConcluded c payload) (hsorted : payload.IsSorted) : ReadsBack Memory.store w.host c.job payload := by
  obtain ⟨e, he, ho, hend⟩ := hc
  obtain ⟨r, hr⟩ := Option.isSome_iff_exists.1 hend
  have hsound := hw.sound Memory.empty_keyed
  obtain ⟨hstored, m, hmakes, hstate, houtcome⟩ := (hsound.ledger.entry e he).ending r hr
  rw [ho] at hmakes
  obtain ⟨hid, rfl⟩ := hmakes
  have hpayload : r.resultPayload = some payload := congrArg JobRecord.Outcome.resultPayload (houtcome rfl)
  have hpercent := (hsound.ledger.wellFormed hstored rfl).percent_of_succeeded hstate.symm
  rw [← hid] at hstored
  exact readsBack_of_get (congrArg (fun o => (Except.ok o, w.host.store)) hstored) hstate.symm hpercent hpayload hsorted

namespace Redis

/-- A result has ended its job, and neither a later command nor the present comes after its record expires. -/
def Network.HasConcluded (s : Settings) (v : Network) (c : JobContext) (payload : Json) : Prop :=
  ∃ (before : List Sent) (e : Sent) (after : List Sent), v.log = before ++ e :: after ∧
    e.operation = .setResult c payload ∧ e.hasReplaced = true ∧ (∀ e' ∈ after, e'.time.millis < e.expiry s) ∧
    v.host.clock.millis < e.expiry s

variable {s : Settings} {now : Instant} {x : Server}

/-- The record of a result that has ended its job is there. -/
private theorem Network.exists_entry (hx : Stores s (fun _ => True) x.database) {moves : List Network.Move}
    {v : Network}
    (hv : (Network.start now x).run s moves = v) (hok : v.NoneFailed) {c : JobContext} {payload : Json}
    (hc : v.HasConcluded s c payload) :
    ∃ r : JobRecord, v.host.store.database.text? v.host.clock.millis (s.recordKey c.job.text) = some (some r.encode) ∧
      r.state = .succeeded ∧ r.percentComplete = 100 ∧ r.resultPayload = some payload := by
  subst hv
  obtain ⟨before, e, after, hlog, ho, hreplaced, hafter, hlive⟩ := hc
  have hstart : (Network.start now x).Sound s (fun _ => True) fun _ _ => True := Network.start_sound now hx
  have hbegins : ∀ o ∈ ((Network.start now x).run s moves).operations, Network.Begins s _ (fun _ _ => True) o :=
    fun o _ => begins_loose s o
  have hnone : (Network.start now x).KeepsEnded s := fun before e after r hnil => by simp [Network.start] at hnil
  have hmem : e ∈ ((Network.start now x).run s moves).log := hlog ▸ List.mem_append_right _ List.mem_cons_self
  obtain ⟨r, hends, hid, hstate, hpercent, hpayload⟩ := (hstart.run hok hbegins).ends_of_setResult hmem ho hreplaced
  have hentry := hstart.keepsEnded_run hnone hok hbegins before e after r hlog hends hafter
  rw [hid] at hentry
  refine ⟨r, Database.text?_eq_some.2 ⟨_, Database.entry?_eq_some.2 ⟨hentry, ?_⟩⟩, hstate, hpercent, hpayload⟩
  exact Database.serves_of_lt _ _ hlive

/-- On a server a result that can be restored comes back until its record expires. -/
theorem Network.readsBack (hx : Stores s (fun _ => True) x.database) {moves : List Network.Move} {v : Network}
    (hv : (Network.start now x).run s moves = v) (hok : v.NoneFailed) {c : JobContext} {payload : Json}
    (hc : v.HasConcluded s c payload)
    (hanswered : Answered ((store s).perform v.host.clock (.get c.job) v.host.store).1) (hp : payload.IsRestorable) :
    ReadsBack (store s) v.host c.job payload := by
  obtain ⟨r, htext, hstate, hpercent, hpayload⟩ := exists_entry hx hv hok hc
  have hrestorable : ∀ q, r.resultPayload = some q → q.IsRestorable := fun q hq => by
    rw [hpayload] at hq
    exact Option.some.inj hq ▸ hp
  cases hget : (store s).perform v.host.clock (.get c.job) v.host.store with
  | mk a y =>
    rw [hget] at hanswered
    obtain ⟨-, ⟨-, hnone⟩ | ⟨value, hvalue, rfl⟩⟩ := perform_get hget hanswered
    · rw [htext] at hnone
      cases hnone
    · obtain rfl := Option.some.inj (Option.some.inj (htext.symm.trans hvalue))
      rw [Exchange.decode, JobRecord.decode?_encode_of_restorable hrestorable] at hget
      exact readsBack_of_get hget hstate hpercent hpayload hp.isSorted

private theorem Network.SetsResult.hasConcluded {w v : Network} {c : JobContext} {payload : Json} {look put : Sent}
    {expiry : Int} (h : SetsResult s w v c payload look put)
    (he : expiry? w.host.clock.millis (Settings.seconds s.terminalTtl) = some expiry) : v.HasConcluded s c payload := by
  refine ⟨w.log ++ [look], put, [], by rw [h.log, List.append_assoc]; rfl, h.operation, h.hasReplaced,
    List.forall_mem_nil _, ?_⟩
  rw [h.clock, Sent.expiry, h.time, ← (expiry?_eq_some he).1]
  exact lt_of_expiry? (Settings.seconds_pos _) he

/-- A result of null is accepted, and then there is no result. -/
private theorem null_result_is_gone {h : Host Server} {c : JobContext} {r : JobRecord} (ho : HoldsOpen s h c r)
    {expiry : Int}
    (he : expiry? h.clock.millis (Settings.seconds s.terminalTtl) = some expiry) :
    ∃ h' r', h.perform (store s) (c.setResult .null) = (.ok (), h') ∧
      (h'.perform (store s) (Manager.getStatus c.job)).1 = .ok r' ∧ r'.state = .succeeded ∧
      r'.result Json.Reader.json = .ok none ∧
      ∀ m : Manager, ∃ view, (h'.perform (store s) (m.statusView c.job)).1 = .ok view ∧ view.result = none := by
  obtain ⟨h', hperform, -, hfaults, htext, -⟩ := perform_setResult ho he .null
  have hreread := @JobRecord.rereadPayload?_of_null (r.restored.marked h.clock (.succeeded .null)) rfl
  have hread : (r.restored.marked h.clock (.succeeded .null)).IsReadable := by rw [JobRecord.IsReadable, hreread]; rfl
  have hget := perform_get_of_text? hfaults htext
  rw [decode_encode hread, JobRecord.restored, hreread] at hget
  exact ⟨h', _, hperform, perform_getStatus hget, rfl, rfl, fun m => ⟨_, perform_statusView hget m, rfl⟩⟩

end Redis

/-- In memory a result of null has been set. -/
def World.nullSet : World :=
  World.sample.run [.begin (.setResult World.sampleContext .null), .step 1, .step 1, .step 1, .step 1]

/-- A result that has ended its job comes back: in memory whatever it is and whatever calls of the store failed, on a
server that holds records if no command fails, as long as the record has not expired, and if it can be restored. -/
theorem set_result_comes_back (c : JobContext) (payload : Json) :
    (∀ w : World, w.Reachable .empty → w.HasConcluded c payload → payload.IsSorted →
      ReadsBack Memory.store w.host c.job payload) ∧
    ∀ (s : Redis.Settings) (now : Instant) (x : Redis.Server) (moves : List Redis.Network.Move) (v : Redis.Network),
      Redis.Stores s (fun _ => True) x.database → (Redis.Network.start now x).run s moves = v → v.NoneFailed →
      v.HasConcluded s c payload →
      Redis.Answered ((Redis.store s).perform v.host.clock (.get c.job) v.host.store).1 → payload.IsRestorable →
      ReadsBack (Redis.store s) v.host c.job payload :=
  ⟨fun _ hw hc hsorted => World.readsBack hw hc hsorted,
    fun _ _ _ _ _ hx hv hok hc hanswered hp => Redis.Network.readsBack hx hv hok hc hanswered hp⟩

/-- A result of null comes back in memory, and an array on a server. -/
theorem null_and_array_come_back :
    ReadsBack Memory.store World.nullSet.host ⟨1⟩ .null ∧
    ∃ moves, ReadsBack (Redis.store {}) (Redis.Network.twoJobs.run {} moves).host ⟨1⟩ (.array [.int 1]) := by
  constructor
  · have hc : World.nullSet.HasConcluded World.sampleContext .null := by
      refine ⟨_, List.mem_of_getElem? (i := 5) rfl, ?_, ?_⟩ <;> rfl
    exact (set_result_comes_back World.sampleContext .null).1 World.nullSet (World.sample_reachable _) hc trivial
  · have hp : (Json.array [.int 1]).IsRestorable := by
      constructor
      case ne_null => nofun
      case isWhole => simp [Json.IsWhole, Json.Everywhere, Json.EverywhereInItems, Json.IsWholeNumber, Json.int]
      case isSorted => simp [Json.IsSorted, Json.Everywhere, Json.EverywhereInItems, Json.HasSortedMembers, Json.int]
      case depth_le => decide
    obtain ⟨moves, look, put, hset⟩ :=
      Redis.Network.exists_setsResult Redis.Network.twoJobs_holdsOpen Redis.Network.twoJobs_expiry (.array [.int 1])
    obtain ⟨h', hperform, -, hfaults, htext, -⟩ :=
      Redis.perform_setResult Redis.Network.twoJobs_holdsOpen Redis.Network.twoJobs_expiry (.array [.int 1])
    obtain rfl : (Redis.Network.twoJobs.run {} moves).host = h' := congrArg Prod.snd (hset.perform.symm.trans hperform)
    exact ⟨moves, (set_result_comes_back ⟨0, ⟨1⟩⟩ (.array [.int 1])).2 {} .epoch .empty
      (Redis.Network.creations ++ moves) _ (Redis.Stores.empty _ _) (Redis.Network.run_append _ _ _)
      (hset.noneFailed Redis.Network.twoJobs_noneFailed) (hset.hasConcluded Redis.Network.twoJobs_expiry)
      (Redis.answered_get hfaults ⟨_, htext⟩) hp⟩

namespace Redis.Network

/-- Without a failed command, a result of null is told as no result, and one that is nested too deep not at all. -/
theorem null_and_nested_results_are_lost :
    (∃ moves, ((start .epoch .empty).run {} moves).NoneFailed ∧
      ((start .epoch .empty).run {} moves).HasConcluded {} ⟨0, ⟨1⟩⟩ .null ∧
      ∃ r : JobRecord,
        (((start .epoch .empty).run {} moves).host.perform (store {}) (Manager.getStatus ⟨1⟩)).1 = .ok r ∧
          r.state = .succeeded ∧ r.result Json.Reader.json = .ok none) ∧
    ∃ moves, ((start .epoch .empty).run {} moves).NoneFailed ∧
      ((start .epoch .empty).run {} moves).HasConcluded {} ⟨0, ⟨1⟩⟩ (nested 126) ∧
      (((start .epoch .empty).run {} moves).host.perform (store {}) (Manager.getStatus ⟨1⟩)).1 =
        .error (.invalidPayload .document) := by
  constructor
  · obtain ⟨moves, look, put, hset⟩ := exists_setsResult twoJobs_holdsOpen twoJobs_expiry .null
    obtain ⟨h', r, hperform, hget, hstate, hresult, -⟩ := null_result_is_gone twoJobs_holdsOpen twoJobs_expiry
    obtain rfl : (twoJobs.run {} moves).host = h' := congrArg Prod.snd (hset.perform.symm.trans hperform)
    refine ⟨creations ++ moves, ?_⟩
    rw [run_append]
    exact ⟨hset.noneFailed twoJobs_noneFailed, hset.hasConcluded twoJobs_expiry, r, hget, hstate, hresult⟩
  · obtain ⟨moves, look, put, hset⟩ := exists_setsResult twoJobs_holdsOpen twoJobs_expiry (nested 126)
    have hdeep : 126 < (nested 126).depth := by rw [depth_nested]; decide
    obtain ⟨h', hperform, hblocks⟩ := deep_result_blocks twoJobs_holdsOpen twoJobs_expiry twoJobs_index (by simp) hdeep
    obtain rfl : (twoJobs.run {} moves).host = h' := congrArg Prod.snd (hset.perform.symm.trans hperform)
    refine ⟨creations ++ moves, ?_⟩
    rw [run_append]
    exact ⟨hset.noneFailed twoJobs_noneFailed, hset.hasConcluded twoJobs_expiry, hblocks.getStatus⟩

end Redis.Network

end JobLedger
