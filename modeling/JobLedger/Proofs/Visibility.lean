import JobLedger.Proofs.QueryOrder
import JobLedger.Proofs.StoredRecords

/-!
# Jobs seen through the index

Only a creation gives the index time to live. While it lives, a job is in it until as many jobs as it holds were
created after it; a job whose record is still there is then listed and found by a search.
-/
namespace JobLedger

/-- The record that a call creates. -/
def StoreCall.created? : StoreCall → Option JobRecord
  | .create r => some r
  | _ => none

/-- A creation or an update, with a record that can be read back. -/
def StoreCall.WritesReadable : StoreCall → Prop
  | .create r | .update r => r.IsReadable
  | _ => False

/-- The identifiers of the jobs that calls create. -/
def createdIds (calls : List (Instant × StoreCall)) : List JobId :=
  calls.filterMap fun c => c.2.created?.map JobRecord.id

namespace Redis

variable {s : Settings} {now : Instant} {x : Server} {calls : List (Instant × StoreCall)}

/-- The milliseconds for which a creation keeps the index. -/
def Settings.indexLife (s : Settings) : Int := Settings.seconds s.terminalTtl * 1000

/-- Creations and updates of records that can be read back, none of which met a command that failed. -/
def WriteRun (s : Settings) : List (Instant × StoreCall) → Server → Prop
  | [], _ => True
  | (now, c) :: cs, x =>
    c.WritesReadable ∧ Answered ((store s).perform now c x).1 ∧ WriteRun s cs ((store s).perform now c x).2

/-- From a creation on, each creation and at last a time come before the index has gone. -/
def KeepsIndex (s : Settings) (now : Instant) : Instant → List (Instant × StoreCall) → Prop
  | last, [] => now.millis < last.millis + s.indexLife
  | last, (t, .create _) :: cs => t.millis < last.millis + s.indexLife ∧ KeepsIndex s now t cs
  | last, _ :: cs => KeepsIndex s now last cs

/-- The index holds a job with some newer ones in front of it, and lives on from a creation. -/
def Indexes (s : Settings) (id : JobId) (n : Nat) (last : Instant) (d : Database) : Prop :=
  ∃ newer older : List String, newer.length = n ∧ d.entries.get? s.indexKey =
    some ⟨.list ((newer ++ id.text :: older).take s.capacity), some (last.millis + s.indexLife)⟩

/-- There is no record key of the job, not even one that has expired. -/
def Lacks (s : Settings) (id : JobId) (d : Database) : Prop := d.entries.get? (s.recordKey id.text) = none

section
variable {r : JobRecord} {a : Except StoreError JobRecord} {y : Server}

/-- A creation of a job that had no record is successful and puts the job in front of the index. -/
private theorem create_lacking (hcap : s.indexCap.toNat < Nat.pow 2 63) (hs : Stores s JobRecord.IsReadable x.database)
    (hr : r.IsReadable) (hnew : Lacks s r.id x.database) (hp : (store s).perform now (.create r) x = (a, y))
    (ha : Answered a) :
    Stores s JobRecord.IsReadable y.database ∧ (∀ id, id ≠ r.id → Lacks s id x.database → Lacks s id y.database) ∧
      ∃ items, x.database.list? now.millis s.indexKey = some items ∧ y.database.entries.get? s.indexKey =
        some ⟨.list ((r.id.text :: items).take s.capacity), some (now.millis + s.indexLife)⟩ := by
  rcases perform_create hcap hp ha with ⟨-, hsome, -⟩ | ⟨-, -, t, u, items, -, hu, hitems, hy⟩
  · rw [Database.entry?, hnew] at hsome
    cases hsome
  · have hindex : ∀ k, y.database.entries.get? k =
        if k = s.indexKey then some ⟨.list ((r.id.text :: items).take s.capacity), some u⟩
        else (x.database.put (s.recordKey r.id.text) ⟨.text r.encode, some t⟩).entries.get? k := by
      intro k
      rw [hy, Database.get?_put]
    refine ⟨(hs.put_record hr (some t)).of_index hindex, fun id hne hid => ?_, items, hitems, ?_⟩
    · rw [Lacks, hy, if_neg (s.recordKey_ne_indexKey _), if_neg fun h => hne (s.recordKey_text_injective h)]
      exact hid
    · rw [hy, if_pos rfl, (expiry?_eq_some hu).1]
      rfl

/-- An update adds no record key and leaves the index alone. -/
private theorem update_keeps (hs : Stores s JobRecord.IsReadable x.database) (hr : r.IsReadable)
    (hp : (store s).perform now (.update r) x = (a, y)) (ha : Answered a) :
    Stores s JobRecord.IsReadable y.database ∧ (∀ id, Lacks s id x.database → Lacks s id y.database) ∧
      y.database.entries.get? s.indexKey = x.database.entries.get? s.indexKey := by
  have hsame : ∀ {y : Server}, y.database = x.database → Stores s JobRecord.IsReadable y.database ∧
      (∀ id, Lacks s id x.database → Lacks s id y.database) ∧
      y.database.entries.get? s.indexKey = x.database.entries.get? s.indexKey :=
    fun h => ⟨hs.congr_database h, fun id hid => by rw [h]; exact hid, by rw [h]⟩
  rcases perform_update hp ha with ⟨-, -, hy⟩ | ⟨current, state, hcurrent, -, ⟨-, -, hy⟩ | ⟨-, -, t, -, hy⟩⟩
  · exact hsame hy
  · exact hsame hy
  · have hstamped : ({ r with lastUpdatedAt := now } : JobRecord).IsReadable := hr
    refine ⟨(hs.put_record hstamped (some t)).congr_database hy, fun id hid => ?_, ?_⟩
    · have hne : s.recordKey id.text ≠ s.recordKey r.id.text := by
        intro h
        rw [← h, Database.text?, Database.entry?, hid] at hcurrent
        cases hcurrent
      rw [Lacks, hy, Database.get?_put_of_ne hne]
      exact hid
    · rw [hy, Database.get?_put_of_ne (s.recordKey_ne_indexKey _).symm]

end

theorem take_take_cons (n : Nat) (item : String) (items : List String) :
    (item :: items.take n).take n = (item :: items).take n := by
  cases n with
  | zero => rfl
  | succ n => rw [List.take_succ_cons, List.take_succ_cons, List.take_take, Nat.min_eq_left (Nat.le_succ n)]

/-- A list that is still there. -/
private theorem list?_of_get? {d : Database} {t : Int} {key : String} {items : List String} {expiry : Int}
    (h : d.entries.get? key = some ⟨.list items, some expiry⟩) (ht : t < expiry) : d.list? t key = some items :=
  Database.list?_of_entry (Database.entry?_eq_some.2 ⟨h, d.serves_of_lt _ ht⟩)

/-- A job with few newer ones has not been cut off. -/
private theorem Indexes.mem {id : JobId} {n : Nat} {last : Instant} {d : Database} (h : Indexes s id n last d)
    (hn : n < s.capacity) : ∃ items,
      d.entries.get? s.indexKey = some ⟨.list items, some (last.millis + s.indexLife)⟩ ∧ id.text ∈ items := by
  obtain ⟨newer, older, rfl, hlist⟩ := h
  refine ⟨_, hlist, List.mem_iff_getElem?.2 ⟨newer.length, ?_⟩⟩
  rw [List.getElem?_take_of_lt hn, List.getElem?_append_right (Nat.le_refl _), Nat.sub_self]
  rfl

/-- A run of creations and updates after a job was created. -/
theorem Indexes.after (hcap : s.indexCap.toNat < Nat.pow 2 63) {id : JobId} {n : Nat} {last : Instant}
    (h : Indexes s id n last x.database) (hs : Stores s JobRecord.IsReadable x.database)
    (hlacks : ∀ id ∈ createdIds calls, Lacks s id x.database) (hids : (createdIds calls).Nodup)
    (hrun : WriteRun s calls x) (hkeep : KeepsIndex s now last calls) :
    Stores s JobRecord.IsReadable ((store s).after x calls).database ∧ ∃ last,
      Indexes s id (n + (createdIds calls).length) last ((store s).after x calls).database ∧
        now.millis < last.millis + s.indexLife := by
  induction calls generalizing x n last with
  | nil => exact ⟨hs, last, h, hkeep⟩
  | cons c cs ih =>
    obtain ⟨t, c⟩ := c
    obtain ⟨hwrites, ha, hrest⟩ := hrun
    cases hp : (store s).perform t c x with
    | mk a y =>
      rw [hp] at ha hrest
      rw [StatusStore.after_cons, hp]
      cases c with
      | create r =>
        have hcreated : createdIds ((t, .create r) :: cs) = r.id :: createdIds cs := rfl
        rw [hcreated] at hlacks hids ⊢
        obtain ⟨hr, hids⟩ := List.nodup_cons.1 hids
        obtain ⟨hstores, hother, items, hitems, hindex⟩ :=
          create_lacking hcap hs hwrites (hlacks r.id List.mem_cons_self) hp ha
        obtain ⟨newer, older, hn, hold⟩ := h
        rw [list?_of_get? hold hkeep.1, Option.some.injEq] at hitems
        rw [← hitems, take_take_cons] at hindex
        have hnext : Indexes s id (n + 1) t y.database :=
          ⟨r.id.text :: newer, older, by rw [List.length_cons, hn], hindex⟩
        have hlacks' : ∀ i ∈ createdIds cs, Lacks s i y.database := fun i hi =>
          hother i (fun heq => hr (heq ▸ hi)) (hlacks i (List.mem_cons_of_mem _ hi))
        have hstep := ih hnext hstores hlacks' hids hrest hkeep.2
        rwa [Nat.add_assoc, Nat.add_comm 1, ← List.length_cons (a := r.id)] at hstep
      | update r =>
        obtain ⟨hstores, hother, hindex⟩ := update_keeps hs hwrites hp ha
        obtain ⟨newer, older, hn, hold⟩ := h
        exact ih ⟨newer, older, hn, hindex.trans hold⟩ hstores (fun i hi => hother i (hlacks i hi)) hids hrest hkeep
      | get _ => exact hwrites.elim
      | findExpired _ => exact hwrites.elim
      | list _ => exact hwrites.elim

private theorem writeRun_append {cs ds : List (Instant × StoreCall)} :
    WriteRun s (cs ++ ds) x ↔ WriteRun s cs x ∧ WriteRun s ds ((store s).after x cs) := by
  induction cs generalizing x with
  | nil => exact ⟨fun h => ⟨trivial, h⟩, And.right⟩
  | cons c cs ih =>
    show _ ∧ _ ∧ WriteRun s (cs ++ ds) _ ↔ (_ ∧ _ ∧ WriteRun s cs _) ∧ _
    rw [ih, StatusStore.after_cons, and_assoc, and_assoc]

/-- Jobs that are not created in a run get no record key in it. -/
theorem WriteRun.lacks (hcap : s.indexCap.toNat < Nat.pow 2 63) (hs : Stores s JobRecord.IsReadable x.database)
    (hlacks : ∀ id ∈ createdIds calls, Lacks s id x.database) (hids : (createdIds calls).Nodup)
    (hrun : WriteRun s calls x) :
    Stores s JobRecord.IsReadable ((store s).after x calls).database ∧
      ∀ id, id ∉ createdIds calls → Lacks s id x.database → Lacks s id ((store s).after x calls).database := by
  induction calls generalizing x with
  | nil => exact ⟨hs, fun _ _ h => h⟩
  | cons c cs ih =>
    obtain ⟨t, c⟩ := c
    obtain ⟨hwrites, ha, hrest⟩ := hrun
    cases hp : (store s).perform t c x with
    | mk a y =>
      rw [hp] at ha hrest
      rw [StatusStore.after_cons, hp]
      cases c with
      | create r =>
        have hcreated : createdIds ((t, .create r) :: cs) = r.id :: createdIds cs := rfl
        rw [hcreated] at hlacks hids ⊢
        obtain ⟨hr, hids⟩ := List.nodup_cons.1 hids
        obtain ⟨hstores, hother, -⟩ := create_lacking hcap hs hwrites (hlacks r.id List.mem_cons_self) hp ha
        obtain ⟨hstores, hlacks⟩ := ih hstores
          (fun i hi => hother i (fun heq => hr (heq ▸ hi)) (hlacks i (List.mem_cons_of_mem _ hi))) hids hrest
        refine ⟨hstores, fun id hid hold => ?_⟩
        rw [List.mem_cons, not_or] at hid
        exact hlacks id hid.2 (hother id hid.1 hold)
      | update r =>
        obtain ⟨hstores, hother, -⟩ := update_keeps hs hwrites hp ha
        obtain ⟨hstores, hlacks⟩ := ih hstores (fun i hi => hother i (hlacks i hi)) hids hrest
        exact ⟨hstores, fun id hid hold => hlacks id hid (hother id hold)⟩
      | get _ => exact hwrites.elim
      | findExpired _ => exact hwrites.elim
      | list _ => exact hwrites.elim

/-- What is read for an index that holds a job with a record. -/
private theorem exists_read {y : Server} {id : JobId} {r' : JobRecord} {items : List String}
    (hs : Stores s JobRecord.IsReadable y.database) (hmem : id.text ∈ items)
    (hget : ((store s).perform now (.get id) y).1 = .ok (some r')) :
    ∃ rs, ((y.database.texts now.millis (items.map s.recordKey)).filterMap fun v => v).mapM Exchange.decode = .ok rs ∧
      rs.length ≤ items.length ∧ r' ∈ rs := by
  obtain ⟨rs, hrs, hlength, hmem'⟩ := hs.decode_texts (fun _ h => h) items
  refine ⟨rs, hrs, hlength, (hmem' r').2 ⟨id.text, hmem, ?_⟩⟩
  cases hp : (store s).perform now (.get id) y with
  | mk a z =>
    rw [hp] at hget
    obtain rfl : a = .ok (some r') := hget
    obtain ⟨-, ⟨hnone, -⟩ | ⟨value, hvalue, hdecode⟩⟩ := perform_get hp (answered_of_isOk rfl)
    · cases hnone
    · refine ⟨value, hvalue, ?_⟩
      cases hd : Exchange.decode value with
      | error e =>
        rw [hd] at hdecode
        cases hdecode
      | ok r =>
        rw [hd] at hdecode
        rw [Option.some.inj (Except.ok.inj hdecode)]

/-- A listing, for records that are read. -/
private theorem list_of_read {y : Server} {q : ListQuery} {items : List String} {rs : List JobRecord}
    (hitems : y.database.list? now.millis s.indexKey = some items)
    (hrs : ((y.database.texts now.millis (items.map s.recordKey)).filterMap fun v => v).mapM Exchange.decode = .ok rs)
    (ha : Answered ((store s).perform now (.list q) y).1) :
    ((store s).perform now (.list q) y).1 = .ok (q.select rs) := by
  rw [list_answer hitems ha, hrs]
  rfl

/-- A search, for records that are read. -/
private theorem findExpired_of_read {y : Server} {t : Instant} {items : List String} {rs : List JobRecord}
    (hitems : y.database.list? now.millis s.indexKey = some items)
    (hrs : ((y.database.texts now.millis (items.map s.recordKey)).filterMap fun v => v).mapM Exchange.decode = .ok rs)
    (ha : Answered ((store s).perform now (.findExpired t) y).1) :
    ((store s).perform now (.findExpired t) y).1 = .ok (rs.filter fun r => r.isExpired t) := by
  rw [findExpired_answer hitems ha, hrs]
  rfl

/-- While the index lives, a job that is still there and has few enough newer ones is in the index, listed on some
page, and found when it has expired. -/
theorem visible_while_index_lives (hcap : s.indexCap.toNat < Nat.pow 2 63) (hx : x.database = .empty)
    {earlier later : List (Instant × StoreCall)} {t₀ : Instant} {r : JobRecord}
    (hids : (createdIds (earlier ++ (t₀, .create r) :: later)).Nodup)
    (hrun : WriteRun s (earlier ++ (t₀, .create r) :: later) x) (hkeep : KeepsIndex s now t₀ later)
    (hfew : (createdIds later).length < s.capacity) {y : Server}
    (hy : (store s).after x (earlier ++ (t₀, .create r) :: later) = y) {r' : JobRecord}
    (hget : ((store s).perform now (.get r.id) y).1 = .ok (some r')) :
    ∃ items, y.database.list? now.millis s.indexKey = some items ∧ r.id.text ∈ items ∧
      (∀ size : UInt32, items.length ≤ 4294967295 * ListQuery.clampSize size.toNat →
        (∀ q, Answered ((store s).perform now (.list q) y).1) →
        ∃ page rs, ((store s).perform now (.list { page, pageSize := size }) y).1 = .ok rs ∧ r' ∈ rs) ∧
      ∀ t, r'.isExpired t = true → Answered ((store s).perform now (.findExpired t) y).1 →
        ∃ rs, ((store s).perform now (.findExpired t) y).1 = .ok rs ∧ r' ∈ rs := by
  obtain ⟨hbefore, hwrites, ha, hafter⟩ := writeRun_append.1 hrun
  have hstores : Stores s JobRecord.IsReadable x.database := hx ▸ Stores.empty s _
  have hempty : ∀ id, Lacks s id x.database := fun id => by simp [Lacks, hx, Database.empty]
  rw [createdIds, List.filterMap_append] at hids
  obtain ⟨hidsBefore, hidsLater, hdisjoint⟩ := List.nodup_append.1 hids
  obtain ⟨hr, hidsLater⟩ := List.nodup_cons.1 hidsLater
  have hnew : ∀ id ∈ r.id :: createdIds later, id ∉ createdIds earlier :=
    fun id hid hmem => hdisjoint id hmem id hid rfl
  obtain ⟨hstores, hlacks⟩ := hbefore.lacks hcap hstores (fun id _ => hempty id) hidsBefore
  rw [StatusStore.after_append, StatusStore.after_cons] at hy
  cases hp : (store s).perform t₀ (.create r) ((store s).after x earlier) with
  | mk a z =>
    rw [hp] at ha hafter hy
    obtain ⟨hstores, hother, items, -, hindex⟩ := create_lacking hcap hstores hwrites
      (hlacks r.id (hnew r.id List.mem_cons_self) (hempty r.id)) hp ha
    have hfirst : Indexes s r.id 0 t₀ z.database := ⟨[], items, rfl, hindex⟩
    obtain ⟨hstores, last, hindexes, hlives⟩ := hfirst.after hcap hstores
      (fun id hid => hother id (fun heq => hr (heq ▸ hid))
        (hlacks id (hnew id (List.mem_cons_of_mem _ hid)) (hempty id))) hidsLater hafter hkeep
    rw [hy] at hstores hindexes
    obtain ⟨items, hlist, hmem⟩ := hindexes.mem (Nat.zero_add _ ▸ hfew)
    have hitems := list?_of_get? hlist hlives
    obtain ⟨rs, hrs, hle, hr'⟩ := exists_read hstores hmem hget
    refine ⟨items, hitems, hmem, fun size hsize hanswers => ?_, fun t ht hanswer => ?_⟩
    · obtain ⟨page, hpage⟩ := ListQuery.exists_page size (Nat.le_trans hle hsize) hr'
      refine ⟨page, _, ?_, hpage⟩
      exact list_of_read hitems hrs (hanswers _)
    · refine ⟨_, findExpired_of_read hitems hrs hanswer, ?_⟩
      exact List.mem_filter.2 ⟨hr', ht⟩

/-- Open records outlive the index of a store with these settings, which nothing renews but another creation. -/
def shortIndex : Settings := { activeTtl := .ofSeconds 100, terminalTtl := .ofSeconds 10 }

/-- A job with a timeout of five seconds. -/
def quickJob : JobRecord := JobRecord.accepted ⟨1⟩ { name := "quick", timeoutSeconds := 5 } ⟨"a"⟩ .epoch

/-- The server after the job was created. -/
def quickServer : Server := (store shortIndex).after .empty [(.epoch, .create quickJob)]

private theorem quickJob_restored : quickJob.restored = quickJob := rfl

private theorem quickServer_entries :
    quickServer.database.entries.get? (shortIndex.recordKey quickJob.id.text) =
        some ⟨.text quickJob.encode, some 100000⟩ ∧
      quickServer.database.entries.get? shortIndex.indexKey = some ⟨.list [quickJob.id.text], some 10000⟩ :=
  perform_create_first (by decide) (x := .empty) rfl (by decide +kernel) rfl

private theorem quickServer_get {t : Instant} (ht : t.millis < 100000) :
    ((store shortIndex).perform t (.get quickJob.id) quickServer).1 = .ok (some quickJob) := by
  have htext : quickServer.database.text? t.millis (shortIndex.recordKey quickJob.id.text) =
      some (some quickJob.encode) :=
    Database.text?_eq_some.2 ⟨_, Database.entry?_eq_some.2 ⟨quickServer_entries.1, Database.serves_of_lt _ _ ht⟩⟩
  rw [perform_get_of_text? (by decide +kernel) htext, decode_encode (JobRecord.isReadable_of_none rfl),
    quickJob_restored]
  rfl

private theorem quickServer_run : WriteRun shortIndex [(.epoch, .create quickJob)] .empty :=
  ⟨JobRecord.isReadable_of_none rfl, answered_of_isOk (by decide +kernel), trivial⟩

/-- The job after two seconds, half done. -/
def halfDone : JobRecord := quickJob.marked (.plus .epoch (.ofSeconds 2)) (.running 50)

/-- A job that is created after five seconds. -/
def laterJob : JobRecord :=
  .accepted ⟨2⟩ { name := "later", timeoutSeconds := 60 } ⟨"a"⟩ (.plus .epoch (.ofSeconds 5))

/-- What becomes of the server while the job is worked on. -/
def laterRun : List (Instant × StoreCall) :=
  [(.plus .epoch (.ofSeconds 2), .update halfDone), (.plus .epoch (.ofSeconds 5), .create laterJob)]

/-- A time when the index would have gone, had the later job not renewed it. -/
def renewed : Instant := .plus .epoch (.ofSeconds 12)

/-- The first job is updated after two seconds. -/
private theorem halfDone_updated {x : Server} (hx : x.faults = [])
    (hrecord : x.database.entries.get? (shortIndex.recordKey quickJob.id.text) =
      some ⟨.text quickJob.encode, some 100000⟩) :
    ∃ y, (store shortIndex).perform (.plus .epoch (.ofSeconds 2)) (.update halfDone) x = (.ok halfDone, y) ∧
      y.faults = [] ∧ y.database =
        x.database.put (shortIndex.recordKey halfDone.id.text) ⟨.text halfDone.encode, some 102000⟩ := by
  have hhalf : halfDone.stamped (.plus .epoch (.ofSeconds 2)) = halfDone := JobRecord.stamped_marked _ _ _
  have htext : x.database.text? (Instant.plus .epoch (.ofSeconds 2)).millis
      (shortIndex.recordKey halfDone.id.text) = some (some quickJob.encode) :=
    Database.text?_eq_some.2 ⟨_, Database.entry?_eq_some.2 ⟨hrecord, Database.serves_of_lt _ _ (by decide)⟩⟩
  have hupdate := perform_update_of_open hx htext (JobRecord.isReadable_of_none rfl) rfl
    (rfl : expiry? _ (shortIndex.secondsFor halfDone.state) = some 102000)
  rwa [hhalf] at hupdate

/-- The second job is created after five seconds, in front of the first one. -/
private theorem laterJob_created {x : Server} (hx : x.faults = [])
    (hindex : x.database.entries.get? shortIndex.indexKey = some ⟨.list [quickJob.id.text], some 10000⟩)
    (hnone : x.database.entries.get? (shortIndex.recordKey laterJob.id.text) = none) :
    ∃ y, (store shortIndex).perform (.plus .epoch (.ofSeconds 5)) (.create laterJob) x = (.ok laterJob, y) ∧
      y.faults = [] ∧
      y.database.entries.get? shortIndex.indexKey =
        some ⟨.list [laterJob.id.text, quickJob.id.text], some 15000⟩ ∧
      y.database.entries.get? (shortIndex.recordKey quickJob.id.text) =
        x.database.entries.get? (shortIndex.recordKey quickJob.id.text) := by
  have hunknown : x.database.entry? (Instant.plus .epoch (.ofSeconds 5)).millis
      (shortIndex.recordKey laterJob.id.text) = none := by
    rw [Database.entry?, hnone]
    rfl
  have hlist : x.database.list? (Instant.plus .epoch (.ofSeconds 5)).millis shortIndex.indexKey =
      some [quickJob.id.text] := list?_of_get? hindex (by decide)
  obtain ⟨y, hcreate, hy, hjobs, hothers⟩ := perform_create_of_unknown (by decide) hx hunknown rfl hlist rfl
  exact ⟨y, hcreate, hy, hjobs, hothers _ (shortIndex.recordKey_ne_indexKey _) (by decide)⟩

private theorem laterRun_spec {x y : Server} (hx : x.faults = [])
    (hrecord : x.database.entries.get? (shortIndex.recordKey quickJob.id.text) =
      some ⟨.text quickJob.encode, some 100000⟩)
    (hindex : x.database.entries.get? shortIndex.indexKey = some ⟨.list [quickJob.id.text], some 10000⟩)
    (hnone : x.database.entries.get? (shortIndex.recordKey laterJob.id.text) = none)
    (hy : (store shortIndex).after x laterRun = y) :
    WriteRun shortIndex laterRun x ∧ y.faults = [] ∧
      y.database.list? renewed.millis shortIndex.indexKey = some [laterJob.id.text, quickJob.id.text] ∧
      y.database.text? renewed.millis (shortIndex.recordKey quickJob.id.text) = some (some halfDone.encode) := by
  obtain ⟨w, hupdate, hw, hdatabase⟩ := halfDone_updated hx hrecord
  have hindexed : w.database.entries.get? shortIndex.indexKey = some ⟨.list [quickJob.id.text], some 10000⟩ := by
    rw [hdatabase, Database.get?_put_of_ne (shortIndex.recordKey_ne_indexKey _).symm, hindex]
  have hunknown : w.database.entries.get? (shortIndex.recordKey laterJob.id.text) = none := by
    rw [hdatabase, Database.get?_put_of_ne (by decide), hnone]
  obtain ⟨z, hcreate, hz, hjobs, hkept⟩ := laterJob_created hw hindexed hunknown
  obtain rfl : z = y := by
    rw [← hy, laterRun, StatusStore.after_cons, hupdate, StatusStore.after_cons, hcreate]
    rfl
  have hhalf : z.database.entries.get? (shortIndex.recordKey quickJob.id.text) =
      some ⟨.text halfDone.encode, some 102000⟩ := by
    rw [hkept, hdatabase]
    exact (Database.get?_put ..).trans (if_pos rfl)
  refine ⟨⟨JobRecord.isReadable_of_none rfl, ?_, JobRecord.isReadable_of_none rfl, ?_, trivial⟩, hz,
    list?_of_get? hjobs (by decide),
    Database.text?_eq_some.2 ⟨_, Database.entry?_eq_some.2 ⟨hhalf, Database.serves_of_lt _ _ (by decide)⟩⟩⟩
  · rw [hupdate]
    exact answered_of_isOk rfl
  · rw [hupdate, hcreate]
    exact answered_of_isOk rfl

/-- After twelve seconds the job is listed and found to have expired, because a later job has renewed the index. -/
theorem quick_job_listed :
    ((store shortIndex).perform renewed (.get quickJob.id) ((store shortIndex).after quickServer laterRun)).1 =
        .ok (some halfDone) ∧
      (∃ page rs, ((store shortIndex).perform renewed (.list { page, pageSize := 10 })
        ((store shortIndex).after quickServer laterRun)).1 = .ok rs ∧ halfDone ∈ rs) ∧
      ∃ rs, ((store shortIndex).perform renewed (.findExpired renewed)
        ((store shortIndex).after quickServer laterRun)).1 = .ok rs ∧ halfDone ∈ rs := by
  obtain ⟨y, hy⟩ : ∃ y, (store shortIndex).after quickServer laterRun = y := ⟨_, rfl⟩
  obtain ⟨hrun, hfaults, hlist, htext⟩ :=
    laterRun_spec (by decide +kernel) quickServer_entries.1 quickServer_entries.2 (by decide +kernel) hy
  have hget : ((store shortIndex).perform renewed (.get quickJob.id) y).1 = .ok (some halfDone) := by
    rw [perform_get_of_text? hfaults htext, decode_encode (JobRecord.isReadable_of_none rfl)]
    rfl
  have hall : (store shortIndex).after .empty ([(.epoch, .create quickJob)] ++ laterRun) = y :=
    (StatusStore.after_append _ _ _ _).trans hy
  have hwrites : WriteRun shortIndex ([(.epoch, .create quickJob)] ++ laterRun) .empty :=
    writeRun_append.2 ⟨quickServer_run, hrun⟩
  have hlives : renewed.millis < (Instant.plus .epoch (.ofSeconds 5)).millis + shortIndex.indexLife := by decide
  obtain ⟨items, hitems, -, hpages, hexpired⟩ := @visible_while_index_lives shortIndex renewed .empty (by decide) rfl []
    laterRun .epoch quickJob (by decide) hwrites ⟨by decide, hlives⟩ (by decide) y hall halfDone hget
  obtain rfl : items = _ := Option.some.inj (hitems.symm.trans hlist)
  rw [hy]
  exact ⟨hget, hpages 10 (by decide) fun q => answered_list hfaults (hitems ▸ rfl),
    hexpired renewed (by decide) (answered_findExpired hfaults (hitems ▸ rfl))⟩

/-- A time when the index has gone and the job is still there. -/
def afterIndex : Instant := .plus .epoch (.ofSeconds 20)

/-- The newest job is still there and has expired when it is neither listed nor found. -/
theorem quick_job_unlisted : WriteRun shortIndex [(.epoch, .create quickJob)] .empty ∧
    ((store shortIndex).perform afterIndex (.get quickJob.id) quickServer).1 = .ok (some quickJob) ∧
    quickJob.isExpired afterIndex = true ∧
    quickServer.database.list? afterIndex.millis shortIndex.indexKey = some [] ∧
    (∀ q, ((store shortIndex).perform afterIndex (.list q) quickServer).1 = .ok []) ∧
    ((store shortIndex).perform afterIndex (.findExpired afterIndex) quickServer).1 = .ok [] := by
  have hmillis : afterIndex.millis = 20000 := by decide
  have hlist : quickServer.database.list? afterIndex.millis shortIndex.indexKey = some [] := by
    rw [hmillis, Database.list?, Database.entry?, quickServer_entries.2]
    rfl
  have hfaults : quickServer.faults = [] := by decide +kernel
  refine ⟨quickServer_run, quickServer_get (Int.lt_of_le_of_lt (Int.le_of_eq hmillis) (by decide)), by decide, hlist,
    fun q => ?_, findExpired_of_read hlist rfl (answered_findExpired hfaults (hlist ▸ rfl))⟩
  rw [list_of_read hlist rfl (answered_list hfaults (hlist ▸ rfl)), ListQuery.select]
  simp

end Redis

end JobLedger
