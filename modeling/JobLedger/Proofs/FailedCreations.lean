import JobLedger.Proofs.LiveEntries
import JobLedger.Proofs.StoredRecords

/-!
# Creations that fail

A creation keeps the record and then puts its identifier into the index, in two commands. One that fails at the first
leaves nothing: the server answers from then on as if it had not been asked. One that fails at the second leaves a
record that is not in the index: until its time is over a lookup finds it and its identifier is refused to a
second creation, while listings and searches do not show it.
-/
namespace JobLedger.Redis

/-- The command that keeps a new record. -/
abbrev Settings.keepNew (s : Settings) (r : JobRecord) : Command :=
  .setNew (s.recordKey r.id.text) r.encode (s.secondsFor r.state)

namespace Server

variable {now : Int} {x y : Server}

/-- The server without the failures that wait for commands. -/
def mended (x : Server) : Server := { x with faults := [] }

/-- A failure waits for a command. -/
def Fails (x : Server) (name : String) : Prop := ∃ f ∈ x.faults, f.command = name

/-- A failure waits for each of the commands that put an identifier into the index. -/
def FailsIndexing (x : Server) : Prop := ∀ name ∈ ["LPUSH", "LTRIM", "EXPIRE"], x.Fails name

private theorem FailsIndexing.of_faults (hx : x.FailsIndexing) (h : y.faults = x.faults) : y.FailsIndexing := by
  intro name hname
  rw [Fails, h]
  exact hx name hname

/-- A failure that happens changes no data and leaves the failures that wait for other commands. -/
theorem Fails.fault? {name : String} (h : x.Fails name) : ∃ f y, x.fault? name = some (f, y) ∧
    y.database = x.database ∧ ∀ other, other ≠ name → x.Fails other → y.Fails other := by
  obtain ⟨f, hf, hname⟩ := h
  have hfound : (x.faults.find? fun f => f.command == name).isSome := List.find?_isSome.2 ⟨f, hf, beq_iff_eq.2 hname⟩
  obtain ⟨g, hg⟩ := Option.isSome_iff_exists.1 hfound
  have hgname : g.command = name := eq_of_beq (List.find?_some (p := fun f : Fault => f.command == name) hg)
  refine ⟨g, { x with faults := x.faults.erase g }, by rw [Server.fault?, hg]; rfl, rfl, ?_⟩
  rintro other hne ⟨f, hf, rfl⟩
  refine ⟨f, (List.mem_erase_of_ne ?_).2 hf, rfl⟩
  rintro rfl
  exact hne hgname

/-- A write that a failure waits for changes no data. -/
theorem Fails.write {name : String} (h : x.Fails name) (f : Database → Option Database) :
    (x.write name f).2.database = x.database ∧
      ∀ other, other ≠ name → x.Fails other → (x.write name f).2.Fails other := by
  obtain ⟨fault, y, hfault, hy⟩ := h.fault?
  rw [Server.write, hfault]
  exact hy

private theorem writeAll_of_fails {cs : List (String × (Database → Option Database))} (hnames : (cs.map Prod.fst).Nodup)
    (h : ∀ c ∈ cs, x.Fails c.1) : (writeAll cs x).2.database = x.database := by
  induction cs generalizing x with
  | nil => rfl
  | cons c cs ih =>
    obtain ⟨hnotin, hrest⟩ := List.nodup_cons.1 hnames
    obtain ⟨hdatabase, hothers⟩ := (h c List.mem_cons_self).write c.2
    refine Eq.trans (ih hrest fun d hd => ?_) hdatabase
    exact hothers d.1 (fun heq => hnotin (heq ▸ List.mem_map_of_mem hd)) (h d (List.mem_cons_of_mem _ hd))

end Server

namespace Server

variable {now : Int} {x y : Server}

/-- Indexing concerns the key of the index, whatever of it fails. -/
private theorem enlist_get? {key item k : String} {last : Int64} {seconds : Nat} {a : Except Outage Unit}
    (h : answer now (.enlist key item last seconds) x = (a, y)) (hk : k ≠ key) :
    y.database.entries.get? k = x.database.entries.get? k := by
  rw [← show (answer now (.enlist key item last seconds) x).2 = y from congrArg Prod.snd h]
  exact answer_get?_of_not_mem fun hmem => hk (List.mem_singleton.1 hmem)

/-- It concerns no key at all if it fails as a whole. -/
private theorem enlist_of_failsIndexing {key item : String} {last : Int64} {seconds : Nat} {a : Except Outage Unit}
    (h : answer now (.enlist key item last seconds) x = (a, y)) (hx : x.FailsIndexing) : y.database = x.database := by
  rw [← show (answer now (.enlist key item last seconds) x).2 = y from congrArg Prod.snd h]
  refine writeAll_of_fails (by decide : ["LPUSH", "LTRIM", "EXPIRE"].Nodup) fun c hc => ?_
  simp only [List.mem_cons, List.not_mem_nil, or_false] at hc
  rcases hc with rfl | rfl | rfl
  · exact hx "LPUSH" (by decide)
  · exact hx "LTRIM" (by decide)
  · exact hx "EXPIRE" (by decide)

/-- A key that was not set has not changed, and one that was set waited for no failure. -/
private theorem setNew_or {key value : String} {seconds : Nat} {a : Except Outage Bool}
    (h : answer now (.setNew key value seconds) x = (a, y)) :
    a ≠ .ok true ∧ y.database = x.database ∨ a = .ok true ∧ y.faults = x.faults := by
  simp only [answer, setNew] at h
  split at h
  · obtain ⟨rfl, rfl⟩ := Prod.mk.inj h
    exact .inl ⟨by rintro ⟨⟩, fault?_database (s := x.note _) ‹_›⟩
  · split at h
    · obtain ⟨rfl, rfl⟩ := Prod.mk.inj h
      exact .inl ⟨by rintro ⟨⟩, rfl⟩
    · split at h
      · obtain ⟨rfl, rfl⟩ := Prod.mk.inj h
        exact .inl ⟨by rintro ⟨⟩, rfl⟩
      · obtain ⟨rfl, rfl⟩ := Prod.mk.inj h
        exact .inr ⟨rfl, rfl⟩

end Server

/-- A record was kept under a key where there was nothing, and at most the key of the index has changed besides. -/
structure KeptAlone (s : Settings) (now : Instant) (r : JobRecord) (expiry : Int) (x y : Database) : Prop where
  leeway : y.leeway = x.leeway
  lacked : x.entry? now.millis (s.recordKey r.id.text) = none
  expires : expiry? now.millis (s.secondsFor r.state) = some expiry
  record : y.entries.get? (s.recordKey r.id.text) = some ⟨.text r.encode, some expiry⟩
  others : ∀ k, k ≠ s.recordKey r.id.text → k ≠ s.indexKey → y.entries.get? k = x.entries.get? k

section
variable {s : Settings} {now : Instant} {x y : Server} {r : JobRecord}

/-- A creation that failed has done nothing if the record was not kept. Otherwise it has kept the record alone, and the
index is as it was if indexing failed as a whole. -/
private theorem perform_create_failed {a : Except StoreError JobRecord}
    (h : (store s).perform now (.create r) x = (a, y))
    (ha : a.isOk = false) :
    (Server.answer now.millis (s.keepNew r) x).1 ≠ .ok true ∧ y.database = x.database ∨
      (Server.answer now.millis (s.keepNew r) x).1 = .ok true ∧ (∃ cause, a = .error (.unavailable cause)) ∧
        (∃ expiry, KeptAlone s now r expiry x.database y.database) ∧
        (x.FailsIndexing → y.database.entries.get? s.indexKey = x.database.entries.get? s.indexKey) := by
  cases hset : Server.answer now.millis (s.keepNew r) x with
  | mk b z =>
    have hrun : (Exchange.create s r).run (Server.answer now.millis) x = (a, y) := h
    rw [Exchange.create, Exchange.run_send_of_answer hset] at hrun
    rcases Server.setNew_or hset with ⟨hb, hz⟩ | ⟨rfl, hfaults⟩
    · refine .inl ⟨hb, ?_⟩
      rw [← hz]
      rcases b with e | _ | _
      · exact (congrArg (fun p => p.2.database) hrun).symm
      · exact (congrArg (fun p => p.2.database) hrun).symm
      · exact absurd rfl hb
    · obtain ⟨-, hnone, expiry, hexpiry, hz⟩ := (Server.answer_setNew hset).resolve_left fun h => by cases h.1
      dsimp only at hrun
      cases hlist : Server.answer now.millis
          (.enlist s.indexKey r.id.text s.lastPosition (Settings.seconds s.terminalTtl)) z with
      | mk c w =>
        rw [Exchange.run_send_of_answer hlist] at hrun
        cases c with
        | ok _ =>
          obtain ⟨rfl, -⟩ := Prod.mk.inj hrun
          cases ha
        | error e =>
          obtain ⟨rfl, rfl⟩ := Prod.mk.inj hrun
          have hleeway := Server.answer_leeway now.millis
            (.enlist s.indexKey r.id.text s.lastPosition (Settings.seconds s.terminalTtl)) z
          rw [hlist] at hleeway
          refine .inr ⟨rfl, ⟨e, rfl⟩, ⟨expiry, ?_, hnone, hexpiry, ?_, fun k hk hki => ?_⟩, fun hx => ?_⟩
          · rw [hleeway, hz, Database.leeway_put]
          · rw [Server.enlist_get? hlist (s.recordKey_ne_indexKey _), hz, Database.get?_put, if_pos rfl]
          · rw [Server.enlist_get? hlist hki, hz, Database.get?_put_of_ne hk]
          · rw [Server.enlist_of_failsIndexing hlist (hx.of_faults hfaults), hz, Database.get?_put,
              if_neg (s.recordKey_ne_indexKey _).symm]

/-- Nothing is found where there is no entry. -/
private theorem perform_get_of_none (hx : x.faults = []) {id : JobId}
    (h : x.database.entry? now.millis (s.recordKey id.text) = none) :
    ((store s).perform now (.get id) x).1 = .ok none := by
  have htext : x.database.text? now.millis (s.recordKey id.text) = some none := by rw [Database.text?, h]; rfl
  show ((Exchange.get s id).run _ x).1 = _
  rw [Exchange.get, Exchange.run_send_of_answer (Server.answer_get_eq hx _ _), htext]
  rfl

/-- An identifier with an entry under its key is refused to a creation. -/
private theorem perform_create_of_isSome (hx : x.faults = [])
    (h : (x.database.entry? now.millis (s.recordKey r.id.text)).isSome = true)
    (he : (expiry? now.millis (s.secondsFor r.state)).isSome = true) :
    ((store s).perform now (.create r) x).1 = .error (.duplicateId r.id) := by
  obtain ⟨t, ht⟩ := Option.isSome_iff_exists.1 he
  have hset : Server.answer now.millis (s.keepNew r) x = (.ok false, x.note ["SET", s.recordKey r.id.text, r.encode,
      "NX", "EX", Decimal.text (s.secondsFor r.state)]) := by
    rw [Server.answer, Server.setNew, Server.fault?_of_faultless (s := x.note _) hx, Database.setFor?, ht]
    exact if_pos h
  show ((Exchange.create s r).run _ x).1 = _
  rw [Exchange.create, Exchange.run_send_of_answer hset]
  rfl

end

private theorem Database.serves_of_le {t u : Int} {e : Entry} {d : Database} (htu : t ≤ u) (h : d.serves u e = true) :
    d.serves t e = true := by
  rcases e with ⟨c, _ | expiry⟩
  · rfl
  · exact decide_eq_true (Int.lt_of_le_of_lt (Int.sub_le_sub_right htu _) (of_decide_eq_true h))

/-- What is gone stays so. -/
private theorem Database.entry?_eq_none_of_le {t u : Int} {key : String} {d : Database} (htu : t ≤ u)
    (h : d.entry? t key = none) : d.entry? u key = none := by
  rw [Option.eq_none_iff_forall_not_mem] at h ⊢
  intro e he
  obtain ⟨hget, hlive⟩ := entry?_eq_some.1 he
  exact h e (entry?_eq_some.2 ⟨hget, serves_of_le htu hlive⟩)

namespace KeptAlone

variable {s : Settings} {now : Instant} {r : JobRecord} {expiry t : Int} {x y : Database}

private theorem entry?_of_lt (h : KeptAlone s now r expiry x y) (ht : t < expiry) :
    y.entry? t (s.recordKey r.id.text) = some ⟨.text r.encode, some expiry⟩ :=
  Database.entry?_eq_some.2 ⟨h.record, y.serves_of_lt _ ht⟩

private theorem entry?_of_le (h : KeptAlone s now r expiry x y) (ht : expiry + x.leeway.milliseconds ≤ t) :
    y.entry? t (s.recordKey r.id.text) = none := by
  rw [Database.entry?, h.record]
  refine if_neg fun hlive => absurd (of_decide_eq_true hlive) (Int.not_lt.2 ?_)
  rw [h.leeway]
  omega

private theorem now_lt (h : KeptAlone s now r expiry x y) : now.millis < expiry :=
  lt_of_expiry? (Settings.seconds_pos _) h.expires

/-- Once the record has gone, everything is as it was. -/
private theorem agreeAt (h : KeptAlone s now r expiry x y)
    (hindex : y.entries.get? s.indexKey = x.entries.get? s.indexKey)
    (ht : expiry + x.leeway.milliseconds ≤ t) : Database.AgreeAt t y x := by
  refine ⟨h.leeway, fun k => ?_⟩
  by_cases hk : k = s.recordKey r.id.text
  · have hnow : now.millis ≤ t := by
      have hlt := h.now_lt
      omega
    rw [hk, h.entry?_of_le ht, Database.entry?_eq_none_of_le hnow h.lacked]
  · by_cases hki : k = s.indexKey
    · rw [hki, Database.entry?_congr h.leeway hindex]
    · rw [Database.entry?_congr h.leeway (h.others k hk hki)]

/-- Other records are under the keys where they were. -/
theorem entry?_recordKey (h : KeptAlone s now r expiry x y) {id : String} (hid : id ≠ r.id.text) (t : Int) :
    y.entry? t (s.recordKey id) = x.entry? t (s.recordKey id) :=
  Database.entry?_congr h.leeway (h.others _ (fun hk => hid (s.recordKey_injective hk)) (s.recordKey_ne_indexKey _)) t

end KeptAlone

/-- What is left on a server by a creation that kept the record and failed then. -/
structure LeavesRecord (s : Settings) (now : Instant) (r : JobRecord) (expiry : Int) (x y : Server) : Prop where
  /-- A lookup that found nothing finds the record as long as it lives. -/
  found : ∀ t : Instant, now.millis ≤ t.millis → t.millis < expiry →
    ((store s).perform t (.get r.id) x.mended).1 = .ok none ∧
      ((store s).perform t (.get r.id) y.mended).1 = (Exchange.decode r.encode).map some
  /-- Nor can another record of the same identifier be created then. -/
  refused : ∀ (t : Instant) (r' : JobRecord), t.millis < expiry → r'.id = r.id →
    (expiry? t.millis (s.secondsFor r'.state)).isSome = true →
    ((store s).perform t (.create r') y.mended).1 = .error (.duplicateId r.id)
  /-- Lookups of other records answer as before. -/
  others : ∀ (t : Instant) (id : JobId), id ≠ r.id →
    ((store s).perform t (.get id) y.mended).1 = ((store s).perform t (.get id) x.mended).1
  /-- If indexing failed as a whole, listings and searches answer as before, unless the index names the identifier
  from an earlier record. -/
  unlisted : x.FailsIndexing → ∀ t : Instant,
    (∀ ids, x.database.list? t.millis s.indexKey = some ids → r.id.text ∉ ids) →
    (∀ q, ((store s).perform t (.list q) y.mended).1 = ((store s).perform t (.list q) x.mended).1) ∧
      ∀ u, ((store s).perform t (.findExpired u) y.mended).1 = ((store s).perform t (.findExpired u) x.mended).1
  /-- And once the record has gone, everything is answered as before. -/
  gone : x.FailsIndexing → ∀ t : Instant, expiry + x.database.leeway.milliseconds ≤ t.millis → ∀ c,
    ((store s).perform t c y.mended).1 = ((store s).perform t c x.mended).1

section
variable {s : Settings} {now : Instant} {r : JobRecord} {expiry : Int} {x y : Server}

private theorem KeptAlone.leavesRecord (h : KeptAlone s now r expiry x.database y.database)
    (hindex : x.FailsIndexing → y.database.entries.get? s.indexKey = x.database.entries.get? s.indexKey) :
    LeavesRecord s now r expiry x y := by
  constructor
  case found =>
    intro t hnow ht
    have htext : y.database.text? t.millis (s.recordKey r.id.text) = some (some r.encode) :=
      Database.text?_eq_some.2 ⟨_, h.entry?_of_lt ht⟩
    refine ⟨perform_get_of_none rfl (Database.entry?_eq_none_of_le hnow h.lacked), ?_⟩
    rw [perform_get_of_text? (x := y.mended) rfl htext]
  case refused =>
    intro t r' ht hid hexpires
    rw [← hid]
    refine perform_create_of_isSome rfl ?_ hexpires
    rw [hid]
    exact Option.isSome_of_eq_some (h.entry?_of_lt ht)
  case others =>
    intro t id hid
    exact perform_get_congr rfl rfl (h.entry?_recordKey (fun htext => hid (JobId.text_injective htext)) t.millis)
  case unlisted =>
    intro hx t hnot
    have hlist : y.database.list? t.millis s.indexKey = x.database.list? t.millis s.indexKey := by
      rw [Database.list?, Database.list?, Database.entry?_congr h.leeway (hindex hx)]
    refine perform_indexed_congr rfl rfl hlist fun ids hids => List.map_congr_left fun key hkey => ?_
    obtain ⟨id, hid, rfl⟩ := List.mem_map.1 hkey
    have hne : id ≠ r.id.text := fun heq => hnot ids (hlist.symm.trans hids) (heq ▸ hid)
    show (y.database.text? t.millis (s.recordKey id)).join = (x.database.text? t.millis (s.recordKey id)).join
    rw [Database.text?, Database.text?, h.entry?_recordKey hne]
  case gone =>
    intro hx t ht c
    have halike : Server.Alike t.millis y.mended x.mended := ⟨rfl, rfl, h.agreeAt (hindex hx) ht⟩
    exact halike.perform s c

/-- A creation that fails before its record is kept leaves nothing: with a connection that works again, every call is
answered as if the creation had not been asked. One that fails later is answered as an outage and leaves the record. -/
theorem failed_creation_leaves (h : ((store s).perform now (.create r) x).1.isOk = false) :
    ((Server.answer now.millis (s.keepNew r) x).1 ≠ .ok true → ∀ (t : Instant) (c : StoreCall),
        ((store s).perform t c ((store s).perform now (.create r) x).2.mended).1 =
          ((store s).perform t c x.mended).1) ∧
      ((Server.answer now.millis (s.keepNew r) x).1 = .ok true →
        (∃ cause, ((store s).perform now (.create r) x).1 = .error (.unavailable cause)) ∧
        ∃ expiry, expiry? now.millis (s.secondsFor r.state) = some expiry ∧
          LeavesRecord s now r expiry x ((store s).perform now (.create r) x).2) := by
  rcases perform_create_failed rfl h with ⟨hne, hsame⟩ | ⟨heq, houtage, ⟨expiry, hkept⟩, hindex⟩
  · refine ⟨fun _ t c => ?_, fun heq => absurd heq hne⟩
    have halike : Server.Alike t.millis ((store s).perform now (.create r) x).2.mended x.mended :=
      ⟨rfl, rfl, congrArg Database.leeway hsame, fun key => congrArg (Database.entry? t.millis key) hsame⟩
    exact halike.perform s c
  · exact ⟨fun hne => absurd heq hne, fun _ => ⟨houtage, expiry, hkept.expires, hkept.leavesRecord hindex⟩⟩

end

/-- A server that keeps a new record and then fails to index it. -/
def unindexingServer : Server where
  database := .empty
  faults := ["LPUSH", "LTRIM", "EXPIRE"].map fun name => { command := name, message := "connection lost" }

def lostJob : JobRecord := .accepted ⟨1⟩ { name := "lost", timeoutSeconds := 60 } ⟨"a"⟩ .epoch

/-- The server after the creation of a job that it did not index. -/
def lostServer : Server := ((store {}).perform .epoch (.create lostJob) unindexingServer).2

private theorem unindexingServer_fails : unindexingServer.FailsIndexing := by
  show ∀ name ∈ ["LPUSH", "LTRIM", "EXPIRE"], ∃ f ∈ unindexingServer.faults, f.command = name
  decide

/-- A server on which not even a record can be kept. -/
def refusingServer : Server where
  database := .empty
  faults := [{ command := "SET", message := "connection lost" }]

/-- A job that could not be indexed is left for two days, and nothing is left of one that could not be kept. -/
theorem lostJob_left :
    (((store {}).perform .epoch (.create lostJob) unindexingServer).1.isOk = false ∧
      LeavesRecord {} .epoch lostJob 172800000 unindexingServer lostServer) ∧
    ((store {}).perform .epoch (.create lostJob) refusingServer).1.isOk = false ∧
      ∀ (t : Instant) (c : StoreCall),
        ((store {}).perform t c ((store {}).perform .epoch (.create lostJob) refusingServer).2.mended).1 =
          ((store {}).perform t c refusingServer.mended).1 := by
  have hfails : ((store {}).perform .epoch (.create lostJob) unindexingServer).1.isOk = false := by decide +kernel
  have hkept : (Server.answer Instant.epoch.millis (Settings.keepNew {} lostJob) unindexingServer).1 = .ok true := by
    rfl
  obtain ⟨-, expiry, hexpiry, hleft⟩ := (failed_creation_leaves hfails).2 hkept
  obtain rfl : 172800000 = expiry := Option.some.inj hexpiry
  have hrefused : ((store {}).perform .epoch (.create lostJob) refusingServer).1.isOk = false := by decide +kernel
  have hunkept : (Server.answer Instant.epoch.millis (Settings.keepNew {} lostJob) refusingServer).1 ≠ .ok true := by
    nofun
  exact ⟨⟨hfails, hleft⟩, hrefused, (failed_creation_leaves hrefused).1 hunkept⟩

/-- The creation is answered with an error, but the job is found from then on, and the same creation, that would have
succeeded, is refused. -/
theorem lostJob_found : unindexingServer.FailsIndexing ∧
    ((store {}).perform .epoch (.create lostJob) unindexingServer).1.isOk = false ∧
    ((store {}).perform .epoch (.get lostJob.id) unindexingServer.mended).1 = .ok none ∧
    ((store {}).perform .epoch (.get lostJob.id) lostServer.mended).1 = .ok (some lostJob) ∧
    ((store {}).perform .epoch (.create lostJob) unindexingServer.mended).1.isOk = true ∧
    ((store {}).perform .epoch (.create lostJob) lostServer.mended).1 = .error (.duplicateId lostJob.id) := by
  have hfails : ((store {}).perform .epoch (.create lostJob) unindexingServer).1.isOk = false := by decide +kernel
  have hkept : KeptAlone {} .epoch lostJob 172800000 unindexingServer.database lostServer.database := by
    rcases perform_create_failed rfl hfails with ⟨hne, -⟩ | ⟨-, -, ⟨expiry, h⟩, -⟩
    · exact absurd rfl hne
    · obtain rfl : 172800000 = expiry := Option.some.inj h.expires
      exact h
  have hread : Exchange.decode lostJob.encode = .ok lostJob := decode_encode (JobRecord.isReadable_of_none rfl)
  have hlive := hkept.entry?_of_lt (t := Instant.epoch.millis) (by decide)
  refine ⟨unindexingServer_fails, hfails, perform_get_of_none rfl rfl, ?_, by decide +kernel, ?_⟩
  · rw [perform_get_of_text? (x := lostServer.mended) rfl (Database.text?_eq_some.2 ⟨_, hlive⟩), hread]
    rfl
  · exact perform_create_of_isSome rfl (Option.isSome_of_eq_some hlive) rfl

end JobLedger.Redis
