import JobLedger.Proofs.KeyedMemory
import JobLedger.Proofs.QueryOrder
import JobLedger.Proofs.RecordMarks
import JobLedger.Proofs.RedisCalls

/-!
# A memory mirrored on the server

A database mirrors a memory if it holds the text of each record and the identifiers of the newest ones, the
newest first. As long as no key expires and no command fails, a call on both leaves them mirrored and gets the
same answer from both, a listing or a search one that is restricted to the identifiers in the index.
-/
namespace JobLedger

namespace Memory

section
variable {m : Memory} {r old : JobRecord} {now : Instant}

private theorem create_of_known (h : (m.records.get? r.id).isSome) : m.create r = (.error (.duplicateId r.id), m) :=
  if_pos h

private theorem create_of_unknown (h : m.records.get? r.id = none) : m.create r = (.ok r, ⟨m.records.insert r.id r⟩) :=
  if_neg (by simp [Table.contains, h])

private theorem update_of_unknown (h : m.records.get? r.id = none) : m.update now r = (.error (.notFound r.id), m) := by
  rw [update, h]

private theorem update_of_terminal (h : m.records.get? r.id = some old) (ho : old.isTerminal = true) :
    m.update now r = (.error (.alreadyTerminal r.id old.state), m) := by
  rw [update, h]
  exact if_pos ho

private theorem update_of_open (h : m.records.get? r.id = some old) (ho : old.isTerminal = false) :
    m.update now r =
      (.ok { r with lastUpdatedAt := now }, ⟨m.records.insert r.id { r with lastUpdatedAt := now }⟩) := by
  rw [update, h]
  exact if_neg (by simp [ho])

end

/-- The identifier of the record that a call creates in a memory, if it creates one. -/
def newcomer (now : Instant) (c : StoreCall) (m : Memory) : List JobId :=
  match c, (store.perform now c m).1 with
  | .create r, .ok _ => [r.id]
  | _, _ => []

section
variable {m : Memory} {r : JobRecord} {now : Instant}

private theorem newcomer_of_known (h : (m.records.get? r.id).isSome) : m.newcomer now (.create r) = [] := by
  simp only [newcomer, store, create_of_known h]

private theorem newcomer_of_unknown (h : m.records.get? r.id = none) : m.newcomer now (.create r) = [r.id] := by
  simp only [newcomer, store, create_of_unknown h]

end

/-- The memory with the records of some jobs only. -/
def restrict (ids : List JobId) (m : Memory) : Memory :=
  ⟨⟨m.records.entries.filter fun e => e.1 ∈ ids⟩⟩

private theorem mem_values_restrict {m : Memory} (hm : m.Keyed) {ids : List JobId} {r : JobRecord} :
    r ∈ (m.restrict ids).records.values ↔ ∃ id ∈ ids, m.records.get? id = some r := by
  simp only [restrict, Table.values, List.mem_map, List.mem_filter, decide_eq_true_eq]
  constructor
  · rintro ⟨e, ⟨he, hid⟩, rfl⟩
    exact ⟨e.1, hid, Table.find?_of_mem hm.distinct he⟩
  · rintro ⟨id, hid, hr⟩
    exact ⟨(id, r), ⟨Table.mem_of_find? hr, hid⟩, rfl⟩

private theorem nodup_of_nodup_map_id {rs : List JobRecord} (h : (rs.map JobRecord.id).Nodup) : rs.Nodup := by
  rw [List.Nodup, List.pairwise_map] at h
  exact h.imp fun hne heq => hne (congrArg JobRecord.id heq)

/-- The records of some jobs, looked up one by one, are those of the memory restricted to the jobs. -/
private theorem perm_values_restrict {m : Memory} (hm : m.Keyed) {ids : List JobId} (hids : ids.Nodup) :
    (ids.filterMap m.records.get?).Perm (m.restrict ids).records.values := by
  have hleft : ∀ ids : List JobId, (ids.filterMap m.records.get?).map JobRecord.id =
      ids.filter fun id => (m.records.get? id).isSome := by
    intro ids
    induction ids with
    | nil => rfl
    | cons id ids ih =>
      cases h : m.records.get? id with
      | none => rw [List.filterMap_cons_none h, List.filter_cons_of_neg (by simp [h]), ih]
      | some r => rw [List.filterMap_cons_some h, List.filter_cons_of_pos (by simp [h]), List.map_cons, ih, hm.id_eq h]
  have hright : ((m.restrict ids).records.values.map JobRecord.id).Nodup := by
    have hkeys : (m.restrict ids).records.values.map JobRecord.id =
        (m.records.entries.filter fun e => e.1 ∈ ids).map Prod.fst := by
      rw [Table.values, List.map_map]
      exact List.map_congr_left fun e he => hm.own e (List.mem_filter.1 he).1
    rw [hkeys]
    exact hm.distinct.sublist (List.filter_sublist.map Prod.fst)
  rw [List.perm_ext_iff_of_nodup (nodup_of_nodup_map_id (hleft ids ▸ hids.filter _)) (nodup_of_nodup_map_id hright)]
  intro r
  rw [mem_values_restrict hm, List.mem_filterMap]

end Memory

/-- A call that, at a time, puts no record but one that comes back from its text into the store. -/
def StoreCall.IsRestorable (now : Instant) : StoreCall → Prop
  | .create r => r.IsRestorable
  | .update r => (r.stamped now).IsRestorable
  | _ => True

/-- An answer to a call is that of a memory, or of its records of some jobs if it is a listing or, up to order,
a search. -/
def StoreCall.Follows (m : Memory) (visible : List JobId) (now : Instant) : (c : StoreCall) → c.Answer → Prop
  | .list q, a => a = (Memory.store.perform now (.list q) (m.restrict visible)).1
  | .findExpired t, a => ∃ rs ts, a = .ok rs ∧
      (Memory.store.perform now (.findExpired t) (m.restrict visible)).1 = .ok ts ∧ rs.Perm ts
  | c, a => a = (Memory.store.perform now c m).1

namespace Redis

/-- Every key with an entry is there at a time. -/
def Database.ServesAll (t : Int) (d : Database) : Prop := ∀ e ∈ d.entries.entries, d.serves t e.2 = true

instance (t : Int) (d : Database) : Decidable (d.ServesAll t) := inferInstanceAs (Decidable (∀ e ∈ _, _))

/-- Neither time nor a failure comes between a call and its effect: every key is there, and none of the commands of the
call fails. -/
structure Steady (s : Settings) (now : Instant) (c : StoreCall) (x : Server) : Prop where
  servesAll : x.database.ServesAll now.millis
  noneFails : Exchange.NoneFails now.millis (Exchange.ofCall s now c) x

instance (s : Settings) (now : Instant) (c : StoreCall) (x : Server) : Decidable (Steady s now c x) :=
  decidable_of_iff (x.database.ServesAll now.millis ∧ Exchange.NoneFails now.millis (Exchange.ofCall s now c) x)
    ⟨fun h => ⟨h.1, h.2⟩, fun h => ⟨h.1, h.2⟩⟩

/-- What a database holds of a memory, of which the identifiers are given, the newest first. -/
structure Mirrors (s : Settings) (m : Memory) (ids : List JobId) (d : Database) : Prop where
  keyed : m.Keyed
  isRestorable : ∀ id r, m.records.get? id = some r → r.IsRestorable
  nodup : ids.Nodup
  mem_ids : ∀ id, id ∈ ids ↔ (m.records.get? id).isSome
  texts : ∀ id : JobId, (d.entries.get? (s.recordKey id.text)).map Entry.content =
    (m.records.get? id).map fun r => .text r.encode
  index : ((d.entries.get? s.indexKey).map Entry.content).getD (.list []) = .list ((ids.take s.capacity).map JobId.text)

variable {s : Settings} {m : Memory} {ids : List JobId} {now : Instant} {x : Server}

theorem empty_mirrors (s : Settings) {d : Database} (hd : d.entries = .empty) : Mirrors s .empty [] d where
  keyed := Memory.empty_keyed
  isRestorable := fun id r h => by simp [Memory.empty] at h
  nodup := List.nodup_nil
  mem_ids := fun _ => by simp [Memory.empty]
  texts := fun _ => by simp [hd, Memory.empty]
  index := by simp [hd]

/-- Keys that are all there are looked up without regard to time. -/
theorem Database.ServesAll.lookup {d : Database} {t : Int} (h : d.ServesAll t) (key : String) :
    d.entry? t key = d.entries.get? key := by
  cases he : d.entries.get? key with
  | none => rw [Database.entry?, he]; rfl
  | some e => rw [Database.entry?, he, Option.filter_some, if_pos (h (key, e) (Table.mem_of_find? he))]

namespace Mirrors

variable {d : Database} {t : Int}

theorem entry?_recordKey (h : Mirrors s m ids d) (hl : d.ServesAll t) (id : JobId) :
    (d.entry? t (s.recordKey id.text)).map Entry.content = (m.records.get? id).map fun r => .text r.encode := by
  rw [hl.lookup, h.texts]

private theorem text?_recordKey (h : Mirrors s m ids d) (hl : d.ServesAll t) (id : JobId) :
    d.text? t (s.recordKey id.text) = some ((m.records.get? id).map JobRecord.encode) := by
  rw [Database.text?, h.entry?_recordKey hl]
  cases m.records.get? id <;> rfl

private theorem list?_indexKey (h : Mirrors s m ids d) (hl : d.ServesAll t) :
    d.list? t s.indexKey = some ((ids.take s.capacity).map JobId.text) := by
  have hindex := h.index
  rw [Database.list?, hl.lookup]
  cases he : (d.entries.get? s.indexKey).map Entry.content with
  | none =>
    rw [he] at hindex
    exact congrArg some (Content.list.inj hindex)
  | some c =>
    rw [he] at hindex
    obtain rfl : c = _ := hindex
    rfl

theorem decode_encode {r : JobRecord} (h : r.IsRestorable) : Exchange.decode r.encode = .ok r := by
  rw [Exchange.decode, h.decode?_encode]

/-- The records that are read for the index are those of the memory. -/
private theorem read_index (h : Mirrors s m ids d) (hl : d.ServesAll t) :
    ((d.texts t (((ids.take s.capacity).map JobId.text).map s.recordKey)).filterMap fun v => v).mapM Exchange.decode =
      .ok ((ids.take s.capacity).filterMap m.records.get?) := by
  have htexts : d.texts t (((ids.take s.capacity).map JobId.text).map s.recordKey) =
      (ids.take s.capacity).map fun id => (m.records.get? id).map JobRecord.encode := by
    rw [Database.texts, List.map_map, List.map_map]
    exact List.map_congr_left fun id _ => by simp [h.text?_recordKey hl id]
  rw [htexts]
  induction ids.take s.capacity with
  | nil => rfl
  | cons id visible ih =>
    cases hr : m.records.get? id with
    | none =>
      rw [List.map_cons, hr, Option.map_none, List.filterMap_cons_none rfl, List.filterMap_cons_none hr, ih]
    | some r =>
      rw [List.map_cons, hr, Option.map_some, List.filterMap_cons_some (f := fun v => v) rfl,
        List.filterMap_cons_some hr, List.mapM_cons, decode_encode (h.isRestorable id r hr), ih]
      rfl

theorem congr_database {d' : Database} (h : Mirrors s m ids d) (hd : d' = d) : Mirrors s m ids d' := hd ▸ h

end Mirrors

variable {y : Server}

namespace Mirrors

theorem perform_get (h : Mirrors s m ids x.database)
    (hl : x.database.ServesAll now.millis) {id : JobId}
    {a : Except StoreError (Option JobRecord)} (hp : (store s).perform now (.get id) x = (a, y)) (ha : Answered a) :
    a = .ok (m.records.get? id) ∧ y.database = x.database := by
  obtain ⟨hy, ⟨rfl, hnone⟩ | ⟨value, hsome, rfl⟩⟩ := Redis.perform_get hp ha
  · rw [h.text?_recordKey hl, Option.some.injEq, Option.map_eq_none_iff] at hnone
    exact ⟨by rw [hnone], hy⟩
  · rw [h.text?_recordKey hl, Option.some.injEq, Option.map_eq_some_iff] at hsome
    obtain ⟨r, hr, rfl⟩ := hsome
    exact ⟨by rw [decode_encode (h.isRestorable id r hr), hr]; rfl, hy⟩

/-- The records in the index, in the order of the index. -/
private theorem perm_visible (h : Mirrors s m ids d) :
    ((ids.take s.capacity).filterMap m.records.get?).Perm (m.restrict (ids.take s.capacity)).records.values :=
  Memory.perm_values_restrict h.keyed (h.nodup.sublist (List.take_sublist _ _))

theorem perform_list (h : Mirrors s m ids x.database)
    (hl : x.database.ServesAll now.millis) {q : ListQuery}
    {a : Except StoreError (List JobRecord)} (hp : (store s).perform now (.list q) x = (a, y)) (ha : Answered a) :
    a = .ok (q.select (m.restrict (ids.take s.capacity)).records.values) ∧ y.database = x.database := by
  obtain ⟨hy, texts, htexts, rfl⟩ := Redis.perform_list hp ha
  rw [h.list?_indexKey hl, Option.some.injEq] at htexts
  rw [← htexts, h.read_index hl]
  refine ⟨congrArg Except.ok (q.select_eq_of_perm h.perm_visible ?_), hy⟩
  intro r hr r' hr' heq
  obtain ⟨id, -, hid⟩ := List.mem_filterMap.1 hr
  obtain ⟨id', -, hid'⟩ := List.mem_filterMap.1 hr'
  rw [h.keyed.id_eq hid, h.keyed.id_eq hid'] at heq
  rw [heq, hid'] at hid
  exact (Option.some.inj hid).symm

theorem perform_findExpired (h : Mirrors s m ids x.database)
    (hl : x.database.ServesAll now.millis) {t : Instant}
    {a : Except StoreError (List JobRecord)} (hp : (store s).perform now (.findExpired t) x = (a, y))
    (ha : Answered a) :
    (∃ rs, a = .ok rs ∧
        rs.Perm ((m.restrict (ids.take s.capacity)).records.values.filter fun r => r.isExpired t)) ∧
      y.database = x.database := by
  obtain ⟨hy, texts, htexts, rfl⟩ := Redis.perform_findExpired hp ha
  rw [h.list?_indexKey hl, Option.some.injEq] at htexts
  rw [← htexts, h.read_index hl]
  exact ⟨⟨_, rfl, h.perm_visible.filter _⟩, hy⟩

private theorem isSome_recordKey (h : Mirrors s m ids d) (hl : d.ServesAll t) (id : JobId) :
    (d.entry? t (s.recordKey id.text)).isSome = (m.records.get? id).isSome := by
  have hmap := congrArg Option.isSome (h.entry?_recordKey hl id)
  simpa using hmap

private theorem isRestorable_insert (h : Mirrors s m ids d) {r : JobRecord} (hr : r.IsRestorable) (id : JobId)
    (r' : JobRecord)
    (h' : (m.records.insert r.id r).get? id = some r') : r'.IsRestorable := by
  rw [Table.get?_insert] at h'
  split at h'
  · obtain rfl := Option.some.inj h'
    exact hr
  · exact h.isRestorable id r' h'

/-- A new record on both sides. -/
private theorem insert_new (h : Mirrors s m ids d) {r : JobRecord} (hr : r.IsRestorable)
    (hnew : m.records.get? r.id = none)
    {d' : Database} {t u : Option Int} (hd : ∀ k, d'.entries.get? k =
      if k = s.indexKey then
        some ⟨.list ((r.id.text :: (ids.take s.capacity).map JobId.text).take s.capacity), u⟩
      else if k = s.recordKey r.id.text then some ⟨.text r.encode, t⟩ else d.entries.get? k) :
    Mirrors s ⟨m.records.insert r.id r⟩ (r.id :: ids) d' where
  keyed := h.keyed.insert r
  isRestorable := h.isRestorable_insert hr
  nodup := by
    refine List.nodup_cons.2 ⟨?_, h.nodup⟩
    rw [h.mem_ids, hnew]
    decide
  mem_ids id := by
    rw [List.mem_cons, h.mem_ids, Table.get?_insert]
    split <;> simp_all
  texts id := by
    rw [hd, if_neg (s.recordKey_ne_indexKey _), Table.get?_insert]
    by_cases heq : id = r.id
    · rw [if_pos heq, if_pos (by rw [heq])]
      rfl
    · rw [if_neg heq, if_neg fun hk => heq (s.recordKey_text_injective hk), h.texts]
  index := by
    rw [hd, if_pos rfl]
    obtain ⟨n, hn⟩ := Nat.exists_eq_add_of_lt s.capacity_pos
    simp [hn, List.take_take]

/-- A record in the place of another of its job on both sides. -/
private theorem insert_known (h : Mirrors s m ids d) {r : JobRecord} (hr : r.IsRestorable)
    (hknown : (m.records.get? r.id).isSome) (t : Option Int) :
    Mirrors s ⟨m.records.insert r.id r⟩ ids (d.put (s.recordKey r.id.text) ⟨.text r.encode, t⟩) where
  keyed := h.keyed.insert r
  isRestorable := h.isRestorable_insert hr
  nodup := h.nodup
  mem_ids id := by
    rw [h.mem_ids, Table.get?_insert]
    split <;> simp_all
  texts id := by
    rw [Database.get?_put, Table.get?_insert]
    by_cases heq : id = r.id
    · rw [if_pos heq, if_pos (by rw [heq])]
      rfl
    · rw [if_neg heq, if_neg fun hk => heq (s.recordKey_text_injective hk), h.texts]
  index := by
    rw [Database.get?_put_of_ne (s.recordKey_ne_indexKey _).symm]
    exact h.index

theorem perform_create (hcap : s.indexCap.toNat < Nat.pow 2 63) (h : Mirrors s m ids x.database)
    (hl : x.database.ServesAll now.millis) {r : JobRecord} (hr : r.IsRestorable)
    {a : Except StoreError JobRecord} (hp : (store s).perform now (.create r) x = (a, y)) (ha : Answered a) :
    a = (m.create r).1 ∧ Mirrors s (m.create r).2 (m.newcomer now (.create r) ++ ids) y.database := by
  rcases Redis.perform_create hcap hp ha with ⟨rfl, hsome, hy⟩ | ⟨rfl, hnone, t, u, texts, -, -, htexts, hy⟩
  · rw [h.isSome_recordKey hl] at hsome
    rw [Memory.newcomer_of_known hsome, Memory.create_of_known hsome]
    exact ⟨rfl, h.congr_database hy⟩
  · have hnew := h.isSome_recordKey hl r.id
    rw [hnone, Option.isSome_none, eq_comm, Option.isSome_eq_false_iff, Option.isNone_iff_eq_none] at hnew
    rw [h.list?_indexKey hl, Option.some.injEq] at htexts
    rw [← htexts] at hy
    rw [Memory.newcomer_of_unknown hnew, Memory.create_of_unknown hnew]
    exact ⟨rfl, h.insert_new hr hnew hy⟩

theorem perform_update (h : Mirrors s m ids x.database)
    (hl : x.database.ServesAll now.millis) {r : JobRecord} (hr : (r.stamped now).IsRestorable)
    {a : Except StoreError JobRecord} (hp : (store s).perform now (.update r) x = (a, y)) (ha : Answered a) :
    a = (m.update now r).1 ∧ Mirrors s (m.update now r).2 ids y.database := by
  rcases Redis.perform_update hp ha with ⟨rfl, hnone, hy⟩ | ⟨current, state, hcurrent, hstate, hword⟩
  · rw [h.text?_recordKey hl, Option.some.injEq, Option.map_eq_none_iff] at hnone
    rw [Memory.update_of_unknown hnone]
    exact ⟨rfl, h.congr_database hy⟩
  · rw [h.text?_recordKey hl, Option.some.injEq, Option.map_eq_some_iff] at hcurrent
    obtain ⟨stored, hstored, rfl⟩ := hcurrent
    rw [(h.isRestorable _ _ hstored).storedState?_encode x.database] at hstate
    obtain rfl := Option.some.inj hstate
    rw [JobState.isOpenState_name] at hword
    cases hterm : stored.isTerminal with
    | true =>
      rw [Memory.update_of_terminal hstored hterm]
      rw [show stored.state.isTerminal = true from hterm] at hword
      rcases hword with ⟨-, rfl, hy⟩ | ⟨hopen, -⟩
      · exact ⟨replaced_name _ _, h.congr_database hy⟩
      · cases hopen
    | false =>
      rw [Memory.update_of_open hstored hterm]
      rw [show stored.state.isTerminal = false from hterm] at hword
      rcases hword with ⟨hopen, -⟩ | ⟨-, rfl, t, -, hy⟩
      · cases hopen
      · exact ⟨rfl, (h.insert_known hr (by rw [JobRecord.stamped, hstored]; rfl) _).congr_database hy⟩

end Mirrors

/-- One call on both sides. -/
theorem Mirrors.perform (hcap : s.indexCap.toNat < Nat.pow 2 63) (h : Mirrors s m ids x.database) {c : StoreCall}
    (hc : c.IsRestorable now) (hs : Steady s now c x) :
    c.Follows m (ids.take s.capacity) now ((store s).perform now c x).1 ∧
      Mirrors s (Memory.store.perform now c m).2 (m.newcomer now c ++ ids) ((store s).perform now c x).2.database := by
  have hl := hs.servesAll
  have ha := answered_of_noneFails hs.noneFails
  cases hp : (store s).perform now c x with
  | mk a y =>
    rw [hp] at ha
    cases c with
    | create r =>
      obtain ⟨rfl, hy⟩ := h.perform_create hcap hl hc hp ha
      exact ⟨rfl, hy⟩
    | get id =>
      obtain ⟨rfl, hy⟩ := h.perform_get hl hp ha
      exact ⟨rfl, h.congr_database hy⟩
    | update r =>
      obtain ⟨rfl, hy⟩ := h.perform_update hl hc hp ha
      exact ⟨rfl, hy⟩
    | findExpired t =>
      obtain ⟨⟨rs, rfl, hrs⟩, hy⟩ := h.perform_findExpired hl hp ha
      exact ⟨⟨rs, _, rfl, rfl, hrs⟩, h.congr_database hy⟩
    | list q =>
      obtain ⟨rfl, hy⟩ := h.perform_list hl hp ha
      exact ⟨rfl, h.congr_database hy⟩

end Redis

end JobLedger
