import JobLedger.Proofs.Commands
import JobLedger.Proofs.RecordText
import JobLedger.Proofs.RedisKeys

/-!
# Calls on the key-value server

What a call of the store answers and what it does to the data, given that none of its commands failed. A failed
command is answered to the caller as an outage.
-/
namespace JobLedger

/-- The state after calls made one after another, each at its time. -/
def StatusStore.after {σ : Type} (S : StatusStore σ) (x : σ) (calls : List (Instant × StoreCall)) : σ :=
  calls.foldl (fun x c => (S.perform c.1 c.2 x).2) x

theorem StatusStore.after_cons {σ : Type} (S : StatusStore σ) (x : σ) (now : Instant) (c : StoreCall)
    (calls : List (Instant × StoreCall)) : S.after x ((now, c) :: calls) = S.after (S.perform now c x).2 calls := rfl

theorem StatusStore.after_append {σ : Type} (S : StatusStore σ) (x : σ) (calls more : List (Instant × StoreCall)) :
    S.after x (calls ++ more) = S.after (S.after x calls) more := List.foldl_append

namespace Redis

/-- The answer tells of no command that failed. -/
def Answered {α : Type} (a : Except StoreError α) : Prop := ∀ cause, a ≠ .error (.unavailable cause)

section
variable {α : Type} {s : Settings} {now : Instant} {x y : Server}

/-- A command whose failure is answered as an outage succeeded if there was no outage. -/
theorem Exchange.run_send {c : Command} {f : c.Answer → Exchange (Except StoreError α)} {t : Int}
    {a : Except StoreError α} (hf : ∀ e, f (.error e) = .done (.error (.unavailable e)))
    (h : (send c >>= f).run (Server.answer t) x = (a, y)) (ha : Answered a) :
    ∃ b z, Server.answer t c x = (.ok b, z) ∧ (f (.ok b)).run (Server.answer t) z = (a, y) := by
  have h : (f (Server.answer t c x).1).run (Server.answer t) (Server.answer t c x).2 = (a, y) := h
  cases hb : Server.answer t c x with
  | mk b z =>
    rw [hb] at h
    cases b with
    | error e =>
      rw [hf] at h
      obtain ⟨rfl, -⟩ := Prod.mk.inj h
      exact absurd rfl (ha e)
    | ok b => exact ⟨b, z, rfl, h⟩

theorem Exchange.run_send_of_answer {c : Command} {f : c.Answer → Exchange α} {t : Int} {b : c.Answer}
    (h : Server.answer t c x = (b, y)) : (send c >>= f).run (Server.answer t) x = (f b).run (Server.answer t) y := by
  show (f (Server.answer t c x).1).run (Server.answer t) (Server.answer t c x).2 = _
  rw [h]

/-- A state that is answered to a replacement is one that has ended. -/
theorem replaced_name (r : JobRecord) (state : JobState) :
    Exchange.replaced r state.name = .error (.alreadyTerminal r.id state) := by
  have hword : state.name ≠ "OK" ∧ state.name ≠ "" := by cases state <;> decide
  rw [Exchange.replaced, if_neg hword.1, if_neg hword.2, state.spelled?_name]

theorem answered_of_isOk {a : Except StoreError α} (h : a.isOk = true) : Answered a := by
  rintro cause rfl
  cases h

/-- No command of an exchange at a time fails, if nothing comes between them. -/
def Exchange.NoneFails (t : Int) : Exchange α → Server → Prop
  | .done _, _ => True
  | .ask c k, x => (Server.answer t c x).1.isOk = true ∧ NoneFails t (k (Server.answer t c x).1) (Server.answer t c x).2

instance Exchange.NoneFails.decide (t : Int) : (e : Exchange α) → (x : Server) → Decidable (Exchange.NoneFails t e x)
  | .done _, _ => inferInstanceAs (Decidable True)
  | .ask c k, x =>
    have := NoneFails.decide t (k (Server.answer t c x).1) (Server.answer t c x).2
    inferInstanceAs (Decidable (_ ∧ _))

/-- A command that does not fail has an answer, with which the exchange goes on. -/
theorem Exchange.NoneFails.send {c : Command} {f : c.Answer → Exchange α} {t : Int}
    (h : Exchange.NoneFails t (Exchange.send c >>= f) x) : ∃ b y, Exchange.NoneFails t (f (.ok b)) y ∧
      (Exchange.send c >>= f).run (Server.answer t) x = (f (.ok b)).run (Server.answer t) y := by
  obtain ⟨hok, hrest⟩ : (Server.answer t c x).1.isOk = true ∧
    Exchange.NoneFails t (f (Server.answer t c x).1) (Server.answer t c x).2 := h
  cases hc : Server.answer t c x with
  | mk b y =>
    rw [hc] at hok hrest
    cases b with
    | error e => cases hok
    | ok b => exact ⟨b, y, hrest, Exchange.run_send_of_answer hc⟩

private theorem answered_replaced (r : JobRecord) (word : String) : Answered (Exchange.replaced r word) := by
  intro cause h
  unfold Exchange.replaced at h
  split at h
  · cases h
  split at h
  · cases h
  split at h
  · cases h
  · cases h

private theorem answered_decode (value : String) : Answered (Exchange.decode value) := by
  intro cause h
  unfold Exchange.decode at h
  split at h
  · cases h
  · cases h

theorem Answered.map {β : Type} {a : Except StoreError α} (h : Answered a) (f : α → β) : Answered (a.map f) := by
  intro cause hmap
  cases a with
  | ok b => cases hmap
  | error e =>
    obtain rfl : e = .unavailable cause := Except.error.inj hmap
    exact h cause rfl

/-- A new record is put under its key, and its identifier in front of the index, which is then cut. -/
theorem perform_create_cut {r : JobRecord} {a : Except StoreError JobRecord}
    (h : (store s).perform now (.create r) x = (a, y)) (ha : Answered a) :
    a = .error (.duplicateId r.id) ∧ (x.database.entry? now.millis (s.recordKey r.id.text)).isSome ∧
        y.database = x.database ∨
      a = .ok r ∧ x.database.entry? now.millis (s.recordKey r.id.text) = none ∧
        ∃ t u ids, expiry? now.millis (s.secondsFor r.state) = some t ∧
          expiry? now.millis (Settings.seconds s.terminalTtl) = some u ∧
          x.database.list? now.millis s.indexKey = some ids ∧
          ∀ k, y.database.entries.get? k =
            if k = s.indexKey then
              if s.kept (r.id.text :: ids) = [] then none else some ⟨.list (s.kept (r.id.text :: ids)), some u⟩
            else if k = s.recordKey r.id.text then some ⟨.text r.encode, some t⟩
            else x.database.entries.get? k := by
  obtain ⟨isNew, z, hset, h⟩ := Exchange.run_send (fun _ => rfl) h ha
  rcases Server.answer_setNew hset with ⟨rfl, hsome, hz⟩ | ⟨rfl, hnone, t, ht, hz⟩
  · obtain ⟨rfl, rfl⟩ := Prod.mk.inj h
    exact .inl ⟨rfl, hsome, hz⟩
  · obtain ⟨⟨⟩, w, hlist, h⟩ := Exchange.run_send (fun _ => rfl) h ha
    obtain ⟨rfl, rfl⟩ := Prod.mk.inj h
    obtain ⟨u, ids, hu, hids, hw⟩ := Server.answer_enlist hlist
    have hother : z.database.entry? now.millis s.indexKey = x.database.entry? now.millis s.indexKey := by
      rw [hz, Database.entry?, Database.get?_put_of_ne (s.recordKey_ne_indexKey _).symm]
      rfl
    refine .inr ⟨rfl, hnone, t, u, ids, ht, hu, ?_, fun k => ?_⟩
    · rw [← hids, Database.list?, Database.list?, hother]
    · rw [hw, hz, Database.get?_put]
      rfl

/-- With a capacity in range, the index keeps its first identifiers. -/
theorem perform_create {r : JobRecord} (hcap : s.indexCap.toNat < Nat.pow 2 63) {a : Except StoreError JobRecord}
    (h : (store s).perform now (.create r) x = (a, y)) (ha : Answered a) :
    a = .error (.duplicateId r.id) ∧ (x.database.entry? now.millis (s.recordKey r.id.text)).isSome ∧
        y.database = x.database ∨
      a = .ok r ∧ x.database.entry? now.millis (s.recordKey r.id.text) = none ∧
        ∃ t u ids, expiry? now.millis (s.secondsFor r.state) = some t ∧
          expiry? now.millis (Settings.seconds s.terminalTtl) = some u ∧
          x.database.list? now.millis s.indexKey = some ids ∧
          ∀ k, y.database.entries.get? k =
            if k = s.indexKey then some ⟨.list ((r.id.text :: ids).take s.capacity), some u⟩
            else if k = s.recordKey r.id.text then some ⟨.text r.encode, some t⟩
            else x.database.entries.get? k := by
  rcases perform_create_cut h ha with hknown | ⟨rfl, hnone, t, u, ids, ht, hu, hids, hy⟩
  · exact .inl hknown
  · refine .inr ⟨rfl, hnone, t, u, ids, ht, hu, hids, fun k => ?_⟩
    have hkept : (r.id.text :: ids).take s.capacity ≠ [] := by
      obtain ⟨n, hn⟩ := Nat.exists_eq_add_of_lt s.capacity_pos
      simp [hn]
    rw [hy, Settings.kept_eq_take (Settings.capacity_le_of_indexCap hcap), if_neg hkept]

/-- What the first creation leaves under the key of the record and under that of the index. -/
theorem perform_create_first (hcap : s.indexCap.toNat < Nat.pow 2 63) (hx : x.database.entries = .empty) {r : JobRecord}
    (hok : ((store s).perform now (.create r) x).1.isOk = true)
    (hy : ((store s).perform now (.create r) x).2 = y) :
    y.database.entries.get? (s.recordKey r.id.text) =
        some ⟨.text r.encode, some (now.millis + s.secondsFor r.state * 1000)⟩ ∧
      y.database.entries.get? s.indexKey =
        some ⟨.list [r.id.text], some (now.millis + Settings.seconds s.terminalTtl * 1000)⟩ := by
  have hnone : ∀ key, x.database.entry? now.millis key = none := fun key => by simp [Database.entry?, hx]
  cases hp : (store s).perform now (.create r) x with
  | mk a z =>
    obtain rfl : z = y := by rw [← hy, hp]
    have ha : Answered a := answered_of_isOk (by rwa [hp] at hok)
    rcases perform_create hcap hp ha with ⟨-, hsome, -⟩ | ⟨-, -, t, u, ids, ht, hu, hids, hentries⟩
    · rw [hnone] at hsome
      cases hsome
    · rw [Database.list?, hnone] at hids
      obtain rfl : [] = ids := Option.some.inj hids
      have hone : [r.id.text].take s.capacity = [r.id.text] := List.take_of_length_le s.capacity_pos
      rw [hentries, hentries, if_neg (s.recordKey_ne_indexKey _), if_pos rfl, if_pos rfl, (expiry?_eq_some ht).1,
        (expiry?_eq_some hu).1, hone]
      exact ⟨rfl, rfl⟩

theorem perform_get {id : JobId} {a : Except StoreError (Option JobRecord)}
    (h : (store s).perform now (.get id) x = (a, y)) (ha : Answered a) :
    y.database = x.database ∧
      (a = .ok none ∧ x.database.text? now.millis (s.recordKey id.text) = some none ∨
        ∃ value, x.database.text? now.millis (s.recordKey id.text) = some (some value) ∧
          a = (Exchange.decode value).map some) := by
  obtain ⟨value?, z, hget, h⟩ := Exchange.run_send (fun _ => rfl) h ha
  obtain ⟨hv, hz⟩ := Server.answer_get hget
  cases value? with
  | none =>
    obtain ⟨rfl, rfl⟩ := Prod.mk.inj h
    exact ⟨hz, .inl ⟨rfl, hv⟩⟩
  | some value =>
    obtain ⟨rfl, rfl⟩ := Prod.mk.inj h
    exact ⟨hz, .inr ⟨value, hv, rfl⟩⟩

/-- A record is put in the place of an open one. -/
theorem perform_update {r : JobRecord} {a : Except StoreError JobRecord}
    (h : (store s).perform now (.update r) x = (a, y)) (ha : Answered a) :
    a = .error (.notFound r.id) ∧ x.database.text? now.millis (s.recordKey r.id.text) = some none ∧
        y.database = x.database ∨
      ∃ current state, x.database.text? now.millis (s.recordKey r.id.text) = some (some current) ∧
        x.database.storedState? current = some state ∧
        (Server.isOpenState state = false ∧ a = Exchange.replaced { r with lastUpdatedAt := now } state ∧
            y.database = x.database ∨
          Server.isOpenState state = true ∧ a = .ok { r with lastUpdatedAt := now } ∧
            ∃ t, expiry? now.millis (s.secondsFor r.state) = some t ∧
              y.database = x.database.put (s.recordKey r.id.text)
                ⟨.text { r with lastUpdatedAt := now }.encode, some t⟩) := by
  obtain ⟨word, z, hreplace, h⟩ := Exchange.run_send (fun _ => rfl) h ha
  obtain ⟨rfl, rfl⟩ := Prod.mk.inj h
  rcases Server.answer_replaceOpen hreplace with ⟨rfl, hnone, hz⟩ | ⟨current, state, hcurrent, hstate, hword⟩
  · exact .inl ⟨rfl, hnone, hz⟩
  · refine .inr ⟨current, state, hcurrent, hstate, ?_⟩
    rcases hword with ⟨hopen, rfl, hz⟩ | ⟨hopen, rfl, t, ht, hz⟩
    · exact .inl ⟨hopen, rfl, hz⟩
    · exact .inr ⟨hopen, rfl, t, ht, hz⟩

/-- The records in the index are those of the texts under the keys of its identifiers. -/
private theorem run_indexed {t : Int} {a : Except StoreError (List JobRecord)}
    (h : (Exchange.indexed s).run (Server.answer t) x = (a, y)) (ha : Answered a) :
    y.database = x.database ∧ ∃ ids, x.database.list? t s.indexKey = some ids ∧
      a = ((x.database.texts t (ids.map s.recordKey)).filterMap fun v => v).mapM Exchange.decode := by
  obtain ⟨ids, z, hrange, h⟩ := Exchange.run_send (fun _ => rfl) h ha
  obtain ⟨hids, hz⟩ := Server.answer_range hrange
  cases ids with
  | nil =>
    obtain ⟨rfl, rfl⟩ := Prod.mk.inj h
    exact ⟨hz, [], hids, rfl⟩
  | cons id ids =>
    obtain ⟨values, w, hmany, h⟩ := Exchange.run_send (fun _ => rfl) h ha
    obtain ⟨rfl, hw⟩ := Server.answer_getMany hmany
    obtain ⟨rfl, rfl⟩ := Prod.mk.inj h
    exact ⟨hw.trans hz, id :: ids, hids, by rw [hz]⟩

/-- What is made of the records in the index. -/
private theorem run_indexed_map {t : Int} {f : List JobRecord → List JobRecord} {a : Except StoreError (List JobRecord)}
    (h : (Exchange.indexed s >>= fun rs => .done (rs.map f)).run (Server.answer t) x = (a, y)) (ha : Answered a) :
    y.database = x.database ∧ ∃ ids, x.database.list? t s.indexKey = some ids ∧
      a = (((x.database.texts t (ids.map s.recordKey)).filterMap fun v => v).mapM Exchange.decode).map f := by
  rw [Dialogue.run_bind] at h
  cases hi : (Exchange.indexed s).run (Server.answer t) x with
  | mk rs z =>
    rw [hi] at h
    obtain ⟨rfl, rfl⟩ := Prod.mk.inj h
    have hrs : Answered rs := by
      rintro cause rfl
      exact ha cause rfl
    obtain ⟨hz, ids, hids, rfl⟩ := run_indexed hi hrs
    exact ⟨hz, ids, hids, rfl⟩

theorem perform_list {q : ListQuery} {a : Except StoreError (List JobRecord)}
    (h : (store s).perform now (.list q) x = (a, y)) (ha : Answered a) :
    y.database = x.database ∧ ∃ ids, x.database.list? now.millis s.indexKey = some ids ∧
      a = (((x.database.texts now.millis (ids.map s.recordKey)).filterMap fun v => v).mapM Exchange.decode).map
        q.select :=
  run_indexed_map h ha

theorem perform_findExpired {t : Instant} {a : Except StoreError (List JobRecord)}
    (h : (store s).perform now (.findExpired t) x = (a, y)) (ha : Answered a) :
    y.database = x.database ∧ ∃ ids, x.database.list? now.millis s.indexKey = some ids ∧
      a = (((x.database.texts now.millis (ids.map s.recordKey)).filterMap fun v => v).mapM Exchange.decode).map
        fun rs => rs.filter fun r => r.isExpired t :=
  run_indexed_map h ha

/-- The records in the index, for what it names. -/
theorem indexed_answer {t : Int} {items : List String} (hitems : x.database.list? t s.indexKey = some items)
    (ha : Answered ((Exchange.indexed s).run (Server.answer t) x).1) :
    ((Exchange.indexed s).run (Server.answer t) x).1 =
      ((x.database.texts t (items.map s.recordKey)).filterMap fun v => v).mapM Exchange.decode := by
  obtain ⟨-, ids, hids, h⟩ := run_indexed rfl ha
  obtain rfl : items = ids := Option.some.inj (hitems.symm.trans hids)
  exact h

/-- A listing, for what the index names. -/
theorem list_answer {q : ListQuery} {items : List String}
    (hitems : x.database.list? now.millis s.indexKey = some items)
    (ha : Answered ((store s).perform now (.list q) x).1) :
    ((store s).perform now (.list q) x).1 =
      (((x.database.texts now.millis (items.map s.recordKey)).filterMap fun v => v).mapM Exchange.decode).map
        q.select := by
  obtain ⟨-, ids, hids, h⟩ := perform_list rfl ha
  obtain rfl : items = ids := Option.some.inj (hitems.symm.trans hids)
  exact h

/-- A search, for what the index names. -/
theorem findExpired_answer {t : Instant} {items : List String}
    (hitems : x.database.list? now.millis s.indexKey = some items)
    (ha : Answered ((store s).perform now (.findExpired t) x).1) :
    ((store s).perform now (.findExpired t) x).1 =
      (((x.database.texts now.millis (items.map s.recordKey)).filterMap fun v => v).mapM Exchange.decode).map
        fun rs => rs.filter fun r => r.isExpired t := by
  obtain ⟨-, ids, hids, h⟩ := perform_findExpired rfl ha
  obtain rfl : items = ids := Option.some.inj (hitems.symm.trans hids)
  exact h

/-- Texts that are no records do not look like an outage. -/
private theorem answered_mapM_decode (values : List String) : Answered (values.mapM Exchange.decode) := by
  induction values with
  | nil => exact answered_of_isOk rfl
  | cons v vs ih =>
    intro cause h
    rw [List.mapM_cons] at h
    cases hv : Exchange.decode v with
    | error e =>
      rw [hv] at h
      obtain rfl : e = .unavailable cause := Except.error.inj h
      exact answered_decode v cause hv
    | ok r =>
      rw [hv] at h
      cases hvs : vs.mapM Exchange.decode with
      | ok rs => rw [hvs] at h; cases h
      | error e =>
        rw [hvs] at h
        obtain rfl : e = .unavailable cause := Except.error.inj h
        exact ih cause hvs

/-- The records in the index are told of if no command fails. -/
private theorem answered_indexed_of_noneFails {t : Int} {f : List JobRecord → List JobRecord}
    (h : Exchange.NoneFails t (Exchange.indexed s >>= fun rs => .done (rs.map f)) x) :
    Answered ((Exchange.indexed s >>= fun rs => .done (rs.map f)).run (Server.answer t) x).1 := by
  rw [Exchange.indexed, Dialogue.bind_assoc] at h ⊢
  obtain ⟨ids, y, hrest, hrun⟩ := h.send
  rw [hrun]
  cases ids with
  | nil => exact answered_of_isOk rfl
  | cons id ids =>
    dsimp only at hrest ⊢
    rw [Dialogue.bind_assoc] at hrest ⊢
    obtain ⟨values, z, -, hrun⟩ := hrest.send
    rw [hrun]
    exact (answered_mapM_decode _).map f

/-- A call of which no command fails is not answered as an outage. -/
theorem answered_of_noneFails {c : StoreCall} (h : Exchange.NoneFails now.millis (Exchange.ofCall s now c) x) :
    Answered ((store s).perform now c x).1 := by
  show Answered ((Exchange.ofCall s now c).run (Server.answer now.millis) x).1
  cases c with
  | create r =>
    simp only [Exchange.ofCall, Exchange.create] at h ⊢
    obtain ⟨isNew, y, hrest, hrun⟩ := h.send
    rw [hrun]
    cases isNew with
    | false => nofun
    | true =>
      obtain ⟨⟨⟩, z, -, hrun⟩ := Exchange.NoneFails.send hrest
      rw [hrun]
      nofun
  | get id =>
    simp only [Exchange.ofCall, Exchange.get] at h ⊢
    obtain ⟨value?, y, -, hrun⟩ := h.send
    rw [hrun]
    cases value? with
    | none => nofun
    | some value => exact (answered_decode value).map some
  | update r =>
    simp only [Exchange.ofCall, Exchange.update] at h ⊢
    obtain ⟨word, y, -, hrun⟩ := h.send
    rw [hrun]
    exact answered_replaced _ word
  | findExpired t => exact answered_indexed_of_noneFails h
  | list q => exact answered_indexed_of_noneFails h

/-- A record is read, without failures that wait for commands. -/
theorem perform_get_of_text? (hx : x.faults = []) {id : JobId} {value : String}
    (h : x.database.text? now.millis (s.recordKey id.text) = some (some value)) :
    (store s).perform now (.get id) x = ((Exchange.decode value).map some, x.note ["GET", s.recordKey id.text]) := by
  have hget : Server.answer now.millis (.get (s.recordKey id.text)) x =
      (.ok (some value), x.note ["GET", s.recordKey id.text]) := Server.read_of_faultless hx h
  show (Exchange.get s id).run (Server.answer now.millis) x = _
  rw [Exchange.get, Exchange.run_send_of_answer hget]
  rfl

/-- Without failures that wait for commands, a job that is not known is created and put in front of the index. -/
theorem perform_create_of_unknown (hcap : s.indexCap.toNat < Nat.pow 2 63) (hx : x.faults = []) {r : JobRecord}
    {t u : Int} {ids : List String} (hnone : x.database.entry? now.millis (s.recordKey r.id.text) = none)
    (ht : expiry? now.millis (s.secondsFor r.state) = some t)
    (hids : x.database.list? now.millis s.indexKey = some ids)
    (hu : expiry? now.millis (Settings.seconds s.terminalTtl) = some u) :
    ∃ y, (store s).perform now (.create r) x = (.ok r, y) ∧ y.faults = [] ∧
      y.database.entries.get? s.indexKey = some ⟨.list ((r.id.text :: ids).take s.capacity), some u⟩ ∧
      ∀ k, k ≠ s.indexKey → k ≠ s.recordKey r.id.text → y.database.entries.get? k = x.database.entries.get? k := by
  obtain ⟨y, hset, hy, hdatabase⟩ := Server.answer_setNew_of_none hx hnone ht
  have hlist : y.database.list? now.millis s.indexKey = some ids := by
    rw [hdatabase, Database.list?_put_of_ne (s.recordKey_ne_indexKey _), hids]
  obtain ⟨z, henlist, hz⟩ :=
    Server.answer_enlist_of_list? hy hlist hu
  have hcreate : (store s).perform now (.create r) x = (.ok r, z) := by
    show (Exchange.create s r).run (Server.answer now.millis) x = _
    rw [Exchange.create, Exchange.run_send_of_answer hset]
    exact (Exchange.run_send_of_answer henlist).trans rfl
  rcases perform_create hcap hcreate (answered_of_isOk rfl) with
    ⟨hknown, -⟩ | ⟨-, -, t', u', ids', -, hu', hids', hentries⟩
  · cases hknown
  obtain rfl : u = u' := Option.some.inj (hu.symm.trans hu')
  obtain rfl : ids = ids' := Option.some.inj (hids.symm.trans hids')
  refine ⟨z, hcreate, hz, ?_, fun k hindex hrecord => ?_⟩
  · rw [hentries, if_pos rfl]
  · rw [hentries, if_neg hindex, if_neg hrecord]

/-- Without failures that wait for commands, a lookup fails only if there is a list under the key of the record. -/
theorem answered_get (hx : x.faults = []) {id : JobId}
    (h : ∃ value, x.database.text? now.millis (s.recordKey id.text) = some (some value)) :
    Answered ((store s).perform now (.get id) x).1 := by
  obtain ⟨value, hvalue⟩ := h
  rw [perform_get_of_text? hx hvalue, Exchange.decode]
  cases JobRecord.decode? value with
  | none => intro _ h; cases h
  | some r => intro _ h; cases h

/-- Without failures that wait for commands, the records in the index are not read only if there is no list under its
key. -/
theorem answered_indexed (hx : x.faults = []) {t : Int} (hl : (x.database.list? t s.indexKey).isSome) :
    Answered ((Exchange.indexed s).run (Server.answer t) x).1 := by
  obtain ⟨ids, hids⟩ := Option.isSome_iff_exists.1 hl
  have hrange : Server.answer t (.range s.indexKey) x = (.ok ids, x.note ["LRANGE", s.indexKey, "0", "-1"]) :=
    Server.read_of_faultless hx hids
  have hmany : ∀ keys, Server.answer t (.getMany keys) (x.note ["LRANGE", s.indexKey, "0", "-1"]) =
      (.ok (x.database.texts t keys), (x.note ["LRANGE", s.indexKey, "0", "-1"]).note ("MGET" :: keys)) :=
    fun keys => Server.read_of_faultless (f := fun d => some (d.texts t keys)) hx rfl
  rw [Exchange.indexed, Exchange.run_send_of_answer hrange]
  cases ids with
  | nil => exact answered_of_isOk rfl
  | cons id ids =>
    dsimp only
    rw [Exchange.run_send_of_answer (hmany _)]
    exact answered_mapM_decode _

private theorem answered_indexed_map (hx : x.faults = []) {t : Int} {f : List JobRecord → List JobRecord}
    (hl : (x.database.list? t s.indexKey).isSome) :
    Answered ((Exchange.indexed s >>= fun rs => .done (rs.map f)).run (Server.answer t) x).1 := by
  intro cause h
  rw [Dialogue.run_bind] at h
  cases hrs : (Exchange.indexed s).run (Server.answer t) x with
  | mk rs z =>
    have ha := answered_indexed hx hl
    rw [hrs] at h ha
    cases rs with
    | ok rs => cases h
    | error e =>
      obtain rfl : e = .unavailable cause := Except.error.inj h
      exact ha cause rfl

/-- Without failures that wait for commands, a listing fails only if there is no list under the key of the index. -/
theorem answered_list (hx : x.faults = []) {q : ListQuery} (hl : (x.database.list? now.millis s.indexKey).isSome) :
    Answered ((store s).perform now (.list q) x).1 := answered_indexed_map hx hl

/-- Without failures that wait for commands, a search fails only if there is no list under the key of the index. -/
theorem answered_findExpired (hx : x.faults = []) {t : Instant}
    (hl : (x.database.list? now.millis s.indexKey).isSome) :
    Answered ((store s).perform now (.findExpired t) x).1 := answered_indexed_map hx hl

end

end Redis

end JobLedger
