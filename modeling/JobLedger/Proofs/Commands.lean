import JobLedger.Redis.Server

/-!
# Commands that succeed

What the answer of a command and the data after it are, given that the command did not fail. Failures that wait
for other commands, a script that had to be loaded and the words that the server keeps make no difference.
-/
namespace JobLedger.Redis

theorem expiry?_eq_some {now t : Int} {seconds : Nat} (h : expiry? now seconds = some t) :
    t = now + seconds * 1000 ∧ t < endOfTime := by
  unfold expiry? at h
  split at h
  · cases h
    exact ⟨rfl, ‹_›⟩
  · cases h

theorem lt_of_expiry? {now t : Int} {seconds : Nat} (hpos : 0 < seconds) (h : expiry? now seconds = some t) :
    now < t := by
  have ht := (expiry?_eq_some h).1
  omega

namespace Database

theorem get?_put (d : Database) (key k : String) (e : Entry) :
    (d.put key e).entries.get? k = if k = key then some e else d.entries.get? k :=
  Table.get?_insert d.entries key k e

theorem get?_put_of_ne {d : Database} {key : String} {e : Entry} {k : String} (hk : k ≠ key) :
    (d.put key e).entries.get? k = d.entries.get? k := by rw [get?_put, if_neg hk]

theorem get?_remove (d : Database) (key k : String) :
    (d.remove key).entries.get? k = if k = key then none else d.entries.get? k :=
  Table.get?_erase d.entries key k

@[simp] theorem leeway_put (d : Database) (key : String) (e : Entry) : (d.put key e).leeway = d.leeway := rfl

@[simp] theorem leeway_remove (d : Database) (key : String) : (d.remove key).leeway = d.leeway := rfl

/-- An entry whose expiry is still to come is there, on every server. -/
private theorem serves_of_isLive {now : Int} {e : Entry} (d : Database) (h : e.isLive now = true) :
    d.serves now e = true := by
  rcases e with ⟨c, _ | t⟩
  · rfl
  · have hlt : now < t := of_decide_eq_true h
    exact decide_eq_true (by omega : now - d.leeway.milliseconds < t)

theorem serves_of_lt {now t : Int} (d : Database) (c : Content) (h : now < t) : d.serves now ⟨c, some t⟩ = true :=
  d.serves_of_isLive (decide_eq_true h)

theorem entry?_eq_some {now : Int} {key : String} {d : Database} {e : Entry} :
    d.entry? now key = some e ↔ d.entries.get? key = some e ∧ d.serves now e = true :=
  Option.filter_eq_some_iff

private theorem entry?_put {now : Int} (d : Database) (key : String) {e : Entry} (he : d.serves now e = true) :
    Database.entry? now key (d.put key e) = some e := by
  rw [entry?_eq_some, get?_put, if_pos rfl]
  exact ⟨rfl, he⟩

theorem entry?_put_of_ne {now : Int} {key k : String} {d : Database} {e : Entry} (h : k ≠ key) :
    Database.entry? now k (d.put key e) = d.entry? now k := by
  rw [Database.entry?, get?_put_of_ne h]
  rfl

theorem list?_of_entry {now : Int} {key : String} {d : Database} {xs : List String} {t : Option Int}
    (h : d.entry? now key = some ⟨.list xs, t⟩) : d.list? now key = some xs := by
  rw [list?, h]
  rfl

theorem list?_put_of_ne {now : Int} {key k : String} {d : Database} {e : Entry} (h : key ≠ k) :
    Database.list? now k (d.put key e) = d.list? now k := by
  rw [list?, list?, entry?_put_of_ne h.symm]

/-- A text that has just been put under a key for some seconds is there. -/
theorem text?_put_of_expiry? {now t : Int} {key value : String} {seconds : Nat} {d : Database} (hpos : 0 < seconds)
    (ht : expiry? now seconds = some t) :
    Database.text? now key (d.put key ⟨.text value, some t⟩) = some (some value) := by
  rw [text?, entry?_put d key (d.serves_of_lt (.text value) (lt_of_expiry? hpos ht))]
  rfl

/-- An entry that takes over the expiry of what is there is there too. -/
private theorem serves_bind_expiry (now : Int) (key : String) (d : Database) (c : Content) :
    d.serves now ⟨c, (d.entry? now key).bind Entry.expiry⟩ = true := by
  cases h : d.entry? now key with
  | none => rfl
  | some e => exact (entry?_eq_some.1 h).2

theorem text?_eq_some {now : Int} {key value : String} {d : Database} :
    d.text? now key = some (some value) ↔ ∃ t, d.entry? now key = some ⟨.text value, t⟩ := by
  unfold text?
  cases d.entry? now key with
  | none => simp
  | some e => cases e with | mk c t => cases c <;> simp

end Database

namespace Server

variable {α : Type} {now : Int} {s t : Server}

@[simp] theorem note_database (words : List String) : (s.note words).database = s.database := rfl

theorem fault?_database {name : String} {f : Fault} (h : s.fault? name = some (f, t)) :
    t.database = s.database := by
  obtain ⟨g, -, hg⟩ := Option.map_eq_some_iff.1 h
  cases hg
  rfl

/-- A read that succeeds tells what is there and changes nothing. -/
private theorem read_ok {name : String} {f : Database → Option α} {a : α} (h : s.read name f = (.ok a, t)) :
    f s.database = some a ∧ t = s := by
  unfold read at h
  split at h
  · cases h
  · split at h <;> cases h
    exact ⟨‹_›, rfl⟩

theorem fault?_of_faultless (hs : s.faults = []) (name : String) : s.fault? name = none := by
  rw [fault?, hs]
  rfl

/-- Without failures that wait for commands, a read fails only for want of a value of the right type. -/
theorem read_eq (hs : s.faults = []) (name : String) (f : Database → Option α) :
    s.read name f = ((f s.database).elim (.error .keyValue) .ok, s) := by
  rw [read, fault?_of_faultless hs]
  cases f s.database <;> rfl

theorem read_of_faultless {name : String} {f : Database → Option α} {a : α} (hs : s.faults = [])
    (h : f s.database = some a) : s.read name f = (.ok a, s) := by
  rw [read_eq hs, h]
  rfl

private theorem write_ok {name : String} {f : Database → Option Database} (h : s.write name f = (.ok (), t)) :
    f s.database = some t.database := by
  unfold write at h
  split at h
  · cases h
  · split at h <;> cases h
    assumption

private theorem writeAll_cons_ok {name : String} {f : Database → Option Database}
    {cs : List (String × (Database → Option Database))} (h : writeAll ((name, f) :: cs) s = (.ok (), t)) :
    ∃ u, f s.database = some u.database ∧ writeAll cs u = (.ok (), t) := by
  cases hw : s.write name f with
  | mk a u =>
    cases hr : writeAll cs u with
    | mk b v =>
      simp only [writeAll, hw, hr] at h
      obtain ⟨hab, rfl⟩ := Prod.mk.inj h
      cases a with
      | error e => cases hab
      | ok _ =>
        cases hab
        exact ⟨u, write_ok hw, hr⟩

private theorem reload_ok (h : s.reload = (.ok (), t)) : t.database = s.database := by
  unfold reload at h
  split at h
  · cases h
  · dsimp only at h
    split at h <;> cases h
    rfl

private theorem call_ok (h : s.call = (.ok (), t)) : t.database = s.database := by
  unfold call at h
  split at h
  · rename_i hf
    split at h
    · rw [reload_ok h, fault?_database hf]
    · cases h
  · split at h
    · cases h
      rfl
    · exact reload_ok h

theorem answer_get {key : String} {a : Option String} (h : answer now (.get key) s = (.ok a, t)) :
    s.database.text? now key = some a ∧ t.database = s.database := by
  obtain ⟨ha, rfl⟩ := read_ok h
  exact ⟨ha, rfl⟩

theorem answer_getMany {keys : List String} {a : List (Option String)}
    (h : answer now (.getMany keys) s = (.ok a, t)) :
    a = s.database.texts now keys ∧ t.database = s.database := by
  have h : (s.note ("MGET" :: keys)).read "MGET" (fun d => some (d.texts now keys)) = (.ok a, t) := h
  obtain ⟨ha, rfl⟩ := read_ok h
  exact ⟨(Option.some.inj ha).symm, rfl⟩

theorem answer_range {key : String} {a : List String} (h : answer now (.range key) s = (.ok a, t)) :
    s.database.list? now key = some a ∧ t.database = s.database := by
  obtain ⟨ha, rfl⟩ := read_ok h
  exact ⟨ha, rfl⟩

/-- A key that is not there is set, one that is there stays. -/
theorem answer_setNew {key value : String} {seconds : Nat} {a : Bool}
    (h : answer now (.setNew key value seconds) s = (.ok a, t)) :
    a = false ∧ (s.database.entry? now key).isSome ∧ t.database = s.database ∨
      a = true ∧ s.database.entry? now key = none ∧ ∃ expiry, expiry? now seconds = some expiry ∧
        t.database = s.database.put key ⟨.text value, some expiry⟩ := by
  simp only [answer, setNew] at h
  split at h
  · cases h
  · split at h
    · cases h
    · rename_i d hd
      obtain ⟨expiry, he, rfl⟩ := Option.map_eq_some_iff.1 hd
      split at h <;> cases h
      · exact .inl ⟨rfl, ‹_›, rfl⟩
      · exact .inr ⟨rfl, Option.not_isSome_iff_eq_none.1 ‹_›, expiry, he, rfl⟩

/-- An item is put in front of a list, and the list is cut and given time to live. -/
theorem answer_enlist {key item : String} {last : Int64} {seconds : Nat}
    (h : answer now (.enlist key item last seconds) s = (.ok (), t)) :
    ∃ expiry xs, expiry? now seconds = some expiry ∧ s.database.list? now key = some xs ∧
      ∀ k, t.database.entries.get? k =
        if k = key then
          if slice 0 last.toInt (item :: xs) = [] then none
          else some ⟨.list (slice 0 last.toInt (item :: xs)), some expiry⟩
        else s.database.entries.get? k := by
  simp only [answer, List.foldl_cons, List.foldl_nil] at h
  obtain ⟨u, hpush, h⟩ := writeAll_cons_ok h
  obtain ⟨v, htrim, h⟩ := writeAll_cons_ok h
  obtain ⟨w, hexpire, h⟩ := writeAll_cons_ok h
  obtain ⟨-, rfl⟩ := Prod.mk.inj h
  simp only [note_database] at hpush
  obtain ⟨xs, hxs, hu⟩ := Option.map_eq_some_iff.1 hpush
  obtain ⟨ys, hys, hv⟩ := Option.map_eq_some_iff.1 htrim
  obtain ⟨expiry, he, hw⟩ := Option.map_eq_some_iff.1 hexpire
  refine ⟨expiry, xs, he, hxs, fun k => ?_⟩
  -- The list has the expiry that it had before it was pushed to, so it is there when it is cut.
  have hpushed :=
    Database.entry?_put s.database key (Database.serves_bind_expiry now key s.database (.list (item :: xs)))
  rw [← hu, Database.list?_of_entry hpushed] at hys
  rw [← hu, hpushed, ← Option.some.inj hys] at hv
  split at hv
  · rename_i hnil
    have hgone : v.database.entry? now key = none := by
      rw [← hv, Database.entry?, Database.get?_remove, if_pos rfl]
      rfl
    rw [hgone] at hw
    rw [← hw, ← hv, Database.get?_remove, Database.get?_put, if_pos hnil]
    split <;> rfl
  · rename_i hne
    replace hne : slice 0 last.toInt (item :: xs) ≠ [] := hne
    have hcut := Database.entry?_put
      (s.database.put key ⟨.list (item :: xs), (s.database.entry? now key).bind Entry.expiry⟩)
      key (Database.serves_bind_expiry now key s.database (.list (slice 0 last.toInt (item :: xs))))
    rw [← hv, Option.bind_some, hcut] at hw
    rw [← hw]
    by_cases hk : k = key <;> simp [Database.get?_put, hk, hne]

/-- The script answers nothing if there is no text, the state of a record that is not open, and a word of consent if
it put another text in the place of an open record. -/
theorem answer_replaceOpen {key value : String} {seconds : Nat} {a : String}
    (h : answer now (.replaceOpen key value seconds) s = (.ok a, t)) :
    (a = "" ∧ s.database.text? now key = some none ∧ t.database = s.database) ∨
      ∃ current state, s.database.text? now key = some (some current) ∧ s.database.storedState? current = some state ∧
        (isOpenState state = false ∧ a = state ∧ t.database = s.database ∨
          isOpenState state = true ∧ a = "OK" ∧ ∃ expiry, expiry? now seconds = some expiry ∧
            t.database = s.database.put key ⟨.text value, some expiry⟩) := by
  simp only [answer] at h
  split at h
  · cases h
  · rename_i u hcall
    have hu := call_ok hcall
    rw [← hu]
    simp only [replaceOpen] at h
    split at h
    · cases h
    · rename_i v hread
      obtain ⟨hnone, rfl⟩ := read_ok hread
      cases h
      exact .inl ⟨rfl, hnone, rfl⟩
    · rename_i current v hread
      obtain ⟨hsome, rfl⟩ := read_ok hread
      split at h
      · cases h
      · rename_i state hstate
        refine .inr ⟨current, state, hsome, hstate, ?_⟩
        split at h
        · rename_i hopen
          split at h
          · cases h
          · rename_i w hwrite
            cases h
            obtain ⟨expiry, he, hw⟩ := Option.map_eq_some_iff.1 (write_ok hwrite)
            exact .inr ⟨hopen, rfl, expiry, he, hw.symm⟩
        · rename_i hopen
          cases h
          exact .inl ⟨by simpa using hopen, rfl, rfl⟩

private theorem write_of_faultless {f : Database → Option Database} {d : Database} (name : String) (hs : s.faults = [])
    (h : f s.database = some d) : s.write name f = (.ok (), { s with database := d }) := by
  rw [write, fault?_of_faultless hs, h]

/-- Without failures that wait for commands, changes that can all be made are made one after another. -/
private theorem writeAll_of_faultless {cs : List (String × (Database → Option Database))} {d : Database}
    (hs : s.faults = [])
    (h : cs.foldlM (fun d c => c.2 d) s.database = some d) : writeAll cs s = (.ok (), { s with database := d }) := by
  induction cs generalizing s with
  | nil =>
    obtain rfl := Option.some.inj h
    rfl
  | cons c cs ih =>
    rw [List.foldlM_cons, Option.bind_eq_bind, Option.bind_eq_some_iff] at h
    obtain ⟨u, hu, h⟩ := h
    have hrest := @ih { s with database := u } hs h
    rw [writeAll, write_of_faultless c.1 hs hu]
    dsimp only
    rw [hrest]
    rfl

/-- Without failures that wait for commands, a key that is not there is set. -/
theorem answer_setNew_of_none (hs : s.faults = []) {key value : String} {seconds : Nat} {expiry : Int}
    (hnone : s.database.entry? now key = none) (he : expiry? now seconds = some expiry) :
    ∃ t, answer now (.setNew key value seconds) s = (.ok true, t) ∧ t.faults = [] ∧
      t.database = s.database.put key ⟨.text value, some expiry⟩ := by
  obtain ⟨u, hu⟩ : ∃ u, s.note ["SET", key, value, "NX", "EX", Decimal.text seconds] = u := ⟨_, rfl⟩
  have hsame : u.database = s.database := by rw [← hu, note_database]
  have hfaults : u.faults = [] := by rw [← hu]; exact hs
  refine ⟨{ u with database := u.database.put key ⟨.text value, some expiry⟩ }, ?_, hfaults, by rw [hsame]⟩
  rw [answer, hu, setNew, fault?_of_faultless hfaults, Database.setFor?, he, Option.map_some, hsame, hnone]
  rfl

/-- Without failures that wait for commands, an item is put in front of a list. -/
theorem answer_enlist_of_list? (hs : s.faults = []) {key item : String} {last : Int64} {seconds : Nat}
    {xs : List String} {expiry : Int} (hxs : s.database.list? now key = some xs)
    (he : expiry? now seconds = some expiry) :
    ∃ t, answer now (.enlist key item last seconds) s = (.ok (), t) ∧ t.faults = [] := by
  obtain ⟨d, hpush⟩ : ∃ d, s.database.push? now key item = some d := by
    rw [Database.push?, hxs]
    exact ⟨_, rfl⟩
  have hlist : d.list? now key = some (item :: xs) := by
    rw [Database.push?, hxs, Option.map_some, Option.some.injEq] at hpush
    rw [← hpush]
    exact Database.list?_of_entry (Database.entry?_put s.database key (Database.serves_bind_expiry now key _ _))
  obtain ⟨d', htrim⟩ : ∃ d', d.trim? now key 0 last.toInt = some d' := by
    rw [Database.trim?, hlist]
    exact ⟨_, rfl⟩
  obtain ⟨d'', hexpire⟩ : ∃ d'', d'.expire? now key seconds = some d'' := by
    rw [Database.expire?, he]
    exact ⟨_, rfl⟩
  rw [answer]
  refine ⟨_, writeAll_of_faultless (d := d'') hs ?_, hs⟩
  simp only [List.foldl_cons, List.foldl_nil, note_database, List.foldlM_cons, List.foldlM_nil, Option.bind_eq_bind,
    hpush, htrim, hexpire, Option.bind_some, Option.pure_def]

private theorem reload_of_faultless (hs : s.faults = []) : s.reload = (.ok (), { s with hasScript := true }) := by
  have hs' : ({ s with hasScript := true } : Server).faults = [] := hs
  rw [reload, fault?_of_faultless hs]
  dsimp only
  rw [fault?_of_faultless hs']

private theorem call_of_faultless (hs : s.faults = []) :
    ∃ t, s.call = (.ok (), t) ∧ t.database = s.database ∧ t.faults = [] := by
  rw [call, fault?_of_faultless hs]
  dsimp only
  split
  · exact ⟨s, rfl, rfl, hs⟩
  · exact ⟨_, reload_of_faultless hs, rfl, hs⟩

/-- Without failures that wait for commands, an open record is replaced. -/
theorem answer_replaceOpen_of_open (hs : s.faults = []) {key value current state : String} {seconds : Nat}
    {expiry : Int} (hcurrent : s.database.text? now key = some (some current))
    (hstate : s.database.storedState? current = some state) (hopen : isOpenState state = true)
    (he : expiry? now seconds = some expiry) : ∃ t, answer now (.replaceOpen key value seconds) s = (.ok "OK", t) ∧
      t.faults = [] ∧ t.database = s.database.put key ⟨.text value, some expiry⟩ := by
  obtain ⟨u, hcall, hdatabase, hu⟩ := call_of_faultless hs
  obtain ⟨v, hv⟩ : ∃ v, u.note ["EVAL", "1", key, value, Decimal.text seconds] = v := ⟨_, rfl⟩
  have hsame : v.database = s.database := by rw [← hv, note_database, hdatabase]
  have hfaults : v.faults = [] := by rw [← hv]; exact hu
  have hread : v.read "GET" (Database.text? now key) = (.ok (some current), v) :=
    read_of_faultless hfaults (by rw [hsame, hcurrent])
  have hwrite : v.write "SET" (Database.setFor? now key value seconds) =
      (.ok (), { v with database := v.database.put key ⟨.text value, some expiry⟩ }) :=
    write_of_faultless "SET" hfaults (by rw [Database.setFor?, he, Option.map_some])
  refine ⟨{ v with database := v.database.put key ⟨.text value, some expiry⟩ }, ?_, hfaults,
    congrArg (Database.put key _) hsame⟩
  rw [← hsame] at hstate
  simp only [answer, hcall, hv, replaceOpen, hread, hstate, hopen, if_true, hwrite]

end Server

end JobLedger.Redis
