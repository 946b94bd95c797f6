import JobLedger.Proofs.Commands

/-!
# What commands read and write

Each command concerns a few keys. It changes no data but by the changes that make it up, each of them to the value of
one of these keys, however many of them fail. And its answer goes by what is under these keys: two servers that wait
for the same failures and have the same entries there answer the same, and still have the same entries after it.
-/
namespace JobLedger.Redis

/-- The keys that a command concerns. -/
def Command.keys : Command → List String
  | .get key | .range key | .setNew key _ _ | .enlist key _ _ _ | .replaceOpen key _ _ => [key]
  | .getMany keys => keys

/-- The changes of the data that a command may make at a time. -/
def Command.changes (now : Int) : Command → List (Database → Option Database)
  | .get _ | .getMany _ | .range _ => []
  | .setNew key value seconds | .replaceOpen key value seconds => [Database.setFor? now key value seconds]
  | .enlist key item last seconds =>
    [Database.push? now key item, Database.trim? now key 0 last.toInt, Database.expire? now key seconds]

namespace Database

/-- A change of the data that does not make a property of it untrue. -/
def Preserves (P : Database → Prop) (f : Database → Option Database) : Prop := ∀ d d', P d → f d = some d' → P d'

/-- A change of the data that concerns one key, and leaves the leeway of the server alone. -/
structure ChangesOnly (key : String) (f : Database → Option Database) : Prop where
  leeway : ∀ d d', f d = some d' → d'.leeway = d.leeway
  get? : ∀ d d', f d = some d' → ∀ k, k ≠ key → d'.entries.get? k = d.entries.get? k

private theorem changesOnly_setFor (now : Int) (key value : String) (seconds : Nat) :
    ChangesOnly key (setFor? now key value seconds) where
  leeway d d' h := by
    obtain ⟨t, -, rfl⟩ := Option.map_eq_some_iff.1 h
    rfl
  get? d d' h k hk := by
    obtain ⟨t, -, rfl⟩ := Option.map_eq_some_iff.1 h
    exact get?_put_of_ne hk

private theorem changesOnly_push (now : Int) (key item : String) : ChangesOnly key (push? now key item) where
  leeway d d' h := by
    obtain ⟨xs, -, rfl⟩ := Option.map_eq_some_iff.1 h
    rfl
  get? d d' h k hk := by
    obtain ⟨xs, -, rfl⟩ := Option.map_eq_some_iff.1 h
    exact get?_put_of_ne hk

private theorem changesOnly_trim (now : Int) (key : String) (first last : Int) :
    ChangesOnly key (trim? now key first last) where
  leeway d d' h := by
    obtain ⟨xs, -, rfl⟩ := Option.map_eq_some_iff.1 h
    split <;> rfl
  get? d d' h k hk := by
    obtain ⟨xs, -, rfl⟩ := Option.map_eq_some_iff.1 h
    split
    · rw [get?_remove, if_neg hk]
    · exact get?_put_of_ne hk

private theorem changesOnly_expire (now : Int) (key : String) (seconds : Nat) :
    ChangesOnly key (expire? now key seconds) where
  leeway d d' h := by
    obtain ⟨t, -, rfl⟩ := Option.map_eq_some_iff.1 h
    split <;> rfl
  get? d d' h k hk := by
    obtain ⟨t, -, rfl⟩ := Option.map_eq_some_iff.1 h
    split
    · exact get?_put_of_ne hk
    · rfl

end Database

/-- Each change that a command may make concerns one of its keys. -/
private theorem Command.changesOnly {now : Int} {c : Command} {f : Database → Option Database}
    (hf : f ∈ c.changes now) :
    ∃ key ∈ c.keys, Database.ChangesOnly key f := by
  cases c with
  | get _ | getMany _ | range _ => cases hf
  | setNew key value seconds =>
    obtain rfl := List.mem_singleton.1 hf
    exact ⟨key, List.mem_singleton_self key, Database.changesOnly_setFor now key value seconds⟩
  | enlist key item last seconds =>
    refine ⟨key, List.mem_singleton_self key, ?_⟩
    simp only [changes, List.mem_cons, List.not_mem_nil, or_false] at hf
    rcases hf with rfl | rfl | rfl
    · exact Database.changesOnly_push now key item
    · exact Database.changesOnly_trim now key 0 last.toInt
    · exact Database.changesOnly_expire now key seconds
  | replaceOpen key value seconds =>
    obtain rfl := List.mem_singleton.1 hf
    exact ⟨key, List.mem_singleton_self key, Database.changesOnly_setFor now key value seconds⟩

namespace Server

variable {α : Type} {now : Int} {x y : Server} {P : Database → Prop}

private theorem read_database (name : String) (f : Database → Option α) (x : Server) :
    (x.read name f).2.database = x.database := by
  rw [read]
  split
  · exact fault?_database ‹_›
  · split <;> rfl

private theorem write_preserves (name : String) {f : Database → Option Database} (hf : Database.Preserves P f)
    (hx : P x.database) : P (x.write name f).2.database := by
  rw [write]
  split
  · rwa [fault?_database ‹_›]
  · split
    · exact hf _ _ hx ‹_›
    · exact hx

private theorem writeAll_preserves {cs : List (String × (Database → Option Database))}
    (hcs : ∀ c ∈ cs, Database.Preserves P c.2) (hx : P x.database) : P (writeAll cs x).2.database := by
  induction cs generalizing x with
  | nil => exact hx
  | cons c cs ih =>
    exact ih (fun d hd => hcs d (List.mem_cons_of_mem _ hd)) (write_preserves c.1 (hcs c List.mem_cons_self) hx)

private theorem reload_database (x : Server) : x.reload.2.database = x.database := by
  rw [reload]
  split
  · exact fault?_database ‹_›
  · dsimp only
    split
    · exact fault?_database (s := { x with hasScript := true }) ‹_›
    · rfl

private theorem call_database (x : Server) : x.call.2.database = x.database := by
  rw [call]
  split
  · split
    · rw [reload_database, fault?_database ‹_›]
    · exact fault?_database ‹_›
  · split
    · rfl
    · exact reload_database x

private theorem setNew_preserves {key value : String} {seconds : Nat}
    (hf : Database.Preserves P (Database.setFor? now key value seconds)) (hx : P x.database) :
    P (x.setNew now key value seconds).2.database := by
  rw [setNew]
  split
  · rwa [fault?_database ‹_›]
  · split
    · exact hx
    · split
      · exact hx
      · exact hf _ _ hx ‹_›

private theorem replaceOpen_preserves {key value : String} {seconds : Nat}
    (hf : Database.Preserves P (Database.setFor? now key value seconds)) (hx : P x.database) :
    P (x.replaceOpen now key value seconds).2.database := by
  have hread := read_database "GET" (Database.text? now key) x
  rw [replaceOpen]
  cases h : x.read "GET" (Database.text? now key) with
  | mk a y =>
    rw [h] at hread
    have hy : P y.database := by rwa [show y.database = x.database from hread]
    have hwrite := write_preserves "SET" hf hy
    rcases a with e | _ | current
    · exact hy
    · exact hy
    · dsimp only
      split
      · exact hy
      · split
        · split <;> rename_i hw <;> rwa [hw] at hwrite
        · exact hy

/-- What each change of a command preserves is preserved by the command, whatever of it fails. -/
theorem answer_preserves {c : Command} (hc : ∀ f ∈ c.changes now, Database.Preserves P f) (hx : P x.database) :
    P (answer now c x).2.database := by
  cases c with
  | get _ | getMany _ | range _ => rwa [answer, read_database]
  | setNew key value seconds => exact setNew_preserves (hc _ List.mem_cons_self) hx
  | enlist key item last seconds =>
    refine writeAll_preserves (fun d hd => ?_) hx
    simp only [List.mem_cons, List.not_mem_nil, or_false] at hd
    rcases hd with rfl | rfl | rfl <;> exact hc _ (by simp [Command.changes])
  | replaceOpen key value seconds =>
    rw [answer]
    have hdatabase := call_database x
    split
    · rename_i h
      rw [h] at hdatabase
      rwa [show _ = x.database from hdatabase]
    · rename_i y h
      rw [h] at hdatabase
      refine replaceOpen_preserves (hc _ List.mem_cons_self) ?_
      rwa [note_database, show y.database = x.database from hdatabase]

/-- A command without changes changes nothing. -/
theorem answer_database_of_changes {c : Command} (hc : c.changes now = []) :
    (answer now c x).2.database = x.database := by
  refine answer_preserves (P := fun d => d = x.database) (fun f hf => ?_) rfl
  rw [hc] at hf
  cases hf

/-- A command leaves alone the keys that it does not concern. -/
theorem answer_get?_of_not_mem {c : Command} {k : String} (hk : k ∉ c.keys) :
    (answer now c x).2.database.entries.get? k = x.database.entries.get? k := by
  refine answer_preserves (P := fun d => d.entries.get? k = x.database.entries.get? k) (fun f hf d d' hd h => ?_) rfl
  obtain ⟨key, hkey, honly⟩ := Command.changesOnly hf
  rw [honly.get? d d' h k fun heq => hk (heq ▸ hkey), hd]

/-- No command changes the leeway of the server. -/
theorem answer_leeway (now : Int) (c : Command) (x : Server) :
    (answer now c x).2.database.leeway = x.database.leeway := by
  refine answer_preserves (P := fun d => d.leeway = x.database.leeway) (fun f hf d d' hd h => ?_) rfl
  obtain ⟨key, -, honly⟩ := Command.changesOnly hf
  rw [honly.leeway d d' h, hd]

private theorem write_error {name : String} {f : Database → Option Database} {e : Outage}
    (h : x.write name f = (.error e, y)) : y.database = x.database := by
  rw [write] at h
  split at h
  · obtain ⟨-, rfl⟩ := Prod.mk.inj h
    exact fault?_database ‹_›
  · split at h
    · cases h
    · obtain ⟨-, rfl⟩ := Prod.mk.inj h
      rfl

private theorem setNew_error {key value : String} {seconds : Nat} {e : Outage}
    (h : x.setNew now key value seconds = (.error e, y)) : y.database = x.database := by
  rw [setNew] at h
  split at h
  · obtain ⟨-, rfl⟩ := Prod.mk.inj h
    exact fault?_database ‹_›
  · split at h
    · obtain ⟨-, rfl⟩ := Prod.mk.inj h
      rfl
    · split at h <;> cases h

private theorem replaceOpen_error {key value : String} {seconds : Nat} {e : Outage}
    (h : x.replaceOpen now key value seconds = (.error e, y)) : y.database = x.database := by
  have hread := read_database "GET" (Database.text? now key) x
  rw [replaceOpen] at h
  cases hr : x.read "GET" (Database.text? now key) with
  | mk a z =>
    rw [hr] at h hread
    rw [← show z.database = x.database from hread]
    rcases a with e' | _ | current
    · obtain ⟨-, rfl⟩ := Prod.mk.inj h
      rfl
    · cases h
    · dsimp only at h
      split at h
      · obtain ⟨-, rfl⟩ := Prod.mk.inj h
        rfl
      · split at h
        · split at h
          · obtain ⟨-, rfl⟩ := Prod.mk.inj h
            exact write_error ‹_›
          · cases h
        · cases h

/-- A command that fails has changed nothing, unless it is made up of several changes. -/
theorem answer_error {c : Command} {e : Outage} (h : answer now c x = (.error e, y))
    (hc : ∀ key item last seconds, c ≠ .enlist key item last seconds) : y.database = x.database := by
  cases c with
  | get _ | getMany _ | range _ =>
    exact (congrArg (fun p => p.2.database) h).symm.trans (read_database _ _ (x.note _))
  | setNew key value seconds => exact setNew_error (x := x.note _) h
  | enlist key item last seconds => exact absurd rfl (hc key item last seconds)
  | replaceOpen key value seconds =>
    have hcall := call_database x
    rw [answer] at h
    split at h
    · rename_i heq
      obtain ⟨-, rfl⟩ := Prod.mk.inj h
      rw [heq] at hcall
      exact hcall
    · rename_i z heq
      rw [heq] at hcall
      exact (replaceOpen_error h).trans hcall

end Server

/-! ## Servers that cannot be told apart by some commands -/

namespace Database

variable {T : Int → Prop} {K : String → Prop} {now : Int} {key : String} {d d' : Database}

/-- The same entries are there, at some times under some keys, with the same leeway. -/
structure AgreeOn (T : Int → Prop) (K : String → Prop) (d d' : Database) : Prop where
  leeway : d.leeway = d'.leeway
  entries : ∀ t, T t → ∀ key, K key → d.entry? t key = d'.entry? t key

theorem entry?_congr (hl : d.leeway = d'.leeway) (h : d.entries.get? key = d'.entries.get? key) (t : Int) :
    d.entry? t key = d'.entry? t key := by
  simp only [Database.entry?, Database.serves, h, hl]

private theorem entry?_put_eq (d : Database) (now : Int) (key k : String) (e : Entry) :
    Database.entry? now k (d.put key e) =
      if k = key then (some e).filter fun e => d.serves now e else d.entry? now k := by
  rw [Database.entry?, get?_put]
  split <;> rfl

private theorem entry?_remove_eq (d : Database) (now : Int) (key k : String) :
    Database.entry? now k (d.remove key) = if k = key then none else d.entry? now k := by
  rw [Database.entry?, get?_remove]
  split <;> rfl

theorem AgreeOn.put (h : AgreeOn T K d d') (key : String) (e : Entry) :
    AgreeOn T K (d.put key e) (d'.put key e) where
  leeway := h.leeway
  entries t ht k hk := by
    rw [entry?_put_eq, entry?_put_eq, h.entries t ht k hk]
    simp only [Database.serves, h.leeway]

theorem AgreeOn.remove (h : AgreeOn T K d d') (key : String) : AgreeOn T K (d.remove key) (d'.remove key) where
  leeway := h.leeway
  entries t ht k hk := by
    rw [entry?_remove_eq, entry?_remove_eq, h.entries t ht k hk]

theorem AgreeOn.storedState? (h : AgreeOn T K d d') (value : String) :
    d.storedState? value = d'.storedState? value := by
  rw [Database.storedState?, Database.storedState?, h.leeway]

section
variable (ht : T now)
include ht

theorem AgreeOn.text? (h : AgreeOn T K d d') (hkey : K key) : d.text? now key = d'.text? now key := by
  rw [Database.text?, Database.text?, h.entries now ht key hkey]

theorem AgreeOn.texts (h : AgreeOn T K d d') {keys : List String} (hkeys : ∀ key ∈ keys, K key) :
    d.texts now keys = d'.texts now keys :=
  List.map_congr_left fun key hkey => congrArg Option.join (h.text? ht (hkeys key hkey))

theorem AgreeOn.list? (h : AgreeOn T K d d') (hkey : K key) : d.list? now key = d'.list? now key := by
  rw [Database.list?, Database.list?, h.entries now ht key hkey]

end

/-- A change of the data that goes by the entries under some keys at some times, and is made there. -/
def GoesBy (T : Int → Prop) (K : String → Prop) (f : Database → Option Database) : Prop :=
  ∀ {d d'}, AgreeOn T K d d' → Option.Rel (AgreeOn T K) (f d) (f d')

private theorem goesBy_setFor (now : Int) (key value : String) (seconds : Nat) :
    GoesBy T K (Database.setFor? now key value seconds) := by
  intro d d' h
  rw [setFor?, setFor?]
  cases expiry? now seconds with
  | none => exact .none
  | some t => exact .some (h.put key _)

section
variable (ht : T now) (hkey : K key)
include ht hkey

private theorem goesBy_push (item : String) : GoesBy T K (Database.push? now key item) := by
  intro d d' h
  rw [push?, push?, h.list? ht hkey, h.entries now ht key hkey]
  cases d'.list? now key with
  | none => exact .none
  | some xs => exact .some (h.put key _)

private theorem goesBy_trim (first last : Int) : GoesBy T K (Database.trim? now key first last) := by
  intro d d' h
  rw [trim?, trim?, h.list? ht hkey, h.entries now ht key hkey]
  cases d'.list? now key with
  | none => exact .none
  | some xs =>
    refine .some ?_
    dsimp only
    cases slice first last xs with
    | nil => exact h.remove key
    | cons y ys => exact h.put key _

private theorem goesBy_expire (seconds : Nat) : GoesBy T K (Database.expire? now key seconds) := by
  intro d d' h
  rw [expire?, expire?, h.entries now ht key hkey]
  cases expiry? now seconds with
  | none => exact .none
  | some t =>
    refine .some ?_
    cases d'.entry? now key with
    | none => exact h
    | some e => exact h.put key _

end

end Database

/-- Two servers that wait for the same failures, none of them of loading a script, with the same entries at some times
under some keys. -/
structure Server.Matches (T : Int → Prop) (K : String → Prop) (x y : Server) : Prop where
  faults : x.faults = y.faults
  loads : ∀ f ∈ x.faults, f.command ≠ "SCRIPT"
  agree : Database.AgreeOn T K x.database y.database

/-- The same answer, and servers that match after it. -/
def Server.AnswersMatch {α : Type} (T : Int → Prop) (K : String → Prop) (p q : α × Server) : Prop :=
  p.1 = q.1 ∧ Matches T K p.2 q.2

theorem Server.AnswersMatch.elim {α : Type} {T : Int → Prop} {K : String → Prop} {p q : α × Server}
    (h : AnswersMatch T K p q) : ∃ a x y, p = (a, x) ∧ q = (a, y) ∧ Matches T K x y := by
  obtain ⟨hanswer, hmatches⟩ := h
  exact ⟨p.1, p.2, q.2, rfl, Prod.ext hanswer.symm rfl, hmatches⟩

namespace Server.Matches

variable {α : Type} {T : Int → Prop} {K : String → Prop} {now : Int} {x y : Server}

theorem note (h : Matches T K x y) (words words' : List String) : Matches T K (x.note words) (y.note words') :=
  ⟨h.faults, h.loads, h.agree⟩

/-- A command fails on neither of two servers or on both of them, in the same way. -/
theorem fault? (h : Matches T K x y) (name : String) : x.fault? name = none ∧ y.fault? name = none ∨
    ∃ f x' y', x.fault? name = some (f, x') ∧ y.fault? name = some (f, y') ∧ Matches T K x' y' := by
  rw [Server.fault?, Server.fault?, ← h.faults]
  cases x.faults.find? fun f => f.command == name with
  | none => exact .inl ⟨rfl, rfl⟩
  | some f => exact .inr ⟨f, _, _, rfl, rfl, rfl, fun g hg => h.loads g (List.mem_of_mem_erase hg), h.agree⟩

theorem read (h : Matches T K x y) (name : String) {f : Database → Option α} (hf : f x.database = f y.database) :
    AnswersMatch T K (x.read name f) (y.read name f) := by
  rw [Server.read, Server.read]
  rcases h.fault? name with ⟨hx, hy⟩ | ⟨g, x', y', hx, hy, hnext⟩
  · rw [hx, hy, hf]
    cases f y.database <;> exact ⟨rfl, h⟩
  · rw [hx, hy]
    exact ⟨rfl, hnext⟩

theorem write (h : Matches T K x y) (name : String) {f : Database → Option Database} (hf : Database.GoesBy T K f) :
    AnswersMatch T K (x.write name f) (y.write name f) := by
  rw [Server.write, Server.write]
  rcases h.fault? name with ⟨hx, hy⟩ | ⟨g, x', y', hx, hy, hnext⟩
  · rw [hx, hy]
    have hrel := hf h.agree
    revert hrel
    cases f x.database <;> cases f y.database <;> intro hrel
    case none.none => exact ⟨rfl, h⟩
    case some.some =>
      cases hrel with
      | some hd => exact ⟨rfl, h.faults, h.loads, hd⟩
    all_goals cases hrel
  · rw [hx, hy]
    exact ⟨rfl, hnext⟩

theorem writeAll (h : Matches T K x y) {cs : List (String × (Database → Option Database))}
    (hcs : ∀ c ∈ cs, Database.GoesBy T K c.2) : AnswersMatch T K (Server.writeAll cs x) (Server.writeAll cs y) := by
  induction cs generalizing x y with
  | nil => exact ⟨rfl, h⟩
  | cons c cs ih =>
    obtain ⟨name, f⟩ := c
    obtain ⟨a, x', y', hx, hy, hnext⟩ := (h.write name (hcs _ List.mem_cons_self)).elim
    obtain ⟨hrest, hlast⟩ := ih hnext fun c hc => hcs c (List.mem_cons_of_mem _ hc)
    rw [Server.writeAll, Server.writeAll, hx, hy]
    exact ⟨congrArg (fun b => a.bind fun _ => b) hrest, hlast⟩

theorem setNew (h : Matches T K x y) (ht : T now) {key : String} (hkey : K key) (value : String) (seconds : Nat) :
    AnswersMatch T K (x.setNew now key value seconds) (y.setNew now key value seconds) := by
  rw [Server.setNew, Server.setNew]
  rcases h.fault? "SET" with ⟨hx, hy⟩ | ⟨g, x', y', hx, hy, hnext⟩
  · rw [hx, hy, Database.setFor?, Database.setFor?, h.agree.entries now ht key hkey]
    cases expiry? now seconds with
    | none => exact ⟨rfl, h⟩
    | some t =>
      cases (y.database.entry? now key).isSome with
      | true => exact ⟨rfl, h⟩
      | false => exact ⟨rfl, h.faults, h.loads, h.agree.put key _⟩
  · rw [hx, hy]
    exact ⟨rfl, hnext⟩

private theorem fault?_script (h : Matches T K x y) : x.fault? "SCRIPT" = none ∧ y.fault? "SCRIPT" = none := by
  rcases h.fault? "SCRIPT" with hnone | ⟨g, x', y', hx, -, -⟩
  · exact hnone
  · obtain ⟨f, hf, hfx⟩ := Option.map_eq_some_iff.1 hx
    exact absurd (eq_of_beq (List.find?_some (p := fun f : Fault => f.command == "SCRIPT") hf))
      (h.loads f (List.mem_of_find?_eq_some hf))

theorem reload (h : Matches T K x y) : AnswersMatch T K x.reload y.reload := by
  rw [Server.reload, Server.reload, h.fault?_script.1, h.fault?_script.2]
  have hloaded : Matches T K { x with hasScript := true } { y with hasScript := true } := ⟨h.faults, h.loads, h.agree⟩
  dsimp only
  rcases hloaded.fault? "EVALSHA" with ⟨hx, hy⟩ | ⟨g, x', y', hx, hy, hnext⟩
  · rw [hx, hy]
    exact ⟨rfl, hloaded⟩
  · rw [hx, hy]
    exact ⟨rfl, hnext⟩

/-- Where no call fails, a script that has to be loaded is loaded. -/
private theorem reload_of_fault? (h : Matches T K x y) (hx : x.fault? "EVALSHA" = none) :
    x.reload = (.ok (), { x with hasScript := true }) := by
  have hloaded : ({ x with hasScript := true } : Server).fault? "EVALSHA" = none :=
    Option.map_eq_none_iff.2 (Option.map_eq_none_iff.1 hx)
  rw [Server.reload, h.fault?_script.1]
  dsimp only
  rw [hloaded]

theorem symm (h : Matches T K x y) : Matches T K y x :=
  ⟨h.faults.symm, fun f hf => h.loads f (h.faults ▸ hf), h.agree.leeway.symm,
    fun t ht k hk => (h.agree.entries t ht k hk).symm⟩

/-- Whether the script was loaded before makes no difference. -/
theorem call (h : Matches T K x y) : AnswersMatch T K x.call y.call := by
  rw [Server.call, Server.call]
  rcases h.fault? "EVALSHA" with ⟨hx, hy⟩ | ⟨g, x', y', hx, hy, hnext⟩
  · rw [hx, hy, h.reload_of_fault? hx, h.symm.reload_of_fault? hy]
    cases x.hasScript <;> cases y.hasScript <;> exact ⟨rfl, h.faults, h.loads, h.agree⟩
  · rw [hx, hy]
    dsimp only
    split
    · exact hnext.reload
    · exact ⟨rfl, hnext⟩

theorem replaceOpen (h : Matches T K x y) (ht : T now) {key : String} (hkey : K key) (value : String) (seconds : Nat) :
    AnswersMatch T K (x.replaceOpen now key value seconds) (y.replaceOpen now key value seconds) := by
  obtain ⟨a, x', y', hx, hy, hnext⟩ := (h.read "GET" (h.agree.text? ht hkey)).elim
  rw [Server.replaceOpen, Server.replaceOpen, hx, hy]
  rcases a with e | _ | current
  · exact ⟨rfl, hnext⟩
  · exact ⟨rfl, hnext⟩
  · dsimp only
    rw [hnext.agree.storedState?]
    cases y'.database.storedState? current with
    | none => exact ⟨rfl, hnext⟩
    | some state =>
      dsimp only
      cases isOpenState state with
      | false => exact ⟨rfl, hnext⟩
      | true =>
        obtain ⟨b, x'', y'', hx', hy', hlast⟩ :=
          (hnext.write "SET" (Database.goesBy_setFor now key value seconds)).elim
        simp only [if_true, hx', hy']
        cases b <;> exact ⟨rfl, hlast⟩

/-- A command on keys where two servers have the same entries is answered the same by both. -/
theorem answer (h : Matches T K x y) (ht : T now) {c : Command} (hc : ∀ key ∈ c.keys, K key) :
    AnswersMatch T K (Server.answer now c x) (Server.answer now c y) := by
  cases c with
  | get key => exact (h.note _ _).read "GET" (h.agree.text? ht (hc key List.mem_cons_self))
  | getMany keys => exact (h.note _ _).read "MGET" (congrArg some (h.agree.texts ht hc))
  | range key => exact (h.note _ _).read "LRANGE" (h.agree.list? ht (hc key List.mem_cons_self))
  | setNew key value seconds => exact (h.note _ _).setNew ht (hc key List.mem_cons_self) value seconds
  | enlist key item last seconds =>
    have hkey : K key := hc key List.mem_cons_self
    apply (((((h.note _ _).note _ _).note _ _).note _ _).note _ _).writeAll
    intro c hc
    simp only [List.mem_cons, List.not_mem_nil, or_false] at hc
    rcases hc with rfl | rfl | rfl
    · exact Database.goesBy_push ht hkey item
    · exact Database.goesBy_trim ht hkey 0 last.toInt
    · exact Database.goesBy_expire ht hkey seconds
  | replaceOpen key value seconds =>
    obtain ⟨a, x', y', hx, hy, hnext⟩ := h.call.elim
    rw [Server.answer, Server.answer, hx, hy]
    cases a with
    | error e => exact ⟨rfl, hnext⟩
    | ok _ => exact (hnext.note _ _).replaceOpen ht (hc key List.mem_cons_self) value seconds

end Server.Matches

end JobLedger.Redis
