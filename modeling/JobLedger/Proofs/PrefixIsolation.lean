import JobLedger.Proofs.Footprints
import JobLedger.Proofs.RedisKeys
import JobLedger.Proofs.Traffic

/-!
# Stores with different prefixes

The keys of a store begin with its prefix and end in an identifier or in the word for its index, so stores with
different prefixes have no key in common, even if one prefix goes on where the other ends or holds a key of it. Stores
on one server do not notice those with another prefix then: what they answer is what they answer if the calls of the
others are left out. The index of a store names only identifiers, so all keys that its calls read are its own.
-/
namespace JobLedger.Redis

/-- A text that names a job. -/
def IsIdentifierText (item : String) : Prop := ∃ id : JobId, item = id.text

/-- A key of the stores with a prefix. -/
def IsKeyUnder (p key : String) : Prop :=
  ∃ s : Settings, s.keyPrefix = p ∧ ((∃ id : JobId, key = s.recordKey id.text) ∨ key = s.indexKey)

theorem IsKeyUnder.unique {p q key : String} (hp : IsKeyUnder p key) (hq : IsKeyUnder q key) : p = q := by
  obtain ⟨s, rfl, hs⟩ := hp
  obtain ⟨t, rfl, ht⟩ := hq
  rcases hs with ⟨a, rfl⟩ | rfl <;> rcases ht with ⟨b, h⟩ | h
  · exact (Settings.recordKey_text_eq h).1
  · exact absurd h (Settings.recordKey_text_ne_indexKey s t a)
  · exact absurd h.symm (Settings.recordKey_text_ne_indexKey t s b)
  · exact Settings.indexKey_eq h

/-- The commands of a call concern keys under the prefix of its store. -/
private theorem isKeyUnder_of_mayAsk {s : Settings} {c : StoreCall} {q : Command}
    (h : (Command.terms s IsIdentifierText c).MayAsk q) : ∀ key ∈ q.keys, IsKeyUnder s.keyPrefix key := by
  intro key hkey
  refine ⟨s, rfl, ?_⟩
  cases q with
  | get k =>
    obtain ⟨id, rfl⟩ := h
    exact .inl ⟨id, List.mem_singleton.1 hkey⟩
  | getMany keys =>
    obtain ⟨items, rfl, hitems⟩ := h
    obtain ⟨item, hitem, rfl⟩ := List.mem_map.1 hkey
    obtain ⟨id, rfl⟩ := hitems item hitem
    exact .inl ⟨id, rfl⟩
  | range k =>
    obtain rfl : k = s.indexKey := h
    exact .inr (List.mem_singleton.1 hkey)
  | setNew k value seconds =>
    obtain ⟨r, -, rfl, -⟩ := h
    exact .inl ⟨r.id, List.mem_singleton.1 hkey⟩
  | enlist k item last seconds =>
    obtain ⟨rfl, -⟩ := h
    exact .inr (List.mem_singleton.1 hkey)
  | replaceOpen k value seconds =>
    obtain ⟨r, now, -, rfl, -⟩ := h
    exact .inl ⟨r.id, List.mem_singleton.1 hkey⟩

/-! ## What the indexes name -/

private theorem mem_of_mem_slice {α : Type} {first last : Int} {xs : List α} {a : α} (h : a ∈ slice first last xs) :
    a ∈ xs :=
  List.mem_of_mem_take (List.mem_of_mem_drop h)

namespace Database

/-- The indexes of some stores name only jobs. -/
def IndexesJobs (settings : Nat → Settings) (d : Database) : Prop :=
  ∀ i items expiry, d.entries.get? (settings i).indexKey = some ⟨.list items, expiry⟩ →
    ∀ item ∈ items, IsIdentifierText item

variable {settings : Nat → Settings} {d : Database} {now : Int} {key : String}

private theorem indexesJobs_empty (settings : Nat → Settings) : IndexesJobs settings .empty := by
  intro i items expiry h
  cases h

theorem IndexesJobs.put (h : d.IndexesJobs settings) {e : Entry}
    (he : ∀ items expiry, e = ⟨.list items, expiry⟩ → ∀ item ∈ items, IsIdentifierText item) :
    IndexesJobs settings (d.put key e) := by
  intro i items expiry hget
  rw [get?_put] at hget
  split at hget
  · exact he items expiry (Option.some.inj hget)
  · exact h i items expiry hget

theorem IndexesJobs.remove (h : d.IndexesJobs settings) : IndexesJobs settings (d.remove key) := by
  intro i items expiry hget
  rw [get?_remove] at hget
  split at hget
  · cases hget
  · exact h i items expiry hget

theorem IndexesJobs.list? (h : d.IndexesJobs settings) {i : Nat} {items : List String}
    (hlist : d.list? now (settings i).indexKey = some items) : ∀ item ∈ items, IsIdentifierText item := by
  unfold Database.list? at hlist
  split at hlist
  · cases hlist
    exact fun item hitem => by cases hitem
  · rename_i xs hentry
    cases hlist
    obtain ⟨⟨content, expiry⟩, he, rfl⟩ := Option.map_eq_some_iff.1 hentry
    exact h i items expiry (entry?_eq_some.1 he).1
  · cases hlist

end Database

namespace Command

variable {settings : Nat → Settings} {i : Nat} {c : StoreCall} {q : Command} {now : Int}

/-- Calls put only identifiers into an index. -/
private theorem preserves_indexesJobs (hq : (terms (settings i) IsIdentifierText c).MayAsk q)
    {f : Database → Option Database} (hf : f ∈ q.changes now) :
    Database.Preserves (Database.IndexesJobs settings) f := by
  have hset : ∀ key value seconds,
      Database.Preserves (Database.IndexesJobs settings) (Database.setFor? now key value seconds) := by
    intro key value seconds d d' hd h
    obtain ⟨t, -, rfl⟩ := Option.map_eq_some_iff.1 h
    exact hd.put fun items expiry he => by cases he
  cases q with
  | get _ | getMany _ | range _ => cases hf
  | setNew key value seconds =>
    obtain rfl := List.mem_singleton.1 hf
    exact hset key value seconds
  | replaceOpen key value seconds =>
    obtain rfl := List.mem_singleton.1 hf
    exact hset key value seconds
  | enlist key item last seconds =>
    obtain ⟨rfl, hitem⟩ := hq
    simp only [changes, List.mem_cons, List.not_mem_nil, or_false] at hf
    rcases hf with rfl | rfl | rfl
    case inl =>
      intro d d' hd h
      obtain ⟨xs, hxs, rfl⟩ := Option.map_eq_some_iff.1 h
      refine hd.put fun items expiry he => ?_
      cases he
      exact List.forall_mem_cons.2 ⟨hitem, hd.list? hxs⟩
    case inr.inl =>
      intro d d' hd h
      obtain ⟨xs, hxs, rfl⟩ := Option.map_eq_some_iff.1 h
      split
      · exact hd.remove
      · refine hd.put fun items expiry he item hmem => ?_
        cases he
        exact hd.list? hxs item (mem_of_mem_slice hmem)
    case inr.inr =>
      intro d d' hd h
      obtain ⟨t, -, rfl⟩ := Option.map_eq_some_iff.1 h
      split
      · rename_i e hentry
        refine hd.put fun items expiry he => ?_
        obtain ⟨content, expiry'⟩ := e
        cases he
        exact hd i items expiry' (Database.entry?_eq_some.1 hentry).1
      · exact hd

/-- What an index answers to a call names only jobs. -/
private theorem answers_of_indexesJobs (hq : (terms (settings i) IsIdentifierText c).MayAsk q) {x y : Server}
    (hx : x.database.IndexesJobs settings) {a : q.Answer} (ha : Server.answer now q x = (a, y)) :
    (terms (settings i) IsIdentifierText c).Answers q a := by
  cases q with
  | range key =>
    obtain rfl : key = (settings i).indexKey := hq
    rintro items rfl
    exact hx.list? (Server.answer_range ha).1
  | _ => exact trivial

end Command

namespace Traffic

/-- Traffic whose calls keep to their terms and whose indexes name only jobs. -/
structure Tidy (settings : Nat → Settings) (t : Traffic) : Prop where
  keeps : t.KeepsTerms settings IsIdentifierText
  indexes : t.server.database.IndexesJobs settings

variable {settings : Nat → Settings} {q : String} {t u : Traffic}

private theorem tidy_start {x : Server} (hx : x.database.IndexesJobs settings) (now : Instant) :
    (start now x).Tidy settings := ⟨keepsTerms_start now x, hx⟩

theorem Tidy.moved (h : t.Tidy settings) (hu : Moved settings t u) : u.Tidy settings := by
  refine ⟨h.keeps.moved (fun id => ⟨id, rfl⟩) (fun i c q a y faults hq ha => ?_) hu, ?_⟩
  · exact Command.answers_of_indexesJobs (x := { t.server with faults := faults }) hq h.indexes ha
  · cases hu with
    | stay => exact h.indexes
    | tick now => exact h.indexes
    | call c hi =>
      rw [proceed_server]
      exact h.indexes
    | @command i c q k faults hi a y ha =>
      rw [proceed_server]
      have hpreserved : (Server.answer t.clock.millis q { t.server with faults := faults }).2.database.IndexesJobs
          settings :=
        Server.answer_preserves (fun f hf => Command.preserves_indexesJobs (h.keeps.mayAsk hi) hf) h.indexes
      rwa [ha] at hpreserved

/-! ## Leaving out the calls under a prefix -/

/-- Whether a client has a store with another prefix. -/
def isApart (settings : Nat → Settings) (q : String) (i : Nat) : Bool := (settings i).keyPrefix != q

/-- Whether a move stays if the calls of the stores with a prefix are left out. -/
def Move.isApart (settings : Nat → Settings) (q : String) : Move → Bool
  | .tick _ => true
  | .call i _ | .command i _ => Traffic.isApart settings q i

/-- Traffic looks to the stores with other prefixes as if the calls under a prefix had been left out. -/
structure Hides (settings : Nat → Settings) (q : String) (t u : Traffic) : Prop where
  clock : t.clock = u.clock
  agree : Database.AgreeOn (fun _ => True) (fun key => ¬ IsKeyUnder q key) t.server.database u.server.database
  pending : ∀ i, isApart settings q i = true → t.pending.get? i = u.pending.get? i
  replies : t.replies.filter (fun r => isApart settings q r.client) = u.replies

theorem Hides.refl (t : Traffic) (ht : t.replies = []) : Hides settings q t t where
  clock := rfl
  agree := ⟨rfl, fun _ _ _ _ => rfl⟩
  pending _ _ := rfl
  replies := by rw [ht]; rfl

section
variable {i : Nat} {c : StoreCall} (d : Exchange c.Answer)

/-- A client that stays goes on in the same way. -/
theorem Hides.proceed (h : Hides settings q t u) (hi : isApart settings q i = true) :
    Hides settings q (t.proceed i c d) (u.proceed i c d) where
  clock := by simp only [proceed_clock, h.clock]
  agree := by simpa only [proceed_server] using h.agree
  pending j hj := by
    by_cases hji : j = i
    · subst hji
      exact proceed_pending_self t j c d u
    · rw [proceed_pending_of_ne t i c d hji, proceed_pending_of_ne u i c d hji, h.pending j hj]
  replies := by
    cases d with
    | done a =>
      have hstays : [(⟨i, c, a⟩ : Reply)].filter (fun r => isApart settings q r.client) = [⟨i, c, a⟩] :=
        List.filter_cons_of_pos hi
      refine (List.filter_append _ _).trans ?_
      rw [h.replies, hstays]
      rfl
    | ask q k => exact h.replies

/-- What a client does that is left out is not seen. -/
private theorem Hides.proceed_left (h : Hides settings q t u) (hi : isApart settings q i = false) :
    Hides settings q (t.proceed i c d) u where
  clock := by rw [proceed_clock, h.clock]
  agree := by simpa only [proceed_server] using h.agree
  pending j hj := by
    rw [proceed_pending_of_ne t i c d, h.pending j hj]
    rintro rfl
    rw [hj] at hi
    cases hi
  replies := by
    cases d with
    | done a =>
      refine (List.filter_append _ _).trans ?_
      rw [h.replies, List.filter_cons_of_neg (by simpa using hi)]
      exact List.append_nil _
    | ask q k => exact h.replies

end

section
variable {i : Nat} {c : StoreCall} {command : Command} {faults : List Fault}

/-- A command of a client that stays is answered in the same way. -/
theorem Hides.send (h : Hides settings q t u) (hc : (Command.terms (settings i) IsIdentifierText c).MayAsk command)
    (hi : isApart settings q i = true) (hloads : ∀ f ∈ faults, f.command ≠ "SCRIPT") :
    (t.send i c command faults).1 = (u.send i c command faults).1 ∧
      Hides settings q (t.send i c command faults).2 (u.send i c command faults).2 := by
  have hkeys : ∀ key ∈ command.keys, ¬ IsKeyUnder q key := fun key hkey hq =>
    bne_iff_ne.1 hi ((isKeyUnder_of_mayAsk hc key hkey).unique hq)
  have hmatches : Server.Matches (fun _ => True) (fun key => ¬ IsKeyUnder q key)
      { t.server with faults := faults } { u.server with faults := faults } := ⟨rfl, hloads, h.agree⟩
  obtain ⟨ha, hnext⟩ : Server.AnswersMatch _ _ (Server.answer t.clock.millis command { t.server with faults := faults })
      (Server.answer t.clock.millis command { u.server with faults := faults }) := hmatches.answer trivial hkeys
  rw [Traffic.send, Traffic.send, ← h.clock]
  exact ⟨ha, rfl, hnext.agree, h.pending, h.replies⟩

/-- A command of a client that is left out concerns none of the keys of the others. -/
private theorem Hides.send_left (h : Hides settings q t u)
    (hc : (Command.terms (settings i) IsIdentifierText c).MayAsk command) (hi : isApart settings q i = false) :
    Hides settings q (t.send i c command faults).2 u := by
  have hleeway : (t.send i c command faults).2.server.database.leeway = t.server.database.leeway :=
    Server.answer_leeway t.clock.millis command { t.server with faults := faults }
  refine ⟨h.clock, ⟨hleeway.trans h.agree.leeway, fun now _ key hkey => ?_⟩, h.pending, h.replies⟩
  refine Eq.trans (Database.entry?_congr hleeway (Server.answer_get?_of_not_mem fun hmem => hkey ?_) now)
    (h.agree.entries now trivial key hkey)
  have hunder := isKeyUnder_of_mayAsk hc key hmem
  rwa [bne_eq_false_iff_eq.1 hi] at hunder

end

/-- A move of a client that stays, in both. -/
theorem Hides.move (h : Hides settings q t u) (ht : t.Tidy settings) {x : Move} (hx : x.isApart settings q = true)
    (hloads : ∀ i faults, x = .command i faults → ∀ f ∈ faults, f.command ≠ "SCRIPT") :
    Hides settings q (t.move settings x) (u.move settings x) := by
  cases x with
  | tick now => exact ⟨rfl, h.agree, h.pending, h.replies⟩
  | call i c =>
    have hpending := h.pending i hx
    rw [Traffic.move, Traffic.move, Table.contains, Table.contains, hpending, h.clock]
    split
    · exact h
    · exact h.proceed _ hx
  | command i faults =>
    cases hp : t.pending.get? i with
    | none =>
      have hpu := (h.pending i hx).symm.trans hp
      simp only [Traffic.move, hp, hpu]
      exact h
    | some p =>
      have hpu := (h.pending i hx).symm.trans hp
      obtain ⟨c, _ | ⟨command, k⟩⟩ := p
      · simp only [Traffic.move, hp, hpu]
        exact h
      · rw [move_command settings hp, move_command settings hpu]
        obtain ⟨ha, hsent⟩ := h.send (ht.keeps.mayAsk hp) hx (hloads i faults rfl)
        rw [ha]
        exact hsent.proceed _ hx

/-- A move of a client that is left out. -/
private theorem Hides.move_left (h : Hides settings q t u) (ht : t.Tidy settings) {x : Move}
    (hx : x.isApart settings q = false) : Hides settings q (t.move settings x) u := by
  cases x with
  | tick now => cases hx
  | call i c =>
    simp only [Traffic.move]
    split
    · exact h
    · exact h.proceed_left _ hx
  | command i faults =>
    cases hp : t.pending.get? i with
    | none =>
      simp only [Traffic.move, hp]
      exact h
    | some p =>
      obtain ⟨c, _ | ⟨command, k⟩⟩ := p
      · simp only [Traffic.move, hp]
        exact h
      · rw [move_command settings hp]
        exact (h.send_left (ht.keeps.mayAsk hp) hx).proceed_left _ hx

/-- The runs of all clients and of those that stay look the same to these. -/
theorem Hides.run (h : Hides settings q t u) (ht : t.Tidy settings) {moves : List Move}
    (hloads : ∀ i faults, .command i faults ∈ moves → isApart settings q i = true →
      ∀ f ∈ faults, f.command ≠ "SCRIPT") :
    Hides settings q (t.run settings moves) (u.run settings (moves.filter (Move.isApart settings q))) := by
  induction moves generalizing t u with
  | nil => exact h
  | cons x xs ih =>
    have hrest : ∀ i faults, .command i faults ∈ xs → isApart settings q i = true →
        ∀ f ∈ faults, f.command ≠ "SCRIPT" := fun i faults hmem => hloads i faults (List.mem_cons_of_mem x hmem)
    have htidy := ht.moved (moved_move settings t x)
    cases hx : x.isApart settings q with
    | true =>
      rw [List.filter_cons_of_pos hx]
      refine ih (h.move ht hx fun i faults heq => ?_) htidy hrest
      subst heq
      exact hloads i faults List.mem_cons_self hx
    | false =>
      rw [List.filter_cons_of_neg (by simp [hx])]
      exact ih (h.move_left ht hx) htidy hrest

/-- Whatever calls are made to stores with a prefix, and whatever of them fails, the calls to all other stores on the
server are answered as if those calls had not been made. For no key of a record or of an index under one prefix is a
key under another one, no key of a record is one of an index, and records of different jobs have different keys.
(Whether a script has to be loaded depends on all who used it before, so a failure to load one is not counted among
the failures.) -/
theorem other_prefixes_are_not_noticed (q : String) {x : Server} (hx : x.database.IndexesJobs settings) (now : Instant)
    {moves : List Move}
    (hloads : ∀ i faults, .command i faults ∈ moves → isApart settings q i = true →
      ∀ f ∈ faults, f.command ≠ "SCRIPT") :
    ((start now x).run settings moves).replies.filter (fun r => isApart settings q r.client) =
      ((start now x).run settings (moves.filter (Move.isApart settings q))).replies ∧
    (∀ s t : Settings, s.keyPrefix ≠ t.keyPrefix → (∀ a b : JobId, s.recordKey a.text ≠ t.recordKey b.text) ∧
      s.indexKey ≠ t.indexKey) ∧
    (∀ (s t : Settings) (a : JobId), s.recordKey a.text ≠ t.indexKey) ∧
    ∀ (s : Settings) (a b : JobId), a ≠ b → s.recordKey a.text ≠ s.recordKey b.text := by
  refine ⟨((Hides.refl (start now x) rfl).run (tidy_start hx now) hloads).replies, fun s t hst => ⟨?_, ?_⟩,
    Settings.recordKey_text_ne_indexKey, fun s a b hab h => hab (s.recordKey_text_injective h)⟩
  · exact fun a b h => hst (Settings.recordKey_text_eq h).1
  · exact fun h => hst (Settings.indexKey_eq h)

/-- Two stores: the prefix of the second one is the key of a record of the first one. -/
def nestedSettings : Nat → Settings
  | 0 => { keyPrefix := "a" }
  | _ => { keyPrefix := "a:job:00000000-0000-0000-0000-000000000001" }

/-- Both create the job of that record at once, and the first store is asked for it. -/
def nestedMoves : List Move :=
  [.call 0 (.create (.accepted ⟨1⟩ { name := "n", timeoutSeconds := 60 } ⟨"a"⟩ .epoch)),
    .call 1 (.create (.accepted ⟨1⟩ { name := "m", timeoutSeconds := 60 } ⟨"b"⟩ .epoch)),
    .command 1 [], .command 0 [], .command 0 [], .command 1 [], .call 0 (.get ⟨1⟩), .command 0 []]

theorem nested_prefix_is_not_noticed :
    (((start .epoch .empty).run nestedSettings nestedMoves).replies.map Reply.client = [0, 1, 0]) ∧
      ((start .epoch .empty).run nestedSettings nestedMoves).replies.filter
          (fun r => isApart nestedSettings (nestedSettings 1).keyPrefix r.client) =
        ((start .epoch .empty).run nestedSettings
          (nestedMoves.filter (Move.isApart nestedSettings (nestedSettings 1).keyPrefix))).replies := by
  have hfaults : ∀ i faults, .command i faults ∈ nestedMoves →
      isApart nestedSettings (nestedSettings 1).keyPrefix i = true → ∀ f ∈ faults, f.command ≠ "SCRIPT" := by
    intro i faults hmem _ f hf
    simp only [nestedMoves, List.mem_cons, List.not_mem_nil, or_false, reduceCtorEq, false_or,
      Move.command.injEq] at hmem
    rcases hmem with ⟨-, rfl⟩ | ⟨-, rfl⟩ | ⟨-, rfl⟩ | ⟨-, rfl⟩ | ⟨-, rfl⟩ <;> cases hf
  exact ⟨rfl, (other_prefixes_are_not_noticed (nestedSettings 1).keyPrefix
    (Database.indexesJobs_empty nestedSettings) .epoch hfaults).1⟩

end Traffic

end JobLedger.Redis
