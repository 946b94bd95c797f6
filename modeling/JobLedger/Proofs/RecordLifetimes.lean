import JobLedger.Proofs.Footprints
import JobLedger.Proofs.RecordText
import JobLedger.Proofs.RedisKeys
import JobLedger.Proofs.Traffic

/-!
# How long records live

Clients that share a server and the prefix of their keys create records and replace them, with their commands
interleaved in any way. What is under the key of a record was put there by the last command for it that was accepted,
and lives from then on as long as its state says. A record that has ended stays as it is until it expires: the server
refuses to replace it, by the name of its state in the text that it keeps.
-/
namespace JobLedger.Redis

namespace Message

/-- Whether a command to keep a record was accepted. -/
def isAccepted : Message → Bool
  | ⟨_, _, _, .setNew _ _ _, .ok set⟩ => set
  | ⟨_, _, _, .replaceOpen _ _ _, .ok word⟩ => word == "OK"
  | _ => false

/-- A command for a call put a record under its key, with the time to live of its state. -/
inductive Puts (settings : Nat → Settings) : Message → JobRecord → Prop where
  | created (i : Nat) (time : Instant) (r : JobRecord) :
    Puts settings ⟨i, .create r, time, .setNew ((settings i).recordKey r.id.text) r.encode
      ((settings i).secondsFor r.state), .ok true⟩ r
  | updated (i : Nat) (time now : Instant) (r : JobRecord) :
    Puts settings ⟨i, .update r, time, .replaceOpen ((settings i).recordKey r.id.text) (r.stamped now).encode
      ((settings i).secondsFor r.state), .ok "OK"⟩ (r.stamped now)

/-- The job whose record a call is to keep. -/
def job? (m : Message) : Option JobId :=
  match m.call with
  | .create r | .update r => some r.id
  | _ => none

/-- When a record expires that a command put under its key. -/
def expiry (settings : Nat → Settings) (m : Message) (r : JobRecord) : Int :=
  m.time.millis + (settings m.client).secondsFor r.state * 1000

variable {settings : Nat → Settings} {m : Message} {r r' : JobRecord}

private theorem Puts.isAccepted (h : m.Puts settings r) : m.isAccepted = true := by
  cases h <;> rfl

private theorem not_puts (h : m.isAccepted = false) (r : JobRecord) : ¬ m.Puts settings r := by
  intro hp
  rw [hp.isAccepted] at h
  cases h

theorem Puts.job? (h : m.Puts settings r) : m.job? = some r.id := by
  cases h <;> rfl

/-- A command puts a record of one job. -/
theorem Puts.id_eq (h : m.Puts settings r) (h' : m.Puts settings r') : r.id = r'.id :=
  Option.some.inj (h.job?.symm.trans h'.job?)

end Message

/-- A command has put a record under its key: it was new there, or in the place of an open record. -/
structure Replacement (settings : Nat → Settings) (s : Settings) (m : Message) (r : JobRecord) (x y : Database) :
    Prop where
  puts : m.Puts settings r
  free : (∃ value seconds, m.command = .setNew (s.recordKey r.id.text) value seconds) ∧
      x.entry? m.time.millis (s.recordKey r.id.text) = none ∨
    ∃ current state, x.text? m.time.millis (s.recordKey r.id.text) = some (some current) ∧
      x.storedState? current = some state ∧ Server.isOpenState state = true
  put : y = x.put (s.recordKey r.id.text) ⟨.text r.encode, some (m.expiry settings r)⟩

section
variable {settings : Nat → Settings} {s : Settings} {i : Nat} {c : StoreCall} {q : Command} {time : Instant}
  {a : q.Answer} {x y : Server}

private theorem JobState.name_ne_consent (state : JobState) : state.name ≠ "OK" := by
  cases state <;> decide

/-- A command puts a record under its key, or it leaves the keys of records alone. -/
private theorem replaces_or_keeps (hshared : (settings i).keyPrefix = s.keyPrefix)
    (hq : (Command.terms (settings i) (fun _ => True) c).MayAsk q)
    (hx : ∀ id current, x.database.text? time.millis (s.recordKey id) = some (some current) →
      ∃ r : JobRecord, current = r.encode)
    (ha : Server.answer time.millis q x = (a, y)) :
    (∃ r, Replacement settings s ⟨i, c, time, q, a⟩ r x.database y.database) ∨
      Message.isAccepted ⟨i, c, time, q, a⟩ = false ∧
        ∀ id, y.database.entries.get? (s.recordKey id) = x.database.entries.get? (s.recordKey id) := by
  have hkey : (settings i).recordKey = s.recordKey := Settings.recordKey_congr hshared
  have hy : (Server.answer time.millis q x).2 = y := congrArg Prod.snd ha
  cases q with
  | get _ | getMany _ | range _ => exact .inr ⟨rfl, fun id => by rw [← hy, Server.answer_database_of_changes rfl]⟩
  | enlist key item last seconds =>
    refine .inr ⟨rfl, fun id => ?_⟩
    obtain ⟨rfl, -⟩ := hq
    rw [← hy, Server.answer_get?_of_not_mem]
    rw [Settings.indexKey_congr hshared]
    exact fun hmem => s.recordKey_ne_indexKey id (List.mem_singleton.1 hmem)
  | setNew key value seconds =>
    obtain ⟨r, rfl, rfl, rfl, rfl⟩ := hq
    cases a with
    | error e => exact .inr ⟨rfl, fun id => by rw [Server.answer_error ha (by rintro _ _ _ _ ⟨⟩)]⟩
    | ok set =>
      rcases Server.answer_setNew ha with ⟨rfl, -, hdatabase⟩ | ⟨rfl, hnone, expiry, hexpiry, hdatabase⟩
      · exact .inr ⟨rfl, fun id => by rw [hdatabase]⟩
      · refine .inl ⟨r, .created i time r, .inl ⟨⟨_, _, by rw [hkey]⟩, hkey ▸ hnone⟩, ?_⟩
        rw [hdatabase, hkey, (expiry?_eq_some hexpiry).1]
        rfl
  | replaceOpen key value seconds =>
    obtain ⟨r, now, rfl, rfl, rfl, rfl⟩ := hq
    cases a with
    | error e => exact .inr ⟨rfl, fun id => by rw [Server.answer_error ha (by rintro _ _ _ _ ⟨⟩)]⟩
    | ok word =>
      rcases Server.answer_replaceOpen ha with ⟨rfl, -, hdatabase⟩ | ⟨current, state, hcurrent, hstate, hcase⟩
      · exact .inr ⟨rfl, fun id => by rw [hdatabase]⟩
      · rcases hcase with ⟨-, rfl, hdatabase⟩ | ⟨hopen, rfl, expiry, hexpiry, hdatabase⟩
        · -- What is refused is answered with a state, which is no word of consent.
          rw [hkey] at hcurrent
          obtain ⟨r', rfl⟩ := hx _ _ hcurrent
          rw [JobRecord.eq_name_of_storedState?_encode hstate] at ha ⊢
          exact .inr ⟨beq_false_of_ne (JobState.name_ne_consent _), fun id => by rw [hdatabase]⟩
        · refine .inl ⟨r.stamped now, .updated i time now r, .inr ⟨current, state, hkey ▸ hcurrent, hstate, hopen⟩, ?_⟩
          rw [hdatabase, hkey, (expiry?_eq_some hexpiry).1]
          rfl

end

namespace Traffic

/-- The last command that put a record of a job under its key. -/
def LastPut (settings : Nat → Settings) (messages : List Message) (m : Message) (r : JobRecord) : Prop :=
  ∃ earlier later, messages = earlier ++ m :: later ∧ m.Puts settings r ∧
    ∀ m' ∈ later, ∀ r', m'.Puts settings r' → r'.id ≠ r.id

variable {settings : Nat → Settings} {s : Settings} {messages : List Message} {m m' : Message} {r : JobRecord}
  {t u : Traffic}

private theorem LastPut.of_puts (h : m.Puts settings r) : LastPut settings (messages ++ [m]) m r :=
  ⟨messages, [], rfl, h, fun _ hm => by cases hm⟩

private theorem LastPut.concat (h : LastPut settings messages m r) (hm' : ∀ r', m'.Puts settings r' → r'.id ≠ r.id) :
    LastPut settings (messages ++ [m']) m r := by
  obtain ⟨earlier, later, rfl, hputs, hlater⟩ := h
  refine ⟨earlier, later ++ [m'], by simp, hputs, fun m hm => ?_⟩
  rcases List.mem_append.1 hm with hm | hm
  · exact hlater m hm
  · rw [List.mem_singleton.1 hm]
    exact hm'

/-- What is under the key of a record was put there by the last command for it that was accepted. -/
def Traced (settings : Nat → Settings) (s : Settings) (t : Traffic) : Prop :=
  ∀ id e, t.server.database.entries.get? (s.recordKey id) = some e →
    ∃ m r, LastPut settings t.messages m r ∧ r.id.text = id ∧ e = ⟨.text r.encode, some (m.expiry settings r)⟩

theorem Traced.text? (h : t.Traced settings s) {now : Int} {id current : String}
    (hcurrent : t.server.database.text? now (s.recordKey id) = some (some current)) :
    ∃ r : JobRecord, current = r.encode := by
  obtain ⟨expiry, he⟩ := Database.text?_eq_some.1 hcurrent
  obtain ⟨m, r, -, -, hr⟩ := h id _ (Database.entry?_eq_some.1 he).1
  exact ⟨r, Content.text.inj (congrArg Entry.content hr)⟩

/-- The traffic of clients that share a prefix. -/
structure Sound (settings : Nat → Settings) (s : Settings) (t : Traffic) : Prop where
  keeps : t.KeepsTerms settings fun _ => True
  traced : t.Traced settings s

private theorem sound_start {x : Server} (hx : ∀ id, x.database.entries.get? (s.recordKey id) = none) (now : Instant) :
    (start now x).Sound settings s := by
  refine ⟨keepsTerms_start now x, fun id e he => ?_⟩
  rw [start, hx id] at he
  cases he

section
variable (hshared : ∀ i, (settings i).keyPrefix = s.keyPrefix)
include hshared

/-- A command that is sent puts a record under its key, or leaves the keys of records alone. -/
private theorem Sound.replaces_or_keeps (h : t.Sound settings s) {i : Nat} {c : StoreCall} {q : Command}
    {k : q.Answer → Exchange c.Answer} {faults : List Fault} (hi : t.pending.get? i = some ⟨c, .ask q k⟩)
    {a : q.Answer} {y : Server} (ha : Server.answer t.clock.millis q { t.server with faults := faults } = (a, y)) :
    (∃ r, Replacement settings s ⟨i, c, t.clock, q, a⟩ r t.server.database y.database) ∨
      Message.isAccepted ⟨i, c, t.clock, q, a⟩ = false ∧
        ∀ id, y.database.entries.get? (s.recordKey id) = t.server.database.entries.get? (s.recordKey id) :=
  Redis.replaces_or_keeps (x := { t.server with faults := faults }) (hshared i) (h.keeps.mayAsk hi)
    (fun _ _ hcurrent => h.traced.text? hcurrent) ha

private theorem Sound.traced_moved (h : t.Sound settings s) (hu : Moved settings t u) : u.Traced settings s := by
  cases hu with
  | stay => exact h.traced
  | tick now => exact h.traced
  | call c hi =>
    intro id e he
    rw [proceed_server] at he
    rw [proceed_messages]
    exact h.traced id e he
  | command hi ha =>
    intro id e he
    rw [proceed_server] at he
    rw [proceed_messages]
    rcases h.replaces_or_keeps hshared hi ha with ⟨r, hr⟩ | ⟨hrefused, hkept⟩
    · rw [hr.put, Database.get?_put] at he
      split at he
      · rename_i hid
        exact ⟨_, r, .of_puts hr.puts, s.recordKey_injective hid.symm, (Option.some.inj he).symm⟩
      · rename_i hid
        obtain ⟨m, r', hlast, rfl, rfl⟩ := h.traced id e he
        refine ⟨m, r', hlast.concat fun r'' hr'' heq => hid ?_, rfl, rfl⟩
        rw [← heq, hr''.id_eq hr.puts]
    · rw [hkept] at he
      obtain ⟨m, r', hlast, hid, he⟩ := h.traced id e he
      exact ⟨m, r', hlast.concat fun r'' hr'' => (Message.not_puts hrefused r'' hr'').elim, hid, he⟩

theorem Sound.moved (h : t.Sound settings s) (hu : Moved settings t u) : u.Sound settings s := by
  refine ⟨h.keeps.moved (fun _ => trivial) (fun _ _ q _ _ _ _ _ => ?_) hu, h.traced_moved hshared hu⟩
  cases q with
  | range key => exact fun _ _ _ _ => trivial
  | _ => exact trivial

theorem Sound.run (h : t.Sound settings s) (moves : List Move) : (t.run settings moves).Sound settings s :=
  run_induction h (fun _ _ hu => hu.moved hshared) moves

/-- No command puts a record in the place of one that has ended and not expired. -/
private theorem Sound.stays_moved (h : t.Sound settings s) (hu : Moved settings t u) {expiry : Int}
    (hr : r.isTerminal = true)
    (hstored : t.server.database.entries.get? (s.recordKey r.id.text) = some ⟨.text r.encode, some expiry⟩)
    {sent : List Message} (hsent : u.messages = t.messages ++ sent)
    (hcreated : ∀ m ∈ sent, ∀ value seconds, m.command = .setNew (s.recordKey r.id.text) value seconds →
      m.time.millis < expiry) :
    u.server.database.entries.get? (s.recordKey r.id.text) = some ⟨.text r.encode, some expiry⟩ := by
  cases hu with
  | stay => exact hstored
  | tick now => exact hstored
  | call c hi => rwa [proceed_server]
  | @command i c q k faults hi a y ha =>
    rw [proceed_messages] at hsent
    obtain rfl := List.append_cancel_left hsent
    rw [proceed_server]
    rcases h.replaces_or_keeps hshared hi ha with ⟨r', hr'⟩ | ⟨-, hkept⟩
    · rw [hr'.put, Database.get?_put, if_neg]
      · exact hstored
      intro hkey
      rcases hr'.free with ⟨⟨value, seconds, hcommand⟩, hnone⟩ | ⟨current, state, hcurrent, hstate, hopen⟩
      · -- A record that has not expired is there, so none is created in its place.
        rw [← hkey] at hcommand hnone
        have hlive : t.clock.millis < expiry := hcreated _ (List.mem_singleton_self _) value seconds hcommand
        have hthere := Database.entry?_eq_some.2 ⟨hstored, t.server.database.serves_of_lt _ hlive⟩
        rw [hnone] at hthere
        cases hthere
      · -- A record that can be replaced is open.
        rw [← hkey] at hcurrent
        obtain ⟨expiry', hentry⟩ := Database.text?_eq_some.1 hcurrent
        have hsame := (Database.entry?_eq_some.1 hentry).1
        rw [hstored] at hsame
        obtain rfl : r.encode = current := Content.text.inj (congrArg Entry.content (Option.some.inj hsame))
        rw [JobRecord.eq_name_of_storedState?_encode hstate, JobState.isOpenState_name,
          show r.state.isTerminal = true from hr] at hopen
        cases hopen
    · rw [hkept]
      exact hstored

theorem Sound.stays (h : t.Sound settings s) {expiry : Int} (hr : r.isTerminal = true)
    (hstored : t.server.database.entries.get? (s.recordKey r.id.text) = some ⟨.text r.encode, some expiry⟩)
    {moves : List Move} {sent : List Message} (hsent : (t.run settings moves).messages = t.messages ++ sent)
    (hcreated : ∀ m ∈ sent, ∀ value seconds, m.command = .setNew (s.recordKey r.id.text) value seconds →
      m.time.millis < expiry) :
    (t.run settings moves).server.database.entries.get? (s.recordKey r.id.text) =
      some ⟨.text r.encode, some expiry⟩ := by
  induction moves generalizing t sent with
  | nil => exact hstored
  | cons x xs ih =>
    have hmoved := moved_move settings t x
    obtain ⟨first, hfirst⟩ := hmoved.messages
    obtain ⟨rest, hrest⟩ := messages_run settings (t.move settings x) xs
    have hboth : sent = first ++ rest := by
      rw [run_cons, hrest, hfirst, List.append_assoc] at hsent
      exact (List.append_cancel_left hsent).symm
    subst hboth
    have hkept := h.stays_moved hshared hmoved hr hstored hfirst fun m hm =>
      hcreated m (List.mem_append_left rest hm)
    exact ih (h.moved hshared hmoved) hkept hrest fun m hm => hcreated m (List.mem_append_right first hm)

/-- What is under the key of a record is the text of a record of its own job, as the last command for it that was
accepted has put it there, and expires when the time to live of its state is over since then. A record that has ended
stays there unchanged, whatever is sent and refused, at least until a command to create it anew comes after it has
expired. -/
theorem records_live_by_last_put {x : Server} (hx : ∀ id, x.database.entries.get? (s.recordKey id) = none)
    (now : Instant) (moves : List Move) (ht : (start now x).run settings moves = t) :
    (∀ id e, t.server.database.entries.get? (s.recordKey id) = some e →
      ∃ m r, LastPut settings t.messages m r ∧ r.id.text = id ∧ e = ⟨.text r.encode, some (m.expiry settings r)⟩) ∧
    ∀ (r : JobRecord) (expiry : Int), r.isTerminal = true →
      t.server.database.entries.get? (s.recordKey r.id.text) = some ⟨.text r.encode, some expiry⟩ →
      ∀ (more : List Move) (sent : List Message), (t.run settings more).messages = t.messages ++ sent →
        (∀ m ∈ sent, ∀ value seconds, m.command = .setNew (s.recordKey r.id.text) value seconds →
          m.time.millis < expiry) →
        (t.run settings more).server.database.entries.get? (s.recordKey r.id.text) =
          some ⟨.text r.encode, some expiry⟩ := by
  subst ht
  have hsound := (sound_start hx now).run hshared moves
  exact ⟨hsound.traced, fun r expiry hr hstored more sent hsent hcreated =>
    hsound.stays hshared hr hstored hsent hcreated⟩

end

/-- A job as it is created, for samples. -/
def sampleRecord : JobRecord := .accepted ⟨1⟩ { name := "n", timeoutSeconds := 60 } ⟨"a"⟩ .epoch

/-- The job with its result. -/
def sampleOutcome : JobRecord := sampleRecord.marked .epoch (.succeeded (.int 1))

/-- A job is created, and then one client is about to keep its result and another to keep its cancellation. -/
def sampleMoves : List Move :=
  [.call 0 (.create sampleRecord), .command 0 [], .command 0 [], .call 1 (.update sampleOutcome),
    .call 2 (.update (sampleRecord.marked .epoch .cancelled))]

/-- The server keeps the result, while the cancellation is still to come. -/
private theorem sample_result_is_stored {t : Traffic}
    (ht : (start .epoch .empty).run (fun _ => {}) (sampleMoves ++ [.command 1 []]) = t) :
    t.server.database.entries.get? (Settings.recordKey {} sampleOutcome.id.text) =
        some ⟨.text sampleOutcome.encode, some 604800000⟩ ∧
      ∃ k, t.pending.get? 2 = some ⟨.update (sampleRecord.marked .epoch .cancelled),
        .ask (.replaceOpen (Settings.recordKey {} sampleRecord.id.text) (sampleRecord.marked .epoch .cancelled).encode
          604800) k⟩ := by
  obtain ⟨w, hw⟩ : ∃ w, (start .epoch .empty).run (fun _ => {}) sampleMoves = w := ⟨_, rfl⟩
  have hclock : w.clock = .epoch := hw ▸ rfl
  have hcurrent : w.server.database.text? w.clock.millis (Settings.recordKey {} sampleRecord.id.text) =
      some (some sampleRecord.encode) := hw ▸ rfl
  obtain ⟨k, hresult⟩ : ∃ k, w.pending.get? 1 = some ⟨.update sampleOutcome,
      .ask (.replaceOpen (Settings.recordKey {} sampleRecord.id.text) sampleOutcome.encode 604800) k⟩ :=
    hw ▸ ⟨_, rfl⟩
  obtain ⟨k', hcancellation⟩ : ∃ k, w.pending.get? 2 = some ⟨.update (sampleRecord.marked .epoch .cancelled),
      .ask (.replaceOpen (Settings.recordKey {} sampleRecord.id.text) (sampleRecord.marked .epoch .cancelled).encode
        604800) k⟩ := hw ▸ ⟨_, rfl⟩
  obtain ⟨x, hanswer, -, hx⟩ : ∃ x, Server.answer w.clock.millis
      (.replaceOpen (Settings.recordKey {} sampleRecord.id.text) sampleOutcome.encode 604800)
      { w.server with faults := [] } = (.ok "OK", x) ∧ x.faults = [] ∧ x.database =
        w.server.database.put (Settings.recordKey {} sampleRecord.id.text)
          ⟨.text sampleOutcome.encode, some 604800000⟩ :=
    Server.answer_replaceOpen_of_open rfl hcurrent (JobRecord.storedState?_encode (r := sampleRecord) rfl _) (by decide)
      (by rw [hclock]; rfl)
  rw [run_append, hw, run_cons, run_nil, move_command _ hresult] at ht
  subst ht
  constructor
  · rw [proceed_server, send, hanswer, hx, Database.get?_put]
    exact if_pos rfl
  · refine ⟨k', ?_⟩
    rw [proceed_pending_of_ne _ _ _ _ (by decide)]
    exact hcancellation

/-- The cancellation, which comes a second later, does not change it. -/
theorem late_cancellation_changes_nothing : ∃ t u : Traffic,
    (start .epoch .empty).run (fun _ => {}) (sampleMoves ++ [.command 1 []]) = t ∧
      t.run (fun _ => {}) [.tick ⟨1, 0, by decide, by decide⟩, .command 2 []] = u ∧
      (∃ m, u.messages = t.messages ++ [m] ∧ m.call = .update (sampleRecord.marked .epoch .cancelled)) ∧
      u.server.database.entries.get? (Settings.recordKey {} sampleOutcome.id.text) =
        some ⟨.text sampleOutcome.encode, some 604800000⟩ := by
  obtain ⟨t, ht⟩ : ∃ t, (start .epoch .empty).run (fun _ => {}) (sampleMoves ++ [.command 1 []]) = t := ⟨_, rfl⟩
  obtain ⟨hstored, k, hpending⟩ := sample_result_is_stored ht
  obtain ⟨a, hlate⟩ := @messages_move_command { t with clock := ⟨1, 0, by decide, by decide⟩ } (fun _ => {}) 2 _ _ k
    hpending []
  obtain ⟨-, hstays⟩ := @records_live_by_last_put (fun _ => {}) {} t (fun _ => rfl) .empty (fun _ => rfl) .epoch _ ht
  refine ⟨t, _, ht, rfl, ⟨_, hlate, rfl⟩,
    hstays sampleOutcome 604800000 rfl hstored _ _ hlate fun m hm value seconds h => ?_⟩
  obtain rfl := List.mem_singleton.1 hm
  cases h

end Traffic

end JobLedger.Redis
