import JobLedger.Proofs.SharedServer

/-!
# Jobs that have ended on a shared server

Whatever results are set, also ones that cannot be read back, all commands keep to the keys and the texts of
records, and what is written for a result tells of this result. From then on the record stays under its key,
whatever is sent, until it expires.
-/
namespace JobLedger

/-- The contract of an operation that relies only on being given records of the jobs that it asks for. -/
def Request.looseContract (o : Operation) : Contract interface where
  MayAsk
    | .store (.update r) => ∀ now, o.Writes (r.stamped now)
    | _ => True
  Answers
    | .store (.get id), a => ∀ r : JobRecord, a = .ok (some r) → r.id = id
    | _, _ => True

section
variable {o : Operation}

private theorem loose_setResult (c : JobContext) (payload : Json) :
    (c.setResult payload).Honours (Request.looseContract (.setResult c payload)) fun _ => True := by
  refine ⟨trivial, fun a ha => ?_⟩
  rcases a with e | _ | r
  · exact trivial
  · exact ⟨trivial, fun _ _ => trivial⟩
  · have hid : r.id = c.job := ha r rfl
    show Dialogue.Honours _ _ (if r.isTerminal then _ else _)
    cases hopen : r.isTerminal with
    | true => exact ⟨trivial, fun _ _ => trivial⟩
    | false =>
      refine ⟨trivial, fun now _ => ?_⟩
      simp only [Dialogue.andThen, JobRecord.mark_of_open hopen (.succeeded payload) now]
      refine ⟨fun now' => ⟨hid, rfl, rfl, rfl⟩, fun b _ => ?_⟩
      cases b with
      | ok _ => exact ⟨trivial, fun _ _ => trivial⟩
      | error e => cases e <;> first | exact trivial | exact ⟨trivial, fun _ _ => trivial⟩

private theorem loose_mayAsk (ho : ∀ r, o.Writes r) (q : TaskStep) :
    (TaskStep.contract (Request.looseContract o)).MayAsk q := by
  cases q with
  | wait w => trivial
  | request q =>
    cases q with
    | store c =>
      cases c with
      | update r => exact fun _ => ho _
      | _ => trivial
    | _ => trivial

/-- Every operation honours the loose contract: only a result that is set is bound by it. -/
private theorem loose_operation (o : Operation) :
    o.task.Honours (TaskStep.contract (Request.looseContract o)) fun _ => True := by
  cases o with
  | setResult c payload => exact honours_act (loose_setResult c payload)
  | _ =>
    refine Dialogue.honours_of_mayAsk (loose_mayAsk fun r => ?_) _
    trivial

end

namespace Redis

section
variable {s : Settings} {P : JobRecord → Prop} {o : Operation}

private theorem id_of_decode_encode {r r' : JobRecord} (h : Exchange.decode r.encode = .ok r') : r'.id = r.id := by
  rw [Exchange.decode, JobRecord.decode?_encode] at h
  cases hp : r.rereadPayload? with
  | none =>
    rw [hp] at h
    cases h
  | some p =>
    rw [hp] at h
    obtain rfl := Except.ok.inj h
    rfl

private theorem loose_indexed : (Exchange.indexed s).Honours (Command.contract s P o) fun _ => True := by
  refine ⟨rfl, ?_⟩
  rintro _ ⟨items, rfl⟩
  cases items with
  | nil => exact trivial
  | cons item items =>
    refine ⟨⟨_, rfl⟩, ?_⟩
    rintro _ ⟨values, rfl, -⟩
    exact trivial

private theorem loose_ofCall {c : StoreCall} (hc : (Request.looseContract o).MayAsk (.store c)) (now : Instant) :
    (Exchange.ofCall s now c).Honours (Command.contract s (fun _ => True) o)
      ((Request.looseContract o).Answers (.store c)) := by
  cases c with
  | create r =>
    refine ⟨⟨r, rfl, rfl, trivial⟩, ?_⟩
    rintro _ ⟨_ | _, rfl⟩
    · exact trivial
    · refine ⟨rfl, ?_⟩
      rintro _ rfl
      exact trivial
  | get id =>
    refine ⟨⟨id, rfl⟩, ?_⟩
    rintro _ (rfl | ⟨r, rfl, hkey, -⟩)
    · rintro r ⟨⟩
    · intro r' hr'
      cases hd : Exchange.decode r.encode with
      | error e =>
        rw [hd] at hr'
        cases hr'
      | ok r'' =>
        rw [hd] at hr'
        obtain rfl : r'' = r' := Option.some.inj (Except.ok.inj hr')
        rw [id_of_decode_encode hd, s.recordKey_text_injective hkey]
  | update r =>
    refine ⟨⟨r.stamped now, rfl, rfl, rfl, trivial, hc now⟩, ?_⟩
    rintro _ (rfl | rfl | ⟨state, rfl⟩) <;> exact trivial
  | findExpired t =>
    apply Dialogue.Honours.bind
    exact loose_indexed.mono fun _ _ => trivial
  | list q =>
    apply Dialogue.Honours.bind
    exact loose_indexed.mono fun _ _ => trivial

/-- Every client honours the loose contract from its start. -/
theorem begins_loose (s : Settings) (o : Operation) : Network.Begins s (fun _ => True) (fun _ _ => True) o := by
  refine honours_start_of (fun c hc now => loose_ofCall hc now) (fun q hq a => ?_) (loose_operation o)
  cases q with
  | store c => exact hq.elim
  | _ => trivial

end

/-- When the record of an ended job expires that was put into the server by a command. -/
def Sent.expiry (s : Settings) (e : Sent) : Int := e.time.millis + Settings.seconds s.terminalTtl * 1000

/-- The command put the record of a job that has ended in the place of its open one. -/
structure Sent.Ends (s : Settings) (e : Sent) (r : JobRecord) : Prop where
  isTerminal : r.isTerminal = true
  command : e.command = .replaceOpen (s.recordKey r.id.text) r.encode (s.secondsFor r.state)
  hasReplaced : e.hasReplaced = true

private theorem Stores.get?_of_ends {s : Settings} {P : JobRecord → Prop} {x y : Server} (h : Stores s P x.database)
    {e : Sent}
    {r : JobRecord} (he : e.Ends s r) (ha : Server.answer e.time.millis e.command x = (e.answer, y)) :
    y.database.entries.get? (s.recordKey r.id.text) = some ⟨.text r.encode, some (e.expiry s)⟩ := by
  obtain ⟨hr, hcommand, hreplaced⟩ := he
  obtain ⟨i, o, t, c, a⟩ := e
  obtain rfl : c = .replaceOpen (s.recordKey r.id.text) r.encode (s.secondsFor r.state) := hcommand
  cases a with
  | error e => cases hreplaced
  | ok word =>
    obtain rfl : word = "OK" := eq_of_beq hreplaced
    rcases Server.answer_replaceOpen ha with ⟨hempty, -, -⟩ | ⟨current, state, hcurrent, hstate, hcase⟩
    · exact absurd hempty (by decide)
    · rcases hcase with ⟨-, hword, -⟩ | ⟨-, -, t', ht', hy⟩
      · obtain ⟨r', rfl, -, -⟩ := h.of_text? hcurrent
        rw [JobRecord.eq_name_of_storedState?_encode hstate] at hword
        cases hr' : r'.state <;> simp [hr', JobState.name] at hword
      · rw [s.secondsFor_of_terminal hr] at ht'
        rw [hy, Database.get?_put, if_pos rfl, (expiry?_eq_some ht').1]
        rfl

namespace Network

section
variable {s : Settings} {P : JobRecord → Prop} {Q : (o : Operation) → o.Result → Prop} {w v : Network}

/-- The records of ended jobs are as they were put there, unless a command came after they expired. -/
def KeepsEnded (s : Settings) (w : Network) : Prop :=
  ∀ (before : List Sent) (e : Sent) (after : List Sent) (r : JobRecord), w.log = before ++ e :: after → e.Ends s r →
    (∀ e' ∈ after, e'.time.millis < e.expiry s) →
    w.host.store.database.entries.get? (s.recordKey r.id.text) = some ⟨.text r.encode, some (e.expiry s)⟩

private theorem Sound.keepsEnded_moved (h : w.Sound s P Q) (hw : w.KeepsEnded s) (hv : Moved s w v)
    (hok : v.NoneFailed) :
    v.KeepsEnded s := by
  cases hv with
  | stay => exact hw
  | tick now => exact hw
  | begin o => exact hw
  | @request i o q k hi =>
    intro before e after r hlog he hafter
    rw [Host.answer_store (h.honours i _ hi).1]
    exact hw before e after r hlog he hafter
  | wake hi => exact hw
  | @command i o c k hi =>
    intro before e after r hlog he hafter
    cases ha : Server.answer w.host.clock.millis c w.host.store with
    | mk a y =>
      have hsent : (⟨i, o, w.host.clock, c, a⟩ : Sent) ∈ (w.send i o c).2.log := by simp [send, ha]
      have haok : a.isOk = true := hok _ hsent
      simp only [send, ha] at hlog ⊢
      rcases List.eq_nil_or_concat after with rfl | ⟨others, last, rfl⟩
      · obtain ⟨-, hlast⟩ := List.append_inj' hlog rfl
        obtain rfl := (List.cons.inj hlast).1
        exact h.stores.get?_of_ends he ha
      · rw [List.concat_eq_append, ← List.cons_append, ← List.append_assoc] at hlog
        obtain ⟨hbefore, hlast⟩ := List.append_inj' hlog rfl
        obtain rfl := (List.cons.inj hlast).1
        have hlater : w.host.clock.millis < e.expiry s :=
          hafter ⟨i, o, w.host.clock, c, a⟩ (by simp)
        have hearlier : ∀ e' ∈ others, e'.time.millis < e.expiry s := fun e' he' => hafter e' (by simp [he'])
        have hstored := hw before e others r hbefore he hearlier
        cases a with
        | error _ => cases haok
        | ok b => exact ended_answer he.isTerminal hlater hstored (h.honours i _ hi).1 ha

theorem Sound.keepsEnded_run (h : w.Sound s P Q) (hw : w.KeepsEnded s) {moves : List Move}
    (hok : (w.run s moves).NoneFailed) (hbegins : ∀ o ∈ (w.run s moves).operations, Begins s P Q o) :
    (w.run s moves).KeepsEnded s := by
  induction moves generalizing w with
  | nil => exact hw
  | cons x xs ih =>
    have hgrows := grows_run (s := s) (w.move s x) xs
    have hmove := hgrows.noneFailed hok
    exact ih (h.moved (moved_move w x) hmove fun o ho => hbegins o (hgrows.operations.subset ho))
      (h.keepsEnded_moved hw (moved_move w x) hmove) hok hbegins

/-- What is put into the server for a result that is set. -/
theorem Sound.ends_of_setResult (h : w.Sound s P Q) {e : Sent} (he : e ∈ w.log) {c : JobContext} {payload : Json}
    (ho : e.operation = .setResult c payload) (hreplaced : e.hasReplaced = true) :
    ∃ r, e.Ends s r ∧ r.id = c.job ∧ r.state = .succeeded ∧ r.percentComplete = 100 ∧
      r.resultPayload = some payload := by
  have hfits := h.fits e he
  obtain ⟨i, o, t, command, a⟩ := e
  cases command with
  | replaceOpen key value seconds =>
    obtain ⟨r, rfl, rfl, rfl, -, hwrites⟩ := hfits
    obtain rfl : o = .setResult c payload := ho
    obtain ⟨hid, hstate, hpercent, hpayload⟩ := hwrites
    refine ⟨r, ⟨?_, rfl, hreplaced⟩, hid, hstate, hpercent, hpayload⟩
    rw [JobRecord.isTerminal, hstate]
    rfl
  | _ => cases hreplaced

end

end Network

end Redis

end JobLedger
