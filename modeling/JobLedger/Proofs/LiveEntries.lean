import JobLedger.Proofs.Footprints
import JobLedger.Proofs.RedisCalls

/-!
# What a server answers from

Without failures that wait for commands, the answers of a server are determined by the entries that have not
expired: neither the words that it received, nor a script that was loaded, nor what expired tells two servers
apart.
-/
namespace JobLedger.Redis

namespace Database

variable {now : Int} {d d' : Database}

/-- The same entries are there at a time, with the same leeway. -/
structure AgreeAt (now : Int) (d d' : Database) : Prop where
  leeway : d.leeway = d'.leeway
  entries : ∀ key, d.entry? now key = d'.entry? now key

private theorem AgreeAt.agreeOn (h : AgreeAt now d d') : AgreeOn (fun t => t = now) (fun _ => True) d d' where
  leeway := h.leeway
  entries := by
    rintro t rfl key -
    exact h.entries key

end Database

/-- Two servers without failures that wait for commands, with the same entries at a time. -/
structure Server.Alike (now : Int) (x y : Server) : Prop where
  left : x.faults = []
  right : y.faults = []
  agree : Database.AgreeAt now x.database y.database

namespace Server

variable {α : Type} {now : Int} {x y : Server}

/-- Every conversation at one time goes the same with two servers that have all entries in common then. -/
theorem Matches.run (h : Matches (fun t => t = now) (fun _ => True) x y) (d : Exchange α) :
    AnswersMatch (fun t => t = now) (fun _ => True) (d.run (Server.answer now) x) (d.run (Server.answer now) y) := by
  induction d generalizing x y with
  | done a => exact ⟨rfl, h⟩
  | ask c k ih =>
    obtain ⟨ha, hnext⟩ := h.answer rfl (c := c) fun _ _ => trivial
    rw [Dialogue.run_ask, Dialogue.run_ask, ha]
    exact ih _ hnext

private theorem Alike.toMatches (h : Alike now x y) : Matches (fun t => t = now) (fun _ => True) x y where
  faults := h.left.trans h.right.symm
  loads f hf := by
    rw [h.left] at hf
    cases hf
  agree := h.agree.agreeOn

/-- So does every call of a store. -/
theorem Alike.perform {time : Instant} (h : Alike time.millis x y) (s : Settings) (c : StoreCall) :
    ((store s).perform time c x).1 = ((store s).perform time c y).1 :=
  (h.toMatches.run (Exchange.ofCall s time c)).1

end Server

section
variable {s : Settings} {now : Instant} {x y : Server}

theorem Server.answer_get_eq (hx : x.faults = []) (t : Int) (key : String) : Server.answer t (.get key) x =
    ((x.database.text? t key).elim (.error .keyValue) .ok, x.note ["GET", key]) :=
  Server.read_eq (s := x.note ["GET", key]) hx "GET" (Database.text? t key)

private theorem Server.answer_range_eq (hx : x.faults = []) (t : Int) (key : String) : Server.answer t (.range key) x =
    ((x.database.list? t key).elim (.error .keyValue) .ok, x.note ["LRANGE", key, "0", "-1"]) :=
  Server.read_eq (s := x.note ["LRANGE", key, "0", "-1"]) hx "LRANGE" (Database.list? t key)

/-- A lookup goes by what is under the key of the record. -/
theorem perform_get_congr (hx : x.faults = []) (hy : y.faults = []) {id : JobId}
    (h : x.database.entry? now.millis (s.recordKey id.text) = y.database.entry? now.millis (s.recordKey id.text)) :
    ((store s).perform now (.get id) x).1 = ((store s).perform now (.get id) y).1 := by
  have htext : x.database.text? now.millis (s.recordKey id.text) =
      y.database.text? now.millis (s.recordKey id.text) := by rw [Database.text?, Database.text?, h]
  show ((Exchange.get s id).run _ x).1 = ((Exchange.get s id).run _ y).1
  rw [Exchange.get, Exchange.run_send_of_answer (Server.answer_get_eq hx _ _),
    Exchange.run_send_of_answer (Server.answer_get_eq hy _ _), htext]
  rcases y.database.text? now.millis (s.recordKey id.text) with _ | _ | value <;> rfl

/-- The records in the index go by what is under its key and under the keys of the records that it names. -/
private theorem run_indexed_congr (hx : x.faults = []) (hy : y.faults = []) {t : Int}
    (hlist : x.database.list? t s.indexKey = y.database.list? t s.indexKey)
    (htexts : ∀ ids, x.database.list? t s.indexKey = some ids →
      x.database.texts t (ids.map s.recordKey) = y.database.texts t (ids.map s.recordKey)) :
    ((Exchange.indexed s).run (Server.answer t) x).1 = ((Exchange.indexed s).run (Server.answer t) y).1 := by
  cases hids : x.database.list? t s.indexKey with
  | none =>
    rw [Exchange.indexed, Exchange.run_send_of_answer (Server.answer_range_eq hx _ _),
      Exchange.run_send_of_answer (Server.answer_range_eq hy _ _), ← hlist, hids]
    rfl
  | some ids =>
    have hother := hlist.symm.trans hids
    rw [indexed_answer hids (answered_indexed hx (Option.isSome_of_eq_some hids)),
      indexed_answer hother (answered_indexed hy (Option.isSome_of_eq_some hother)), htexts ids hids]

/-- So do listings and searches. -/
theorem perform_indexed_congr (hx : x.faults = []) (hy : y.faults = [])
    (hlist : x.database.list? now.millis s.indexKey = y.database.list? now.millis s.indexKey)
    (htexts : ∀ ids, x.database.list? now.millis s.indexKey = some ids →
      x.database.texts now.millis (ids.map s.recordKey) = y.database.texts now.millis (ids.map s.recordKey)) :
    (∀ q, ((store s).perform now (.list q) x).1 = ((store s).perform now (.list q) y).1) ∧
      ∀ t, ((store s).perform now (.findExpired t) x).1 = ((store s).perform now (.findExpired t) y).1 := by
  have hindexed := run_indexed_congr hx hy hlist htexts
  have hsame : ∀ f : List JobRecord → List JobRecord,
      ((Exchange.indexed s >>= fun rs => .done (rs.map f)).run (Server.answer now.millis) x).1 =
        ((Exchange.indexed s >>= fun rs => .done (rs.map f)).run (Server.answer now.millis) y).1 := by
    intro f
    rw [Dialogue.run_bind, Dialogue.run_bind, hindexed]
    rfl
  exact ⟨fun q => hsame q.select, fun t => hsame fun rs => rs.filter fun r => r.isExpired t⟩

end

end JobLedger.Redis
