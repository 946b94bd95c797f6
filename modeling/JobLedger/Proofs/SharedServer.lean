import JobLedger.Proofs.CommandContract

/-!
# Clients that share a server

However the commands of clients are interleaved, the server holds records of the kind that is agreed on, and every
client honours its contract to its end, if no command fails and every client honours it at its start.
-/
namespace JobLedger

namespace Redis.Network

variable {s : Settings} {w v : Network} {x : Server}

/-- The operations under way. -/
def operations (w : Network) : List Operation := w.clients.map Client.operation

/-- What has been sent and what is under way does not go away. -/
structure Grows (w v : Network) : Prop where
  log : w.log <+: v.log
  operations : w.operations <+: v.operations

theorem Grows.refl (w : Network) : Grows w w := ⟨List.prefix_rfl, List.prefix_rfl⟩

theorem Grows.trans {u : Network} (h : Grows w v) (h' : Grows v u) : Grows w u :=
  ⟨h.log.trans h'.log, h.operations.trans h'.operations⟩

theorem Grows.noneFailed (h : Grows w v) (hv : v.NoneFailed) : w.NoneFailed := fun e he => hv e (h.log.subset he)

/-- A client that goes on keeps its operation. -/
private theorem map_operation_set {cs : List Client} {i : Nat} {o : Operation}
    {d d' : Dialogue ClientStep.interface o.Result} (h : cs[i]? = some ⟨o, d⟩) :
    (cs.set i ⟨o, d'⟩).map Client.operation = cs.map Client.operation := by
  obtain ⟨hlt, hi⟩ := List.getElem?_eq_some_iff.1 h
  rw [List.map_set]
  refine List.ext_getElem? fun j => ?_
  by_cases hij : i = j
  · subst hij
    simp [hlt, hi]
  · rw [List.getElem?_set_ne hij]

private theorem operations_set {cs : List Client} {i : Nat} {o : Operation}
    {d d' : Dialogue ClientStep.interface o.Result} (h : cs[i]? = some ⟨o, d⟩) :
    cs.map Client.operation <+: (cs.set i ⟨o, d'⟩).map Client.operation := by
  simp only [map_operation_set h, List.prefix_rfl]

private theorem Moved.grows (h : Moved s w v) : Grows w v := by
  cases h with
  | stay => exact .refl w
  | tick now => exact ⟨List.prefix_rfl, List.prefix_rfl⟩
  | begin o => exact ⟨List.prefix_rfl, by simp [operations]⟩
  | request h => exact ⟨List.prefix_rfl, operations_set h⟩
  | wake h => exact ⟨List.prefix_rfl, operations_set h⟩
  | command h => exact ⟨List.prefix_append _ _, operations_set h⟩

theorem moved_move (w : Network) (x : Move) : Moved s w (w.move s x) := by
  cases x with
  | tick now => exact .tick now
  | begin o => exact .begin o
  | step i => exact moved_advance i w

theorem grows_run (w : Network) (moves : List Move) : Grows w (w.run s moves) := by
  induction moves generalizing w with
  | nil => exact .refl w
  | cons x xs ih => exact (moved_move w x).grows.trans (ih _)

section
variable {P : JobRecord → Prop} {Q : (o : Operation) → o.Result → Prop}

/-- The operation honours the contract of a client from its start. -/
def Begins (s : Settings) (P : JobRecord → Prop) (Q : (o : Operation) → o.Result → Prop) (o : Operation) : Prop :=
  (Client.start s o).rest.Honours (ClientStep.contract s P o) (Q o)

/-- The server holds records of a kind, every client honours its contract, and what was sent kept to it. -/
structure Sound (s : Settings) (P : JobRecord → Prop) (Q : (o : Operation) → o.Result → Prop) (w : Network) :
    Prop where
  stores : Stores s P w.host.store.database
  honours : ∀ (i : Nat) (c : Client), w.clients[i]? = some c →
    c.rest.Honours (ClientStep.contract s P c.operation) (Q c.operation)
  fits : ∀ e ∈ w.log, e.command.Fits s P e.operation

theorem start_sound (now : Instant) (hx : Stores s P x.database) : (start now x).Sound s P Q where
  stores := hx
  honours i c h := by simp [start] at h
  fits e he := by cases he

/-- The clients honour their contracts, if the one that went on does. -/
private theorem Sound.honours_set (h : w.Sound s P Q) {i : Nat} {o : Operation}
    {d : Dialogue ClientStep.interface o.Result}
    (hd : d.Honours (ClientStep.contract s P o) (Q o)) (j : Nat) (c : Client)
    (hc : (w.clients.set i ⟨o, d⟩)[j]? = some c) :
    c.rest.Honours (ClientStep.contract s P c.operation) (Q c.operation) := by
  rw [List.getElem?_set] at hc
  split at hc
  · split at hc
    · obtain rfl := Option.some.inj hc
      exact hd
    · cases hc
  · exact h.honours j c hc

theorem Sound.moved (h : w.Sound s P Q) (hv : Moved s w v) (hok : v.NoneFailed)
    (hbegins : ∀ o ∈ v.operations, Begins s P Q o) : v.Sound s P Q := by
  cases hv with
  | stay => exact h
  | tick now => exact ⟨h.stores, h.honours, h.fits⟩
  | begin o =>
    refine ⟨h.stores, fun i c hc => ?_, h.fits⟩
    have hc : (w.clients ++ [Client.start s o])[i]? = some c := hc
    rw [List.getElem?_append] at hc
    split at hc
    · exact h.honours i c hc
    · have ho : o ∈ operations { w with clients := w.clients ++ [Client.start s o] } := by
        simp [operations, Client.start]
      obtain rfl : Client.start s o = c := List.mem_singleton.1 (List.mem_of_getElem? hc) ▸ rfl
      exact hbegins o ho
  | @request i o q k hi =>
    obtain ⟨hask, hk⟩ := h.honours i _ hi
    refine ⟨?_, h.honours_set (hk _ ?_), h.fits⟩
    · rw [Host.answer_store hask]
      exact h.stores
    · cases q <;> trivial
  | wake hi => exact ⟨h.stores, h.honours_set ((h.honours _ _ hi).2 () trivial), h.fits⟩
  | @command i o c k hi =>
    obtain ⟨hfits, hk⟩ := h.honours i _ hi
    cases ha : Server.answer w.host.clock.millis c w.host.store with
    | mk a y =>
      have hlast : (⟨i, o, w.host.clock, c, a⟩ : Sent) ∈ (w.send i o c).2.log := by simp [send, ha]
      have haok : a.isOk = true := hok _ hlast
      cases a with
      | error e => cases haok
      | ok b =>
        obtain ⟨hstores, hyields⟩ := h.stores.answer hfits ha
        refine ⟨by simpa [send, ha] using hstores, h.honours_set ?_, ?_⟩
        · rw [show (w.send i o c).1 = .ok b by simp [send, ha]]
          exact hk _ hyields
        · intro e he
          rcases List.mem_append.1 he with he | he
          · exact h.fits e he
          · rw [List.mem_singleton.1 he]
            exact hfits

theorem Sound.run (h : w.Sound s P Q) {moves : List Move} (hok : (w.run s moves).NoneFailed)
    (hbegins : ∀ o ∈ (w.run s moves).operations, Begins s P Q o) : (w.run s moves).Sound s P Q := by
  induction moves generalizing w with
  | nil => exact h
  | cons x xs ih =>
    have hgrows := grows_run (s := s) (w.move s x) xs
    exact ih (h.moved (moved_move w x) (hgrows.noneFailed hok) fun o ho => hbegins o (hgrows.operations.subset ho)) hok
      hbegins

end

end Redis.Network

end JobLedger
