import JobLedger.Store.Memory

/-!
# Memories in order

A memory keeps each record once and under its own identifier. Every call of the store leaves it so.
-/
namespace JobLedger

namespace Table

variable {κ α : Type} [DecidableEq κ]

private theorem mem_keys_put {k l : κ} {a : α} {es : List (κ × α)} :
    l ∈ (put k a es).map Prod.fst ↔ l = k ∨ l ∈ es.map Prod.fst := by
  induction es with
  | nil => simp [put]
  | cons e es ih =>
    obtain ⟨m, b⟩ := e
    by_cases h : m = k
    · simp [put, h]
    · rw [put, if_neg h, List.map_cons, List.mem_cons, ih, List.map_cons, List.mem_cons]
      exact or_left_comm

theorem nodup_keys_put (k : κ) (a : α) {es : List (κ × α)} (h : (es.map Prod.fst).Nodup) :
    ((put k a es).map Prod.fst).Nodup := by
  induction es with
  | nil => simp [put]
  | cons e es ih =>
    obtain ⟨m, b⟩ := e
    obtain ⟨hm, hes⟩ := List.nodup_cons.mp h
    by_cases hk : m = k
    · simpa [put, hk] using h
    · rw [put, if_neg hk, List.map_cons, List.nodup_cons, mem_keys_put]
      exact ⟨fun hmem => hmem.elim hk hm, ih hes⟩

private theorem mem_put {k : κ} {a : α} {e : κ × α} {es : List (κ × α)} (h : e ∈ put k a es) :
    e = (k, a) ∨ e ∈ es := by
  induction es with
  | nil => exact .inl (List.mem_singleton.mp h)
  | cons d es ih =>
    obtain ⟨m, b⟩ := d
    rw [put] at h
    split at h
    · exact (List.mem_cons.mp h).imp_right (List.mem_cons_of_mem _)
    · rcases List.mem_cons.mp h with rfl | h
      · exact .inr List.mem_cons_self
      · exact (ih h).imp_right (List.mem_cons_of_mem _)

theorem mem_of_find? {k : κ} {a : α} {es : List (κ × α)} (h : find? k es = some a) : (k, a) ∈ es := by
  induction es with
  | nil => cases h
  | cons e es ih =>
    obtain ⟨m, b⟩ := e
    rw [find?] at h
    split at h
    · rename_i hm
      rw [hm, Option.some.inj h]
      exact List.mem_cons_self
    · exact List.mem_cons_of_mem _ (ih h)

theorem find?_of_mem {k : κ} {a : α} {es : List (κ × α)} (hes : (es.map Prod.fst).Nodup) (h : (k, a) ∈ es) :
    find? k es = some a := by
  induction es with
  | nil => cases h
  | cons e es ih =>
    obtain ⟨m, b⟩ := e
    obtain ⟨hm, hes⟩ := List.nodup_cons.mp hes
    rcases List.mem_cons.mp h with heq | h
    · obtain ⟨rfl, rfl⟩ := Prod.mk.inj heq
      exact if_pos rfl
    · have hne : m ≠ k := fun heq => hm (List.mem_map.mpr ⟨(k, a), h, heq.symm⟩)
      rw [find?, if_neg hne, ih hes h]

end Table

namespace Memory

/-- The memory has no record of the job. -/
def Lacks (m : Memory) (id : JobId) : Prop := m.records.get? id = none

/-- Every record is kept once and under its own identifier. -/
structure Keyed (m : Memory) : Prop where
  distinct : (m.records.entries.map Prod.fst).Nodup
  own : ∀ e ∈ m.records.entries, e.2.id = e.1

theorem empty_keyed : empty.Keyed := ⟨List.nodup_nil, fun _ h => absurd h List.not_mem_nil⟩

theorem Keyed.insert {m : Memory} (h : m.Keyed) (r : JobRecord) : Keyed ⟨m.records.insert r.id r⟩ := by
  refine ⟨Table.nodup_keys_put r.id r h.distinct, ?_⟩
  intro e he
  rcases Table.mem_put he with rfl | he
  · rfl
  · exact h.own e he

theorem Keyed.id_eq {m : Memory} (h : m.Keyed) {id : JobId} {r : JobRecord} (hr : m.records.get? id = some r) :
    r.id = id :=
  h.own (id, r) (Table.mem_of_find? hr)

/-- Every record that a listing of the memory shows can be looked up. -/
theorem Keyed.get?_of_mem {m : Memory} (h : m.Keyed) {r : JobRecord} (hr : r ∈ m.records.values) :
    m.records.get? r.id = some r := by
  obtain ⟨⟨id, r'⟩, he, rfl⟩ := List.mem_map.mp hr
  have hid : r'.id = id := h.own _ he
  subst hid
  exact Table.find?_of_mem h.distinct he

end Memory

end JobLedger
