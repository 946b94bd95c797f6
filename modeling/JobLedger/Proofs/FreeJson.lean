import JobLedger.Proofs.RecordText
import Mathlib.Order.Defs.LinearOrder
import Mathlib.Data.String.Basic

/-!
# Free JSON that was read

A value that is taken from a document as free JSON has sorted members throughout and is nested no deeper than the
reader goes, so with whole numbers it is read from its own text as it is. Where free JSON may be missing, null means
that it is.
-/
namespace JobLedger.Json

variable {v : Json} {room : Nat}

private theorem everywhereInMembers_iff {p : Json → Prop} {ms : List (String × Json)} :
    EverywhereInMembers p ms ↔ ∀ m ∈ ms, m.2.Everywhere p := by
  induction ms with
  | nil => simp [EverywhereInMembers]
  | cons m ms ih => simp [EverywhereInMembers, ih]

private theorem depthMembers_le_iff {ms : List (String × Json)} :
    depthMembers ms ≤ room ↔ ∀ m ∈ ms, m.2.depth ≤ room := by
  induction ms with
  | nil => simp [depthMembers]
  | cons m ms ih => simp [depthMembers, ih]

private theorem mem_insertMember {α : Type} {name : String} {a : α} {ms : List (String × α)} {m : String × α}
    (h : m ∈ insertMember name a ms) : m = (name, a) ∨ m ∈ ms := by
  induction ms with
  | nil => simpa [insertMember] using h
  | cons l ms ih =>
    obtain ⟨k, w⟩ := l
    rw [insertMember] at h
    split at h
    · rcases List.mem_cons.mp h with h | h
      · exact .inl h
      · exact .inr (List.mem_cons_of_mem _ h)
    split at h
    · exact List.mem_cons.mp h
    · rcases List.mem_cons.mp h with h | h
      · exact .inr (h ▸ List.mem_cons_self)
      · exact (ih h).imp_right (List.mem_cons_of_mem _)

private theorem pairwise_insertMember {α : Type} (name : String) (a : α) {ms : List (String × α)}
    (h : (ms.map Prod.fst).Pairwise (· < ·)) : ((insertMember name a ms).map Prod.fst).Pairwise (· < ·) := by
  induction ms with
  | nil => simp [insertMember]
  | cons l ms ih =>
    obtain ⟨k, w⟩ := l
    rw [List.map_cons, List.pairwise_cons] at h
    obtain ⟨hk, hms⟩ := h
    rw [insertMember]
    split
    case isTrue heq =>
      subst heq
      exact List.pairwise_cons.mpr ⟨hk, hms⟩
    case isFalse hne =>
    split
    case isTrue hlt =>
      refine List.pairwise_cons.mpr ⟨fun n hn => ?_, List.pairwise_cons.mpr ⟨hk, hms⟩⟩
      rcases List.mem_cons.mp hn with rfl | hn
      · exact hlt
      · exact lt_trans hlt (hk n hn)
    case isFalse hge =>
      refine List.pairwise_cons.mpr ⟨fun n hn => ?_, ih hms⟩
      obtain ⟨m, hm, rfl⟩ := List.mem_map.mp hn
      rcases mem_insertMember hm with rfl | hm
      · exact lt_of_le_of_ne (not_lt.mp hge) (Ne.symm hne)
      · exact hk m.1 (List.mem_map_of_mem hm)

/-- Members in order whose values are sorted and not nested too deep. -/
structure AreTidy (room : Nat) (ms : List (String × Json)) : Prop where
  sorted : (ms.map Prod.fst).Pairwise (· < ·)
  tidy : ∀ m ∈ ms, m.2.IsSorted ∧ m.2.depth ≤ room

theorem AreTidy.insertMember {ms : List (String × Json)} (h : AreTidy room ms) (name : String)
    (hv : v.IsSorted ∧ v.depth ≤ room) : AreTidy room (insertMember name v ms) where
  sorted := pairwise_insertMember name v h.sorted
  tidy m hm := by
    rcases mem_insertMember hm with rfl | hm
    · exact hv
    · exact h.tidy m hm

namespace Document

mutual

/-- A value that was read is sorted and within the room for nesting. -/
private theorem isSorted_of_value? : ∀ {d : Document} {room : Nat} {v : Json}, value? room d = some v →
    v.IsSorted ∧ v.depth ≤ room
  | .null, room, v, h | .bool _, room, v, h => by
    rw [value?] at h
    cases h
    exact ⟨trivial, Nat.zero_le _⟩
  | .number _, room, v, h | .string _, room, v, h => by
    rw [value?, Option.map_eq_some_iff] at h
    obtain ⟨_, -, rfl⟩ := h
    exact ⟨trivial, Nat.zero_le _⟩
  | .array _, 0, _, h | .object _, 0, _, h => by
    rw [value?] at h
    cases h
  | .array ds, room + 1, v, h => by
    rw [value?, Option.map_eq_some_iff] at h
    obtain ⟨vs, hvs, rfl⟩ := h
    obtain ⟨hsorted, hdepth⟩ := areSorted_of_items? hvs
    exact ⟨⟨trivial, hsorted⟩, Nat.succ_le_succ hdepth⟩
  | .object ds, room + 1, v, h => by
    rw [value?, Option.map_eq_some_iff] at h
    obtain ⟨ms, hms, rfl⟩ := h
    have htidy := areTidy_of_members? hms ⟨List.Pairwise.nil, nofun⟩
    have hdepth : depthMembers ms ≤ room := depthMembers_le_iff.mpr fun m hm => (htidy.tidy m hm).2
    exact ⟨⟨htidy.sorted, everywhereInMembers_iff.mpr fun m hm => (htidy.tidy m hm).1⟩, Nat.succ_le_succ hdepth⟩

private theorem areSorted_of_items? : ∀ {ds : List Document} {room : Nat} {vs : List Json}, items? room ds = some vs →
    EverywhereInItems HasSortedMembers vs ∧ depthItems vs ≤ room
  | [], room, vs, h => by
    rw [items?] at h
    cases h
    exact ⟨trivial, Nat.zero_le _⟩
  | d :: ds, room, vs, h => by
    rw [items?] at h
    split at h
    case h_1 w ws hw hws =>
      cases h
      obtain ⟨hsorted, hdepth⟩ := isSorted_of_value? hw
      obtain ⟨hrest, hdepths⟩ := areSorted_of_items? hws
      exact ⟨⟨hsorted, hrest⟩, Nat.max_le.mpr ⟨hdepth, hdepths⟩⟩
    case h_2 => cases h

private theorem areTidy_of_members? :
    ∀ {ds : List (Option String × Document)} {room : Nat} {found ms : List (String × Json)},
    members? room ds found = some ms → AreTidy room found → AreTidy room ms
  | [], room, found, ms, h, hfound => by
    rw [members?] at h
    cases h
    exact hfound
  | (none, _) :: _, room, found, ms, h, _ => by
    rw [members?] at h
    cases h
  | (some k, d) :: ds, room, found, ms, h, hfound => by
    rw [members?] at h
    split at h
    case h_1 w hw => exact areTidy_of_members? h (hfound.insertMember k (isSorted_of_value? hw))
    case h_2 => cases h

end

end Document

/-- Only null is read as null. -/
private theorem Document.eq_null_of_value? {d : Document} (h : value? room d = some .null) : d = .null := by
  unfold value? at h
  split at h <;> simp_all

/-! ### Free JSON that may be missing -/

open Document (written value?)

/-- The value unless it is null. -/
def unlessNull : Option Json → Option Json
  | some .null => none
  | v? => v?

private theorem unlessNull_of_ne_null (h : v ≠ .null) : unlessNull (some v) = some v := by
  unfold unlessNull
  split <;> simp_all

private theorem orNull_some {α : Type} (f : α → Json) (a : α) : orNull f (some a) = f a := rfl

namespace Reader

private theorem omittable_json_of_ne_null (h : v ≠ .null) :
    omittable json room (some (written v)) = (value? room (written v)).map some := by
  cases v <;> first | contradiction | rfl

/-- A whole value that fits is read as it is, and null as none. -/
theorem omittable_json_written {v? : Option Json} (h : ∀ v ∈ v?, v.IsWhole ∧ v.IsSorted ∧ v.depth ≤ room) :
    omittable json room (some (written (orNull (fun v => v) v?))) = some (unlessNull v?) := by
  cases v? with
  | none => rfl
  | some v =>
    obtain ⟨hwhole, hsorted, hdepth⟩ := h v rfl
    by_cases hnull : v = .null
    · subst hnull
      rfl
    · rw [orNull_some, omittable_json_of_ne_null hnull, Document.written_eq_ofJson hwhole,
        Document.value?_ofJson hsorted hdepth, unlessNull_of_ne_null hnull, Option.map_some]

/-- A value that is nested too deep is refused. -/
theorem omittable_json_written_of_lt {v? : Option Json} (h : room < (orNull (fun v => v) v?).depth) :
    omittable json room (some (written (orNull (fun v => v) v?))) = none := by
  cases v? with
  | none => exact absurd h (Nat.not_lt_zero _)
  | some v =>
    have hnull : v ≠ .null := by
      rintro rfl
      exact absurd h (Nat.not_lt_zero _)
    rw [orNull_some] at h ⊢
    rw [omittable_json_of_ne_null hnull, Document.value?_written_of_lt h, Option.map_none]

/-- What is read is not null, and would be read from its own text if its numbers are whole. -/
theorem of_omittable_json {d? : Option Document} {v? : Option Json} (h : omittable json room d? = some v?) :
    unlessNull v? = v? ∧ ∀ v ∈ v?, v.IsSorted ∧ v.depth ≤ room := by
  unfold omittable at h
  split at h
  case h_1 =>
    cases h
    exact ⟨rfl, nofun⟩
  case h_2 d =>
  unfold optional at h
  split at h
  case h_1 =>
    cases h
    exact ⟨rfl, nofun⟩
  case h_2 hd =>
    obtain ⟨v, hv, rfl⟩ := Option.map_eq_some_iff.mp h
    have hnull : v ≠ .null := by
      rintro rfl
      exact hd (Document.eq_null_of_value? hv)
    refine ⟨unlessNull_of_ne_null hnull, fun w hw => ?_⟩
    obtain rfl := Option.some.inj hw
    exact Document.isSorted_of_value? hv

end Reader

end JobLedger.Json
