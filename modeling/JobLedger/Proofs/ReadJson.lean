import JobLedger.Json.Reader
import JobLedger.Proofs.WrittenJson

/-!
# JSON read back

What the document of a value says to a reader of free JSON. A value with whole numbers of at most 64 bits is
read back unless it is nested deeper than the reader goes; any value that is nested deeper is refused. A reader that
goes deeper reads the same values.
-/
namespace JobLedger.Json

mutual

/-- A property of a value and of every value within it. -/
def Everywhere (p : Json → Prop) : Json → Prop
  | .array items => p (.array items) ∧ EverywhereInItems p items
  | .object members => p (.object members) ∧ EverywhereInMembers p members
  | v => p v

def EverywhereInItems (p : Json → Prop) : List Json → Prop
  | [] => True
  | v :: vs => Everywhere p v ∧ EverywhereInItems p vs

def EverywhereInMembers (p : Json → Prop) : List (String × Json) → Prop
  | [] => True
  | (_, v) :: ms => Everywhere p v ∧ EverywhereInMembers p ms

end

/-- If the value is a number, it is a whole one from -2^63 to 2^64 - 1. -/
def IsWholeNumber : Json → Prop
  | .number (.integer i) => -(Nat.pow 2 63 : Int) ≤ i ∧ i < UInt64.size
  | .number (.double _) => False
  | _ => True

/-- If the value is an object, its members are in the order of their names and no name is repeated. -/
def HasSortedMembers : Json → Prop
  | .object members => (members.map Prod.fst).Pairwise (· < ·)
  | _ => True

/-- All numbers are whole and have at most 64 bits. -/
def IsWhole (v : Json) : Prop := v.Everywhere IsWholeNumber

/-- All members of objects are sorted, as those of free JSON are. -/
def IsSorted (v : Json) : Prop := v.Everywhere HasSortedMembers

private theorem insertMember_of_lt {α : Type} {name : String} {v : α} {found : List (String × α)}
    (h : ∀ m ∈ found, m.1 < name) : insertMember name v found = found ++ [(name, v)] := by
  induction found with
  | nil => rfl
  | cons m ms ih =>
    obtain ⟨k, w⟩ := m
    have hk : k < name := h (k, w) List.mem_cons_self
    have hne : name ≠ k := by
      rintro rfl
      exact String.lt_irrefl _ hk
    rw [insertMember, if_neg hne, if_neg (String.lt_asymm hk), ih fun m hm => h m (List.mem_cons_of_mem _ hm)]
    rfl

namespace Document

mutual

/-- The texts of whole numbers say the numbers. -/
theorem written_eq_ofJson : ∀ {v : Json}, v.IsWhole → written v = ofJson v
  | .null, _ | .bool _, _ | .string _, _ => rfl
  | .number (.integer _), h => by rw [written, ofJson, Number.reread_integer h.1 h.2]
  | .array items, h => by rw [written, ofJson, writtenItems_eq_ofItems h.2]
  | .object members, h => by rw [written, ofJson, writtenMembers_eq_ofMembers h.2]

private theorem writtenItems_eq_ofItems :
    ∀ {vs : List Json}, EverywhereInItems IsWholeNumber vs → writtenItems vs = ofItems vs
  | [], _ => rfl
  | v :: vs, h => by rw [writtenItems, ofItems, written_eq_ofJson h.1, writtenItems_eq_ofItems h.2]

private theorem writtenMembers_eq_ofMembers :
    ∀ {ms : List (String × Json)}, EverywhereInMembers IsWholeNumber ms → writtenMembers ms = ofMembers ms
  | [], _ => rfl
  | (k, v) :: ms, h => by rw [writtenMembers, ofMembers, written_eq_ofJson h.1, writtenMembers_eq_ofMembers h.2]

end

mutual

/-- A value of free JSON is read from its document if there is room for its nesting. -/
theorem value?_ofJson : ∀ {v : Json} {room : Nat}, v.IsSorted → v.depth ≤ room → value? room (ofJson v) = some v
  | .null, _, _, _ | .bool _, _, _, _ | .string _, _, _, _ | .number _, _, _, _ => by simp [value?, ofJson]
  | .array items, 0, _, hd => absurd hd (by simp [depth])
  | .array items, room + 1, h, hd => by
    rw [ofJson, value?, items?_ofItems h.2 (by simpa [depth] using hd), Option.map_some]
  | .object members, 0, _, hd => absurd hd (by simp [depth])
  | .object members, room + 1, h, hd => by
    have hs : ((([] : List (String × Json)) ++ members).map Prod.fst).Pairwise (· < ·) := h.1
    rw [ofJson, value?, members?_ofMembers h.2 (by simpa [depth] using hd) hs, Option.map_some, List.nil_append]

private theorem items?_ofItems : ∀ {vs : List Json} {room : Nat}, EverywhereInItems HasSortedMembers vs →
    depthItems vs ≤ room → items? room (ofItems vs) = some vs
  | [], _, _, _ => rfl
  | v :: vs, room, h, hd => by
    rw [depthItems, Nat.max_le] at hd
    rw [ofItems, items?, value?_ofJson h.1 hd.1, items?_ofItems h.2 hd.2]

private theorem members?_ofMembers : ∀ {ms : List (String × Json)} {room : Nat} {found : List (String × Json)},
    EverywhereInMembers HasSortedMembers ms → depthMembers ms ≤ room →
    ((found ++ ms).map Prod.fst).Pairwise (· < ·) → members? room (ofMembers ms) found = some (found ++ ms)
  | [], _, _, _, _, _ => by simp [ofMembers, members?]
  | (k, v) :: ms, room, found, h, hd, hs => by
    rw [depthMembers, Nat.max_le] at hd
    have hlt : ∀ m ∈ found, m.1 < k := by
      intro m hm
      rw [List.map_append, List.pairwise_append] at hs
      exact hs.2.2 m.1 (List.mem_map_of_mem hm) k List.mem_cons_self
    rw [ofMembers, members?, value?_ofJson h.1 hd.1]
    simp only [insertMember_of_lt hlt]
    rw [members?_ofMembers h.2 hd.2 (by simpa using hs)]
    simp

end

mutual

/-- A value that is nested too deep is refused. -/
theorem value?_written_of_lt : ∀ {v : Json} {room : Nat}, room < v.depth → value? room (written v) = none
  | .null, _, hd | .bool _, _, hd | .string _, _, hd | .number _, _, hd => by simp [depth] at hd
  | .array items, 0, _ => rfl
  | .array items, room + 1, hd => by
    rw [written, value?, items?_written_of_lt (by simpa [depth] using hd), Option.map_none]
  | .object members, 0, _ => rfl
  | .object members, room + 1, hd => by
    rw [written, value?, members?_written_of_lt (by simpa [depth] using hd), Option.map_none]

private theorem items?_written_of_lt : ∀ {vs : List Json} {room : Nat}, room < depthItems vs →
    items? room (writtenItems vs) = none
  | [], _, hd => by simp [depthItems] at hd
  | v :: vs, room, hd => by
    rw [writtenItems, items?]
    rcases (show room < v.depth ∨ room < depthItems vs by rw [depthItems] at hd; omega) with hd | hd
    · rw [value?_written_of_lt hd]
    · rw [items?_written_of_lt hd]
      split <;> simp_all

private theorem members?_written_of_lt : ∀ {ms : List (String × Json)} {room : Nat} {found : List (String × Json)},
    room < depthMembers ms → members? room (writtenMembers ms) found = none
  | [], _, _, hd => by simp [depthMembers] at hd
  | (k, v) :: ms, room, found, hd => by
    rw [writtenMembers, members?]
    rcases (show room < v.depth ∨ room < depthMembers ms by rw [depthMembers] at hd; omega) with hd | hd
    · rw [value?_written_of_lt hd]
    · split
      · exact members?_written_of_lt hd
      · rfl

end

mutual

/-- With more room for nesting, a value is read as before. -/
theorem value?_mono : ∀ {d : Document} {room bound : Nat} {v : Json}, room ≤ bound → value? room d = some v →
    value? bound d = some v
  | .null, _, _, _, _, h | .bool _, _, _, _, _, h | .number _, _, _, _, _, h | .string _, _, _, _, _, h => by
    rw [value?] at h ⊢
    exact h
  | .array _, 0, _, _, _, h | .object _, 0, _, _, _, h => by
    rw [value?] at h
    cases h
  | .array ds, room + 1, bound + 1, v, hle, h => by
    rw [value?, Option.map_eq_some_iff] at h
    obtain ⟨vs, hvs, rfl⟩ := h
    rw [value?, items?_mono (Nat.le_of_succ_le_succ hle) hvs, Option.map_some]
  | .object ds, room + 1, bound + 1, v, hle, h => by
    rw [value?, Option.map_eq_some_iff] at h
    obtain ⟨ms, hms, rfl⟩ := h
    rw [value?, members?_mono (Nat.le_of_succ_le_succ hle) hms, Option.map_some]

private theorem items?_mono : ∀ {ds : List Document} {room bound : Nat} {vs : List Json}, room ≤ bound →
    items? room ds = some vs → items? bound ds = some vs
  | [], _, _, _, _, h => h
  | d :: ds, room, bound, vs, hle, h => by
    rw [items?] at h
    split at h
    case h_1 w ws hw hws =>
      cases h
      rw [items?, value?_mono hle hw, items?_mono hle hws]
    case h_2 => cases h

private theorem members?_mono :
    ∀ {ds : List (Option String × Document)} {room bound : Nat} {found ms : List (String × Json)},
    room ≤ bound → members? room ds found = some ms → members? bound ds found = some ms
  | [], _, _, _, _, _, h => by
    rw [members?] at h ⊢
    exact h
  | (none, _) :: _, _, _, _, _, _, h => by
    rw [members?] at h
    cases h
  | (some k, d) :: ds, room, bound, found, ms, hle, h => by
    rw [members?] at h ⊢
    split at h
    case h_1 w hw =>
      rw [value?_mono hle hw]
      exact members?_mono hle h
    case h_2 => cases h

end

end Document

end JobLedger.Json
