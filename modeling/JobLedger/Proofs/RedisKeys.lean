import JobLedger.Proofs.IdentifierText
import JobLedger.Redis.Store

/-!
# Keys and the index

Records of different jobs are under different keys, none of which is the key of the index. The index keeps as
many identifiers as its cap says, and at least one.
-/
namespace JobLedger.Redis.Settings

theorem recordKey_injective (s : Settings) {a b : String} (h : s.recordKey a = s.recordKey b) : a = b := by
  have h := congrArg String.toList h
  simp only [recordKey, String.toList_append] at h
  exact String.ext (List.append_cancel_left h)

theorem recordKey_text_injective (s : Settings) {a b : JobId} (h : s.recordKey a.text = s.recordKey b.text) : a = b :=
  JobId.text_injective (s.recordKey_injective h)

theorem recordKey_ne_indexKey (s : Settings) (id : String) : s.recordKey id ≠ s.indexKey := by
  intro h
  have h := congrArg String.toList h
  simp only [recordKey, indexKey, String.toList_append, List.append_assoc] at h
  have h := List.append_cancel_left h
  simp at h

/-- The key of a record tells the prefix and the job: the text of an identifier is always of the same length. -/
theorem recordKey_text_eq {s t : Settings} {a b : JobId} (h : s.recordKey a.text = t.recordKey b.text) :
    s.keyPrefix = t.keyPrefix ∧ a = b := by
  have h := congrArg String.toList h
  simp only [recordKey, String.toList_append] at h
  obtain ⟨hshared, htext⟩ := List.append_inj' h (by simp)
  exact ⟨String.ext (List.append_cancel_right hshared), JobId.text_injective (String.ext htext)⟩

theorem indexKey_eq {s t : Settings} (h : s.indexKey = t.indexKey) : s.keyPrefix = t.keyPrefix := by
  have h := congrArg String.toList h
  simp only [indexKey, String.toList_append] at h
  exact String.ext (List.append_cancel_right h)

/-- No key of a record is one of an index, whatever their prefixes are: the one ends in a digit, the other in a letter
that is none. -/
theorem recordKey_text_ne_indexKey (s t : Settings) (id : JobId) : s.recordKey id.text ≠ t.indexKey := by
  intro h
  obtain ⟨cs, d, hd, hid⟩ := id.toList_text_eq_concat
  have hindex : ":index".toList = ":inde".toList ++ ['x'] := rfl
  have h := congrArg String.toList h
  simp only [recordKey, indexKey, String.toList_append, hid, hindex, ← List.append_assoc] at h
  obtain ⟨-, hlast⟩ := List.append_inj' h rfl
  have hdigits : ∀ d < 16, Text.hexChar d ≠ 'x' := by decide
  exact hdigits d hd (List.head_eq_of_cons_eq hlast)

theorem recordKey_congr {s t : Settings} (h : s.keyPrefix = t.keyPrefix) : s.recordKey = t.recordKey := by
  funext id
  rw [recordKey, recordKey, h]

theorem indexKey_congr {s t : Settings} (h : s.keyPrefix = t.keyPrefix) : s.indexKey = t.indexKey := by
  rw [indexKey, indexKey, h]

/-- How many identifiers the index keeps. -/
def capacity (s : Settings) : Nat := max s.indexCap.toNat 1

theorem capacity_pos (s : Settings) : 0 < s.capacity := Nat.lt_of_lt_of_le Nat.zero_lt_one (Nat.le_max_right _ _)

theorem seconds_pos (ttl : Span) : 0 < seconds ttl := Nat.lt_of_lt_of_le Nat.zero_lt_one (Nat.le_max_right _ _)

theorem secondsFor_of_terminal (s : Settings) {r : JobRecord} (h : r.isTerminal = true) :
    s.secondsFor r.state = seconds s.terminalTtl := by
  rw [secondsFor, if_pos (show r.state.isTerminal = true from h)]

private theorem toNat_max (a b : UInt64) : (max a b).toNat = max a.toNat b.toNat := by
  show (if a ≤ b then b else a).toNat = _
  split <;> rename_i h <;> rw [UInt64.le_iff_toNat_le] at h <;> omega

theorem capacity_lt (s : Settings) : s.capacity < Nat.pow 2 64 := Nat.max_lt.2 ⟨s.indexCap.toNat_lt, by decide⟩

/-- The last position is one less than the capacity, as far as 64 bits with a sign can tell. -/
private theorem lastPosition_toInt_eq (s : Settings) :
    s.lastPosition.toInt = ((s.capacity : Int) - 1).bmod (Nat.pow 2 64) := by
  have hcap : (max s.indexCap 1).toInt64.toInt = (s.capacity : Int).bmod (Nat.pow 2 64) := by
    rw [← Int64.toInt_toBitVec, UInt64.toBitVec_toInt64, BitVec.toInt_eq_toNat_bmod, UInt64.toNat_toBitVec, toNat_max]
    rfl
  rw [lastPosition, Int64.toInt_sub, hcap, show (1 : Int64).toInt = 1 by decide]
  exact Int.bmod_sub_bmod

private theorem lastPosition_toInt {s : Settings} (h : s.capacity ≤ Nat.pow 2 63) :
    s.lastPosition.toInt = s.capacity - 1 := by
  have hpos := s.capacity_pos
  have h : s.capacity ≤ 9223372036854775808 := h
  rw [lastPosition_toInt_eq]
  exact Int.bmod_eq_of_le (m := 18446744073709551616) (by omega) (by omega)

/-- From there on the position is a negative one. -/
private theorem lastPosition_toInt_of_large {s : Settings} (h : Nat.pow 2 63 < s.capacity) :
    s.lastPosition.toInt = s.capacity - 1 - Nat.pow 2 64 := by
  have hlt : s.capacity < 18446744073709551616 := s.capacity_lt
  have h : 9223372036854775808 < s.capacity := h
  have hwrap : ((Nat.pow 2 64 : Nat) : Int) = 18446744073709551616 := rfl
  rw [lastPosition_toInt_eq, ← Int.sub_bmod_right]
  exact Int.bmod_eq_of_le (m := 18446744073709551616) (by omega) (by omega)

/-- What is left of an index when it is cut. -/
def kept (s : Settings) (items : List String) : List String := slice 0 s.lastPosition.toInt items

/-- An index that was cut holds its first identifiers. -/
theorem kept_eq_take {s : Settings} (h : s.capacity ≤ Nat.pow 2 63) (items : List String) :
    s.kept items = items.take s.capacity := by
  have hpos := s.capacity_pos
  rw [kept, lastPosition_toInt h, slice, if_neg (by decide), if_neg (by omega)]
  simp

/-- With a capacity past the greatest position, an index that was cut loses its last identifiers, at least one,
however few there are. -/
theorem kept_of_large {s : Settings} (h : Nat.pow 2 63 < s.capacity) (items : List String) :
    s.kept items = items.take (items.length - (Nat.pow 2 64 - s.capacity)) := by
  have hlt : s.capacity < 18446744073709551616 := s.capacity_lt
  have hwrap : Nat.pow 2 64 = 18446744073709551616 := rfl
  have hnegative : (s.capacity : Int) - 1 - Nat.pow 2 64 < 0 := by omega
  have hcut : ((s.capacity : Int) - 1 - Nat.pow 2 64 + items.length + 1).toNat =
      items.length - (Nat.pow 2 64 - s.capacity) := by omega
  rw [kept, lastPosition_toInt_of_large h, slice, if_neg (by decide), if_pos hnegative, hcut]
  rfl

theorem capacity_le_of_indexCap {s : Settings} (h : s.indexCap.toNat < Nat.pow 2 63) : s.capacity ≤ Nat.pow 2 63 :=
  Nat.max_le.2 ⟨Nat.le_of_lt h, by decide⟩

end JobLedger.Redis.Settings
