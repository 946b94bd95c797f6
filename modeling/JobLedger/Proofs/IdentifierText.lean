import JobLedger.Job.Id
import JobLedger.Proofs.Digits

/-!
# Texts of identifiers

The text of a job identifier is read as the identifier, so different identifiers have different texts.
-/
namespace JobLedger.JobId

theorem join_groups (ds : List Char) : ds.take 8 ++ ((ds.drop 8).take 4 ++ ((ds.drop 12).take 4 ++
    ((ds.drop 16).take 4 ++ ds.drop 20))) = ds := by
  have hjoin : ∀ k n, (ds.drop n).take k ++ ds.drop (n + k) = ds.drop n := by
    intro k n
    rw [← List.drop_drop, List.take_append_drop]
  rw [hjoin 4 16, hjoin 4 12, hjoin 4 8, List.take_append_drop]

theorem dehyphenate_hyphenate {ds : List Char} (h : ds.length = 32) : dehyphenate (hyphenate ds) = ds := by
  have hparts : dehyphenate (hyphenate ds) = ds.take 8 ++ ((ds.drop 8).take 4 ++ ((ds.drop 12).take 4 ++
      ((ds.drop 16).take 4 ++ ds.drop 20))) := by
    simp [dehyphenate, hyphenate, List.drop_append, List.drop_take, h]
  rw [hparts, join_groups]

theorem length_hyphenate {ds : List Char} (h : ds.length = 32) : (hyphenate ds).length = 36 := by
  simp [hyphenate, h]

theorem length_digits (id : JobId) : id.digits.length = 32 := Text.length_hexDigits 32 _

theorem ofDigits?_digits (id : JobId) : ofDigits? id.digits = some id := by
  have hlt : id.bits.toNat < Nat.pow 16 32 := id.bits.isLt
  rw [ofDigits?, if_pos id.length_digits, digits, Text.hexNumber?_hexDigits, Nat.mod_eq_of_lt hlt, Option.map_some,
    BitVec.ofNat_toNat, BitVec.setWidth_eq]

@[simp] theorem ofText?_text (id : JobId) : ofText? id.text = some id := by
  have hlen := length_hyphenate id.length_digits
  simp [ofText?, text, ofChars?, ofGroups?, hlen, dehyphenate_hyphenate id.length_digits, ofDigits?_digits]

theorem text_injective {a b : JobId} (h : a.text = b.text) : a = b := by
  have hread : some a = some b := by rw [← ofText?_text a, ← ofText?_text b, h]
  exact Option.some.inj hread

@[simp] theorem length_toList_text (id : JobId) : id.text.toList.length = 36 := by
  rw [text, String.toList_ofList, length_hyphenate id.length_digits]

/-- The text of an identifier ends in a digit. -/
theorem toList_text_eq_concat (id : JobId) : ∃ cs d, d < 16 ∧ id.text.toList = cs ++ [Text.hexChar d] := by
  have hdigits : id.digits = Text.hexDigits 31 (id.bits.toNat / 16) ++ [Text.hexChar (id.bits.toNat % 16)] := rfl
  have hlength : (Text.hexDigits 31 (id.bits.toNat / 16)).length = 31 := Text.length_hexDigits 31 _
  obtain ⟨ds, hds⟩ : ∃ ds, id.digits.drop 20 = ds ++ [Text.hexChar (id.bits.toNat % 16)] :=
    ⟨_, by rw [hdigits, List.drop_append_of_le_length (by omega)]⟩
  obtain ⟨front, hfront⟩ : ∃ front, hyphenate id.digits = front ++ '-' :: id.digits.drop 20 := ⟨_, rfl⟩
  refine ⟨front ++ '-' :: ds, id.bits.toNat % 16, Nat.mod_lt _ (by decide), ?_⟩
  rw [text, String.toList_ofList, hfront, hds, List.append_assoc, List.cons_append]

end JobLedger.JobId
