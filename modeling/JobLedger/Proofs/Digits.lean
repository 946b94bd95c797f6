import JobLedger.Decimal.Digits
import JobLedger.Text.Hex
import Mathlib.Data.List.Induction

/-!
# Digits written and read

Decimal and hexadecimal digits read back as the number that they were written for, with or without zeros in
front.
-/
namespace JobLedger

namespace Decimal

private theorem isDigit_digitChar {d : Nat} (h : d < 10) : (digitChar d).isDigit = true := by
  have : ∀ d < 10, (digitChar d).isDigit = true := by decide
  exact this d h

private theorem digitValue_digitChar {d : Nat} (h : d < 10) : digitValue (digitChar d) = d := by
  have : ∀ d < 10, digitValue (digitChar d) = d := by decide
  exact this d h

private theorem digitChar_eq_zero {d : Nat} (h : d < 10) : digitChar d = '0' ↔ d = 0 := by
  have : ∀ d < 10, (digitChar d = '0' ↔ d = 0) := by decide
  exact this d h

theorem isDigit_of_mem_digits {n : Nat} {c : Char} (h : c ∈ digits n) : c.isDigit = true := by
  induction n using Nat.strongRecOn with
  | ind n ih =>
    by_cases hn : n < 10
    · rw [digits_of_lt hn, List.mem_singleton] at h
      rw [h]
      exact isDigit_digitChar hn
    · rw [digits_of_ge (by omega), List.mem_append, List.mem_singleton] at h
      rcases h with h | rfl
      · exact ih (n / 10) (by omega) h
      · exact isDigit_digitChar (Nat.mod_lt n (by decide))

@[simp] theorem value_digits (n : Nat) : value (digits n) = n := by
  induction n using Nat.strongRecOn with
  | ind n ih =>
    by_cases hn : n < 10
    · simp [digits_of_lt hn, value, digitValue_digitChar hn]
    · rw [digits_of_ge (by omega), value_append_singleton, ih (n / 10) (by omega),
        digitValue_digitChar (Nat.mod_lt n (by decide))]
      omega

theorem value_lt {cs : List Char} (h : ∀ c ∈ cs, c.isDigit = true) : value cs < Nat.pow 10 cs.length := by
  induction cs using List.reverseRecOn with
  | nil => decide
  | append_singleton cs c ih =>
    have hc : digitValue c ≤ 9 := by
      have hd : c.isDigit = true := h c (by simp)
      simp only [Char.isDigit, Bool.and_eq_true, decide_eq_true_eq, ge_iff_le, UInt32.le_iff_toNat_le] at hd
      have h57 : c.val.toNat ≤ 57 := hd.2
      have hn : c.toNat = c.val.toNat := rfl
      rw [digitValue, hn]
      omega
    have ih := ih fun d hd => h d (List.mem_append_left _ hd)
    have hpow : Nat.pow 10 (cs.length + 1) = Nat.pow 10 cs.length * 10 := Nat.pow_succ ..
    rw [value_append_singleton, List.length_append, List.length_singleton, hpow]
    omega

/-- The first digit is zero only if the number is. -/
theorem head?_digits_eq_zero {n : Nat} (h : (digits n).head? = some '0') : n = 0 := by
  induction n using Nat.strongRecOn with
  | ind n ih =>
    by_cases hn : n < 10
    · rw [digits_of_lt hn, List.head?_cons, Option.some.injEq, digitChar_eq_zero hn] at h
      exact h
    · have hne := List.head?_eq_some_head (digits_ne_nil (n / 10))
      rw [digits_of_ge (by omega), List.head?_append, hne, Option.some_or, ← hne] at h
      have := ih (n / 10) (by omega) h
      omega

private theorem length_digits_le {n k : Nat} (hk : 0 < k) (h : n < Nat.pow 10 k) : (digits n).length ≤ k := by
  induction k generalizing n with
  | zero => omega
  | succ k ih =>
    by_cases hn : n < 10
    · rw [digits_of_lt hn, List.length_singleton]
      omega
    · have hpos : 0 < k := by
        rcases Nat.eq_zero_or_pos k with rfl | hpos
        · have h : n < 10 := h
          omega
        · exact hpos
      rw [digits_of_ge (by omega), List.length_append, List.length_singleton]
      have h : n < Nat.pow 10 k * 10 := h
      have := ih hpos (n := n / 10) (by omega)
      omega

theorem length_padded {w n : Nat} (hw : 0 < w) (h : n < Nat.pow 10 w) : (padded w n).length = w := by
  have := length_digits_le hw h
  simp only [padded, List.length_append, List.length_replicate]
  omega

theorem isDigit_of_mem_padded {w n : Nat} {c : Char} (h : c ∈ padded w n) : c.isDigit = true := by
  rw [padded, List.mem_append] at h
  rcases h with h | h
  · rw [List.eq_of_mem_replicate h]
    decide
  · exact isDigit_of_mem_digits h

theorem padded_ne_nil (w n : Nat) : padded w n ≠ [] := by
  simp [padded, digits_ne_nil]

@[simp] theorem value_padded (w n : Nat) : value (padded w n) = n := by
  have hzeros : ∀ k, (List.replicate k '0' ++ digits n).foldl (fun m c => 10 * m + digitValue c) 0 = n := by
    intro k
    induction k with
    | zero => exact value_digits n
    | succ k ih => exact ih
  exact hzeros _

end Decimal

namespace Text

theorem hexNumber?_append (m : Nat) (cs ds : List Char) :
    hexNumber? m (cs ++ ds) = (hexNumber? m cs).bind fun n => hexNumber? n ds := by
  induction cs generalizing m with
  | nil => rfl
  | cons c cs ih => cases h : hexValue? c <;> simp [hexNumber?, h, ih]

theorem hexNumber?_hexDigits (k n : Nat) : hexNumber? 0 (hexDigits k n) = some (n % Nat.pow 16 k) := by
  induction k generalizing n with
  | zero => simp [hexDigits, hexNumber?, Nat.mod_one]
  | succ k ih =>
    rw [hexDigits, hexNumber?_append, ih, Option.bind_some]
    have hmod : 16 * (n / 16 % Nat.pow 16 k) + n % 16 = n % Nat.pow 16 (k + 1) := by
      show _ = n % (Nat.pow 16 k * 16)
      rw [Nat.mul_comm (Nat.pow 16 k) 16, Nat.mod_mul, Nat.add_comm]
    simp only [hexNumber?, hexValue?_hexChar (Nat.mod_lt n (by decide)), Option.bind_some, hmod]

end Text

end JobLedger
