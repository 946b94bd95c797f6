import JobLedger.Proofs.Digits
import Mathlib.Data.List.Lex
import Mathlib.Tactic.Tauto

/-!
# Hexadecimal digits in either case

Digits are read as a number exactly if they are those that are written for it, up to the case of letters. Written
with equally many digits, numbers stand in the order of their texts.
-/
namespace JobLedger.Text

theorem toLower_cases (c : Char) : 65 ≤ c.toNat ∧ c.toNat ≤ 90 ∧ c.toLower.toNat = c.toNat + 32 ∨
    ¬ (65 ≤ c.toNat ∧ c.toNat ≤ 90) ∧ c.toLower = c := by
  unfold Char.toLower
  split
  · rename_i h
    have hlow : 65 ≤ c.toNat := h.1
    have hhigh : c.toNat ≤ 90 := h.2
    have hsum : (c.val + 32).toNat = (c.toNat + 32) % 4294967296 := UInt32.toNat_add c.val 32
    exact .inl ⟨hlow, hhigh, hsum.trans (Nat.mod_eq_of_lt (by omega))⟩
  · rename_i h
    exact .inr ⟨h, rfl⟩

private theorem hexValue?_eq (c : Char) : hexValue? c =
    if 48 ≤ c.toNat ∧ c.toNat ≤ 57 then some (c.toNat - 48)
    else if 97 ≤ c.toNat ∧ c.toNat ≤ 102 then some (c.toNat - 87)
    else if 65 ≤ c.toNat ∧ c.toNat ≤ 70 then some (c.toNat - 55)
    else none := rfl

private theorem toNat_hexChar {d : Nat} (h : d < 16) : (hexChar d).toNat = if d < 10 then 48 + d else 87 + d := by
  have : ∀ d < 16, (hexChar d).toNat = if d < 10 then 48 + d else 87 + d := by decide
  exact this d h

private theorem hexValue?_toLower (c : Char) : hexValue? c.toLower = hexValue? c := by
  rcases toLower_cases c with ⟨hlow, hhigh, h⟩ | ⟨-, h⟩
  · rw [hexValue?_eq, hexValue?_eq, h]
    grind
  · rw [h]

/-- A character that is read as a digit is the one that is written for it, in either case. -/
private theorem toLower_of_hexValue? {c : Char} {d : Nat} (h : hexValue? c = some d) :
    d < 16 ∧ c.toLower = hexChar d := by
  rw [hexValue?_eq] at h
  have hd : d < 16 := by grind
  refine ⟨hd, Char.toNat_inj.1 ?_⟩
  rw [toNat_hexChar hd]
  rcases toLower_cases c with ⟨hlow, hhigh, heq⟩ | ⟨hcase, heq⟩
  · rw [heq]
    grind
  · rw [heq]
    grind

theorem hexNumber?_map_toLower (n : Nat) (cs : List Char) : hexNumber? n (cs.map Char.toLower) = hexNumber? n cs := by
  induction cs generalizing n with
  | nil => rfl
  | cons c cs ih => simp only [List.map_cons, hexNumber?, hexValue?_toLower, ih]

theorem exists_of_mem_hexDigits {k n : Nat} {c : Char} (h : c ∈ hexDigits k n) : ∃ d < 16, c = hexChar d := by
  induction k generalizing n with
  | zero => cases h
  | succ k ih =>
    rw [hexDigits, List.mem_append, List.mem_singleton] at h
    rcases h with h | h
    · exact ih h
    · exact ⟨n % 16, Nat.mod_lt n (by decide), h⟩

/-- Characters that are read as a number are the digits that are written for it, in either case. -/
theorem map_toLower_of_hexNumber? {cs : List Char} {n : Nat} (h : hexNumber? 0 cs = some n) :
    n < Nat.pow 16 cs.length ∧ cs.map Char.toLower = hexDigits cs.length n := by
  induction cs using List.reverseRecOn generalizing n with
  | nil =>
    obtain rfl : 0 = n := Option.some.inj h
    exact ⟨Nat.zero_lt_one, rfl⟩
  | append_singleton cs c ih =>
    rw [hexNumber?_append] at h
    obtain ⟨m, hm, h⟩ := Option.bind_eq_some_iff.1 h
    obtain ⟨d, hd, h⟩ := Option.bind_eq_some_iff.1 h
    obtain rfl : 16 * m + d = n := Option.some.inj h
    obtain ⟨hlt, hcs⟩ := ih hm
    obtain ⟨hd, hc⟩ := toLower_of_hexValue? hd
    have hdiv : (16 * m + d) / 16 = m := by omega
    have hmod : (16 * m + d) % 16 = d := by omega
    rw [List.length_append, List.length_singleton, List.map_append, hcs, List.map_singleton, hc, hexDigits, hdiv, hmod]
    refine ⟨?_, rfl⟩
    change 16 * m + d < Nat.pow 16 cs.length * 16
    omega

/-- Lists in the order of their first parts, if these are of one length, and then of the rest. -/
theorem append_lt_append_iff {a b x y : List Char} (h : a.length = b.length) :
    a ++ x < b ++ y ↔ a < b ∨ a = b ∧ x < y := by
  induction a generalizing b with
  | nil =>
    obtain rfl := List.length_eq_zero_iff.1 h.symm
    simp
  | cons c a ih =>
    cases b with
    | nil => cases h
    | cons d b =>
      have hrest := ih (Nat.succ.inj h)
      simp only [List.cons_append, List.cons_lt_cons_iff, hrest, List.cons.injEq]
      tauto

theorem hexDigits_lt {k m n : Nat} (h : m < n) (hn : n < Nat.pow 16 k) : hexDigits k m < hexDigits k n := by
  induction k generalizing m n with
  | zero =>
    have hn : n < 1 := hn
    omega
  | succ k ih =>
    have hn : n < Nat.pow 16 k * 16 := hn
    have hlength : (hexDigits k (m / 16)).length = (hexDigits k (n / 16)).length := by
      rw [length_hexDigits, length_hexDigits]
    rw [hexDigits, hexDigits, append_lt_append_iff hlength]
    rcases Nat.lt_or_ge (m / 16) (n / 16) with hlt | hge
    · exact .inl (ih hlt (by omega))
    · have heq : m / 16 = n / 16 := by omega
      have hlast : ∀ e < 16, ∀ d < e, hexChar d < hexChar e := by decide
      refine .inr ⟨by rw [heq], List.cons_lt_cons_iff.2 (.inl ?_)⟩
      exact hlast (n % 16) (Nat.mod_lt n (by decide)) (m % 16) (by omega)

end JobLedger.Text
