import JobLedger.Proofs.Doubles
import JobLedger.Proofs.ReadJson

/-!
# Numbers read back

The text of every number of JSON, a whole one of at most 64 bits or a double, is read as some number. The steps
by which a decimal is read round more than once, so the double may be another one; but the shortest text of a
double never goes past the greatest one.
-/
namespace JobLedger.Decimal

private theorem foldl_value (n : Nat) (cs : List Char) :
    cs.foldl (fun n c => 10 * n + digitValue c) n = n * 10 ^ cs.length + value cs := by
  induction cs generalizing n with
  | nil => simp [value]
  | cons c cs ih =>
    rw [value, List.foldl_cons, List.foldl_cons, ih, ih (10 * 0 + digitValue c), List.length_cons]
    have hpow : 10 ^ (cs.length + 1) = 10 ^ cs.length * 10 := pow_succ 10 cs.length
    rw [hpow]
    ring

private theorem value_append (cs ds : List Char) : value (cs ++ ds) = value cs * 10 ^ ds.length + value ds := by
  rw [value, List.foldl_append, foldl_value]
  rfl

end JobLedger.Decimal

namespace JobLedger.Json

open Decimal (value digits)
open Decimal.Double (Decimals)

/-- The digits that a significand takes are those in front, and they keep it below 2^64. -/
private theorem significand_spec {s : Nat} (hs : s < UInt64.size) (ds : List Char) : ∃ used,
    ds = used ++ (significand s ds).2 ∧ (significand s ds).1 = s * 10 ^ used.length + value used ∧
      (significand s ds).1 < UInt64.size := by
  induction ds generalizing s with
  | nil => exact ⟨[], rfl, by simp [significand, value], hs⟩
  | cons d ds ih =>
    rw [significand]
    split
    · rename_i hlt
      obtain ⟨used, hused, hvalue, hbound⟩ := ih hlt
      refine ⟨d :: used, congrArg (d :: ·) hused, ?_, hbound⟩
      have hfold := Decimal.foldl_value s (d :: used)
      rw [List.foldl_cons, Decimal.foldl_value] at hfold
      rw [hvalue, hfold]
    · exact ⟨[], rfl, by simp [value], hs⟩

/-- Digits of a number below 2^64 are all taken. -/
private theorem significand_of_lt {s : Nat} {ds : List Char} (h : s * 10 ^ ds.length + value ds < UInt64.size) :
    significand s ds = (s * 10 ^ ds.length + value ds, []) := by
  induction ds generalizing s with
  | nil => simp [significand, value]
  | cons d ds ih =>
    have hfold := Decimal.foldl_value s (d :: ds)
    rw [List.foldl_cons, Decimal.foldl_value] at hfold
    rw [← hfold] at h ⊢
    have hpos : 0 < 10 ^ ds.length := by positivity
    have hle := Nat.le_mul_of_pos_right (10 * s + Decimal.digitValue d) hpos
    rw [significand]
    rw [if_pos (by omega)]
    exact ih h

/-- Digits are read as a double if the decimals that their beginnings stand for are not too large. -/
private theorem isSome_double? (negative : Bool) {whole fraction : List Char} {exponent : ℤ}
    (hw : value whole < UInt64.size)
    (h : ∀ used unused, fraction = used ++ unused →
      (value (whole ++ used) : ℚ) * (10 : ℚ) ^ (exponent - used.length) ≤ Decimal.Double.safeBound) :
    (double? negative whole fraction exponent).isSome := by
  have hwhole : significand 0 whole = (value whole, []) := by
    have h := @significand_of_lt 0 whole
    rw [Nat.zero_mul, Nat.zero_add] at h
    exact h hw
  obtain ⟨used, hused, hvalue, hbound⟩ := significand_spec hw fraction
  rw [← Decimal.value_append] at hvalue
  rw [double?, hwhole]
  dsimp only
  refine Decimal.Double.isSome_ofDecimal? negative hbound ?_
  have hlength : ((fraction.length - (significand (value whole) fraction).2.length : ℕ) : ℤ) = used.length := by
    have := congrArg List.length hused
    rw [List.length_append] at this
    omega
  rw [hvalue, hlength, List.length_nil, Nat.cast_zero, zero_sub, neg_add_eq_sub]
  exact h used _ hused

/-- Positional notation with at most sixteen digits before the point. -/
private theorem isSome_double?_positional (negative : Bool) {whole fraction : List Char}
    (hd : ∀ c ∈ whole ++ fraction, c.isDigit = true) (hl : whole.length ≤ 16) :
    (double? negative whole fraction 0).isSome := by
  have hten : (10 : ℕ) ^ whole.length ≤ 10 ^ 16 := Nat.pow_le_pow_right (by decide) hl
  apply isSome_double?
  case hw =>
    have hlt : value whole < 10 ^ whole.length := Decimal.value_lt fun c hc => hd c (List.mem_append_left _ hc)
    have hsize : 10 ^ 16 < UInt64.size := by decide
    omega
  case h =>
    intro used unused hfraction
    have hdigits : ∀ c ∈ whole ++ used, c.isDigit = true := by
      intro c hc
      apply hd c
      rw [hfraction, ← List.append_assoc]
      exact List.mem_append_left _ hc
    have hlt : (value (whole ++ used) : ℚ) < 10 ^ whole.length * 10 ^ used.length := by
      have hlt : value (whole ++ used) < 10 ^ (whole ++ used).length := Decimal.value_lt hdigits
      rw [List.length_append, pow_add] at hlt
      exact_mod_cast hlt
    have hpos : (0 : ℚ) < 10 ^ used.length := by positivity
    have hcast : (10 : ℚ) ^ whole.length ≤ 10 ^ 16 := by exact_mod_cast hten
    rw [zero_sub, zpow_neg, zpow_natCast, ← div_eq_mul_inv, div_le_iff₀ hpos]
    have hbound : (10 : ℚ) ^ 16 ≤ Decimal.Double.safeBound := by
      rw [Decimal.Double.safeBound, Decimal.Double.halfUnit_eq]
      norm_num
    exact hlt.le.trans (mul_le_mul_of_nonneg_right (hcast.trans hbound) hpos.le)

/-- Notation with an exponent and one digit before the point. -/
private theorem isSome_double?_exponent (negative : Bool) {d : Char} {r : List Char} {k : ℤ}
    (hd : ∀ c ∈ d :: r, c.isDigit = true)
    (h : (value (d :: r) : ℚ) * (10 : ℚ) ^ k ≤ Decimal.Double.safeBound) :
    (double? negative [d] r (r.length + k)).isSome := by
  apply isSome_double?
  case hw =>
    have hlt := Decimal.value_lt fun c hc => hd c (List.mem_cons.2 (.inl (List.mem_singleton.1 hc)))
    exact hlt.trans (by rw [List.length_singleton]; decide)
  case h =>
    intro used unused hr
    have hle : (value (d :: used) : ℚ) * 10 ^ unused.length ≤ value (d :: r) := by
      have hvalue := Decimal.value_append (d :: used) unused
      rw [List.cons_append, ← hr] at hvalue
      rw [hvalue]
      push_cast
      exact le_add_of_nonneg_right (Nat.cast_nonneg _)
    have hexp : (r.length : ℤ) + k - used.length = unused.length + k := by
      rw [hr, List.length_append]
      push_cast
      ring
    rw [hexp, zpow_add₀ (by norm_num), zpow_natCast, ← mul_assoc]
    exact (mul_le_mul_of_nonneg_right hle (by positivity)).trans h

end JobLedger.Json

namespace JobLedger.Decimal.Double

/-- The value of a decimal. -/
def Decimals.value (c : Decimals) : ℚ := c.digits * (10 : ℚ) ^ c.exponent

private theorem tenRatio_value (d : Nat) (k : ℤ) :
    ((tenRatio d k).1 : ℚ) / (tenRatio d k).2 = d * (10 : ℚ) ^ k ∧ 0 < (tenRatio d k).2 := by
  unfold tenRatio
  split
  · rename_i h
    refine ⟨?_, Nat.one_pos⟩
    dsimp only
    rw [Nat.cast_mul, toNat_cast_of_nonneg h, Nat.cast_one, div_one, Nat.cast_ofNat]
  · rename_i h
    refine ⟨?_, Nat.pow_pos (by decide)⟩
    dsimp only
    rw [toNat_cast_of_nonneg (by omega), zpow_neg, Nat.cast_ofNat, div_inv_eq_mul]

/-- The upper end of the interval of numbers that round to a double. -/
def upperEnd (x : Double) : ℚ := (4 * x.mantissa + 2) * (2 : ℚ) ^ (x.exponent - 2)

private theorem interval_upperEnd (x : Double) :
    (x.interval.2.2.1 : ℚ) / x.interval.2.2.2 = x.upperEnd ∧ 0 < x.interval.2.2.2 := by
  unfold interval upperEnd
  dsimp only
  split
  · rename_i h
    refine ⟨?_, Nat.one_pos⟩
    rw [Nat.cast_mul, toNat_cast_of_nonneg h]
    push_cast
    rw [div_one]
  · rename_i h
    refine ⟨?_, Nat.pow_pos (by decide)⟩
    rw [toNat_cast_of_nonneg (by omega), zpow_neg]
    push_cast
    rw [div_inv_eq_mul, mul_one]

private theorem value_le_of_readsBack {x : Double} {c : Decimals} (h : x.readsBack c = true) :
    c.value ≤ x.upperEnd := by
  obtain ⟨hratio, hd⟩ := tenRatio_value c.digits c.exponent
  obtain ⟨hend, hden⟩ := x.interval_upperEnd
  have hle : (tenRatio c.digits c.exponent).1 * x.interval.2.2.2 ≤
      x.interval.2.2.1 * (tenRatio c.digits c.exponent).2 := by
    unfold readsBack at h
    dsimp only at h
    split at h <;> rw [Bool.and_eq_true, decide_eq_true_eq, decide_eq_true_eq] at h
    · exact h.2
    · exact h.2.le
  have hle : ((tenRatio c.digits c.exponent).1 : ℚ) * x.interval.2.2.2 ≤
      x.interval.2.2.1 * (tenRatio c.digits c.exponent).2 := by exact_mod_cast hle
  have hd : (0 : ℚ) < (tenRatio c.digits c.exponent).2 := by exact_mod_cast hd
  have hden : (0 : ℚ) < x.interval.2.2.2 := by exact_mod_cast hden
  rw [Decimals.value, ← hratio, ← hend, div_le_div_iff₀ hd hden]
  exact hle

private theorem readsBack_of_onGrid? {x : Double} {k : ℤ} {c : Decimals} (h : x.onGrid? k = some c) :
    x.readsBack c = true := by
  unfold onGrid? at h
  dsimp only at h
  split at h <;> grind

private theorem upperEnd_nonneg (x : Double) : 0 ≤ x.upperEnd := by
  unfold upperEnd
  positivity

private theorem getD_onGrid?_le {x : Double} {k : ℤ} {c : Decimals} (hc : c.value ≤ x.upperEnd) :
    ((x.onGrid? k).getD c).value ≤ x.upperEnd := by
  cases h : x.onGrid? k with
  | none => exact hc
  | some d => exact value_le_of_readsBack (readsBack_of_onGrid? h)

private theorem firstGrid_le (x : Double) (top : ℤ) (fuel n : Nat) : (x.firstGrid top fuel n).value ≤ x.upperEnd := by
  induction fuel generalizing n with
  | zero =>
    apply getD_onGrid?_le
    simp [Decimals.value, x.upperEnd_nonneg]
  | succ fuel ih => exact getD_onGrid?_le (ih (n + 1))

private theorem stripZeros_spec (n : Nat) : n = (stripZeros n).1 * 10 ^ (stripZeros n).2 := by
  induction n using Nat.strongRecOn with
  | ind n ih =>
    rw [stripZeros]
    split
    · omega
    split
    · have hrec := ih (n / 10) (by omega)
      dsimp only
      rw [pow_succ, ← mul_assoc, ← hrec]
      omega
    · simp

private theorem shortest_le (x : Double) : x.shortest.value ≤ x.upperEnd := by
  have hle := x.firstGrid_le x.magnitude 17 1
  rw [Decimals.value, stripZeros_spec (x.firstGrid x.magnitude 17 1).digits] at hle
  rw [shortest, Decimals.value]
  dsimp only
  rw [add_comm, zpow_add₀ (by norm_num), zpow_natCast, ← mul_assoc]
  push_cast at hle
  exact hle

/-- A finite double, whether in normal form or not. -/
def IsFinite (x : Double) : Prop := x.mantissa < Nat.pow 2 53 ∧ x.exponent ≤ maxExponent

/-- Only the two greatest magnitudes come close to what has no nearest double. -/
private theorem upperEnd_le {x : Double} (h : x.IsFinite)
    (hx : ¬(x.exponent = maxExponent ∧ 9007199254740990 ≤ x.mantissa)) : x.upperEnd ≤ safeBound := by
  have hm : x.mantissa < 9007199254740992 := h.1
  have hpos := halfUnit_pos
  have hunit : ∀ n : ℤ, (2 : ℚ) ^ (n + 970) = (2 : ℚ) ^ n * halfUnit := two_zpow_add_970
  rw [upperEnd, safeBound]
  rcases eq_or_lt_of_le h.2 with he | he
  · have hm : x.mantissa ≤ 9007199254740989 := by omega
    have hm : (x.mantissa : ℚ) ≤ 9007199254740989 := by exact_mod_cast hm
    have hexp : (2 : ℚ) ^ (x.exponent - 2) = 1 / 2 * halfUnit := by
      rw [he, maxExponent, show (971 - 2 : ℤ) = -1 + 970 by norm_num, hunit]
      norm_num
    rw [hexp, ← mul_assoc]
    refine mul_le_mul_of_nonneg_right ?_ hpos.le
    linarith
  · have hm : (x.mantissa : ℚ) ≤ 9007199254740991 := by exact_mod_cast Nat.le_of_lt_succ hm
    have hexp : (2 : ℚ) ^ (x.exponent - 2) ≤ 1 / 4 * halfUnit := by
      have hle : (2 : ℚ) ^ (x.exponent - 2) ≤ (2 : ℚ) ^ (-2 + 970 : ℤ) :=
        zpow_le_zpow_right₀ (by norm_num) (by rw [maxExponent] at he; omega)
      rw [hunit] at hle
      norm_num at hle ⊢
      exact hle
    calc (4 * (x.mantissa : ℚ) + 2) * (2 : ℚ) ^ (x.exponent - 2)
        ≤ (4 * 9007199254740991 + 2) * (1 / 4 * halfUnit) :=
          mul_le_mul (by linarith) hexp (by positivity) (by norm_num)
      _ ≤ 18014398509481979 * halfUnit := by
          rw [← mul_assoc]
          exact mul_le_mul_of_nonneg_right (by norm_num) hpos.le

end JobLedger.Decimal.Double

namespace JobLedger.Json

open Decimal (value digits value_digits isDigit_of_mem_digits)
open Decimal.Double (Decimals)

/-- A decimal that is not too large is read as a double in its notation. -/
private theorem isSome_double?_ofDecimals (negative : Bool) {c : Decimals} (h : c.value ≤ Decimal.Double.safeBound) :
    (double? negative (Numeral.ofDecimals c).whole ((Numeral.ofDecimals c).fraction.getD [])
      ((Numeral.ofDecimals c).exponent.getD 0)).isSome := by
  have hd : ∀ x ∈ digits c.digits, x.isDigit = true := fun _ => isDigit_of_mem_digits
  have hr : ∀ n, ∀ x ∈ List.replicate n '0', x.isDigit = true := by
    intro n x hx
    rw [List.eq_of_mem_replicate hx]
    decide
  unfold Numeral.ofDecimals
  dsimp only
  split
  · apply isSome_double?_positional
    case hd =>
      intro x hx
      simp only [Option.getD_some, List.mem_append, List.mem_singleton] at hx
      rcases hx with (hx | hx) | rfl
      · exact hd x hx
      · exact hr _ x hx
      · decide
    case hl =>
      rw [List.length_append, List.length_replicate]
      omega
  split
  · apply isSome_double?_positional
    case hd =>
      rw [Option.getD_some, List.take_append_drop]
      exact hd
    case hl =>
      rw [List.length_take]
      omega
  split
  · apply isSome_double?_positional
    case hd =>
      intro x hx
      simp only [Option.getD_some, List.mem_append, List.mem_cons, List.not_mem_nil, or_false] at hx
      rcases hx with rfl | hx | hx
      · decide
      · exact hr _ x hx
      · exact hd x hx
    case hl => simp
  have hvalue : (value (digits c.digits) : ℚ) * (10 : ℚ) ^ c.exponent ≤ Decimal.Double.safeBound := by
    rw [value_digits]
    exact h
  have hexp : ∀ (d : Char) (r : List Char), ((d :: r).length : ℤ) + c.exponent - 1 = r.length + c.exponent := by
    intro d r
    rw [List.length_cons]
    push_cast
    ring
  split
  case h_1 heq => exact absurd heq (Decimal.digits_ne_nil _)
  case h_2 d heq =>
    rw [heq] at hd hvalue ⊢
    rw [Option.getD_some, hexp]
    exact isSome_double?_exponent negative hd hvalue
  case h_3 d r hne heq =>
    rw [heq] at hd hvalue ⊢
    rw [Option.getD_some, hexp]
    exact isSome_double?_exponent negative hd hvalue

private theorem ofNumeral?_eq_double? (negative : Bool) {n : Numeral} (h : n.fraction.isSome ∨ n.exponent.isSome) :
    Number.ofNumeral? negative n.whole n.fraction n.exponent =
      (double? negative n.whole (n.fraction.getD []) (n.exponent.getD 0)).map .double := by
  obtain ⟨whole, fraction, exponent⟩ := n
  cases fraction with
  | none =>
    cases exponent with
    | none => simp at h
    | some e => rfl
  | some ds => cases exponent <;> rfl

private theorem Numeral.ofDecimals_isDouble (c : Decimals) :
    (Numeral.ofDecimals c).fraction.isSome ∨ (Numeral.ofDecimals c).exponent.isSome := by
  unfold Numeral.ofDecimals
  dsimp only
  split
  · exact .inl rfl
  split
  · exact .inl rfl
  split
  · exact .inl rfl
  split <;> exact .inr rfl

/-- A number that JSON can hold: a whole one of at most 64 bits, or a finite double. -/
def Number.IsRepresentable : Number → Prop
  | .integer i => -(Nat.pow 2 63 : Int) ≤ i ∧ i < UInt64.size
  | .double x => x.IsFinite

/-- The two greatest doubles, by themselves. -/
private theorem Number.isSome_reread_greatest (negative : Bool) {m : Nat} (hlow : 9007199254740990 ≤ m)
    (hhigh : m < 9007199254740992) : (Number.double ⟨negative, m, 971⟩).reread.isSome := by
  obtain rfl | rfl : m = 9007199254740990 ∨ m = 9007199254740991 := by omega
  · cases negative <;> decide +kernel
  · cases negative <;> decide +kernel

/-- The text of a number is read as some number. -/
private theorem Number.isSome_reread {n : Number} (h : n.IsRepresentable) : n.reread.isSome := by
  cases n with
  | integer i => rw [Number.reread_integer h.1 h.2, Option.isSome_some]
  | double x =>
    by_cases hgreat : x.exponent = Decimal.Double.maxExponent ∧ 9007199254740990 ≤ x.mantissa
    · obtain ⟨negative, m, e⟩ := x
      obtain ⟨rfl, hlow⟩ := hgreat
      exact Number.isSome_reread_greatest negative hlow h.1
    · rw [Number.reread, Number.isNegative, Number.numeral]
      split
      · rw [ofNumeral?_eq_double? x.negative (.inl rfl), Option.isSome_map]
        exact isSome_double?_positional x.negative (List.all_eq_true.1 rfl) (by decide)
      · rw [ofNumeral?_eq_double? x.negative (Numeral.ofDecimals_isDouble _), Option.isSome_map]
        exact isSome_double?_ofDecimals x.negative (x.shortest_le.trans (Decimal.Double.upperEnd_le h hgreat))

/-- If the value is a number, it is one that JSON can hold. -/
def IsRepresentableNumber : Json → Prop
  | .number n => n.IsRepresentable
  | _ => True

/-- All numbers are ones that JSON can hold. -/
def IsRepresentable (v : Json) : Prop := v.Everywhere IsRepresentableNumber

namespace Document

mutual

/-- The text of a value is read if there is room for its nesting. -/
theorem isSome_value?_written : ∀ {v : Json} {room : Nat}, v.IsRepresentable → v.depth ≤ room →
    (value? room (written v)).isSome
  | .null, _, _, _ | .bool _, _, _, _ | .string _, _, _, _ => by simp [value?, written]
  | .number n, _, h, _ => by
    rw [written, value?, Option.isSome_map]
    exact Number.isSome_reread h
  | .array items, 0, _, hd => absurd hd (by simp [depth])
  | .array items, room + 1, h, hd => by
    rw [written, value?, Option.isSome_map]
    exact isSome_items?_written h.2 (by simpa [depth] using hd)
  | .object members, 0, _, hd => absurd hd (by simp [depth])
  | .object members, room + 1, h, hd => by
    rw [written, value?, Option.isSome_map]
    exact isSome_members?_written h.2 (by simpa [depth] using hd)

private theorem isSome_items?_written : ∀ {vs : List Json} {room : Nat}, EverywhereInItems IsRepresentableNumber vs →
    depthItems vs ≤ room → (items? room (writtenItems vs)).isSome
  | [], _, _, _ => rfl
  | v :: vs, room, h, hd => by
    rw [depthItems, Nat.max_le] at hd
    obtain ⟨w, hw⟩ := Option.isSome_iff_exists.1 (isSome_value?_written h.1 hd.1)
    obtain ⟨ws, hws⟩ := Option.isSome_iff_exists.1 (isSome_items?_written h.2 hd.2)
    rw [writtenItems, items?, hw, hws]
    rfl

private theorem isSome_members?_written : ∀ {ms : List (String × Json)} {room : Nat} {found : List (String × Json)},
    EverywhereInMembers IsRepresentableNumber ms → depthMembers ms ≤ room →
    (members? room (writtenMembers ms) found).isSome
  | [], _, _, _, _ => rfl
  | (k, v) :: ms, room, found, h, hd => by
    rw [depthMembers, Nat.max_le] at hd
    obtain ⟨w, hw⟩ := Option.isSome_iff_exists.1 (isSome_value?_written h.1 hd.1)
    rw [writtenMembers, members?, hw]
    exact isSome_members?_written h.2 hd.2

end

end Document

end JobLedger.Json
