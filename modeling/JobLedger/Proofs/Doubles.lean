import JobLedger.Decimal.Shortest
import Mathlib.Algebra.Order.Field.Power
import Mathlib.Algebra.Order.Field.Rat
import Mathlib.Tactic.FieldSimp
import Mathlib.Tactic.Linarith
import Mathlib.Tactic.NormNum
import Mathlib.Tactic.Positivity
import Mathlib.Tactic.Ring

/-!
# Doubles as rational numbers

The nearest double of a ratio lies within half a unit of its last place, and there is one unless the ratio is
too large. So the steps by which a decimal is read do not go past the greatest double if the decimal stays a
little below it.
-/
namespace JobLedger.Decimal.Double

/-- The magnitude of a double. -/
def value (x : Double) : ℚ := x.mantissa * (2 : ℚ) ^ x.exponent

/-- Half a unit of the last place of the greatest double. -/
def halfUnit : ℚ := (2 : ℚ) ^ (970 : ℤ)

/-- The least magnitude that has no nearest double: half a unit above the greatest one. -/
def overflow : ℚ := 18014398509481983 * halfUnit

/-- How large a decimal may be to be read as a double in any case: two units below the greatest double. -/
def safeBound : ℚ := 18014398509481979 * halfUnit

private theorem value_nonneg (x : Double) : 0 ≤ x.value := by
  unfold value
  positivity

private theorem natPow_cast (b n : Nat) : ((Nat.pow b n : ℕ) : ℚ) = (b : ℚ) ^ (n : ℤ) := by
  rw [zpow_natCast]
  exact Nat.cast_pow b n

theorem toNat_cast_of_nonneg {e : ℤ} (h : 0 ≤ e) (b : Nat) : ((Nat.pow b e.toNat : ℕ) : ℚ) = (b : ℚ) ^ e := by
  rw [natPow_cast, Int.toNat_of_nonneg h]

private theorem ratio_pos (x : Double) : 0 < x.ratio.2 := by
  unfold ratio
  split
  · exact Nat.one_pos
  · exact Nat.pow_pos (by decide)

/-- The two parts of a double as a ratio. -/
private theorem ratio_value (x : Double) : (x.ratio.1 : ℚ) / x.ratio.2 = x.value := by
  unfold ratio value
  split
  · rename_i h
    rw [Nat.cast_mul, toNat_cast_of_nonneg h, Nat.cast_one, div_one]
    norm_num
  · rename_i h
    rw [toNat_cast_of_nonneg (by omega), zpow_neg]
    norm_num

private theorem scaled_pos {num den : Nat} (h : 0 < den) (e : ℤ) : 0 < (scaled num den e).2 := by
  unfold scaled
  split
  · exact Nat.mul_pos h (Nat.pow_pos (by decide))
  · exact h

private theorem scaled_value (num den : Nat) (e : ℤ) :
    ((scaled num den e).1 : ℚ) / (scaled num den e).2 = num / den / (2 : ℚ) ^ e := by
  unfold scaled
  split
  · rename_i h
    rw [Nat.cast_mul, toNat_cast_of_nonneg h, div_div]
    norm_num
  · rename_i h
    rw [Nat.cast_mul, toNat_cast_of_nonneg (by omega), zpow_neg]
    norm_num
    ring

/-- Rounding goes to a neighbour at a distance of at most one half. -/
private theorem roundDiv_near {num den : Nat} (h : 0 < den) :
    (roundDiv num den : ℚ) ≤ num / den + 1 / 2 ∧ (num : ℚ) / den - 1 / 2 ≤ roundDiv num den := by
  have hdiv := Nat.div_add_mod num den
  have hmod := Nat.mod_lt num h
  have hround : 2 * (den * roundDiv num den) ≤ 2 * num + den ∧ 2 * num ≤ 2 * (den * roundDiv num den) + den := by
    unfold roundDiv
    dsimp only
    split
    · omega
    · split
      · rw [Nat.mul_add, Nat.mul_one]
        omega
      · rcases Nat.mod_two_eq_zero_or_one (num / den) with h2 | h2 <;> rw [h2]
        · rw [Nat.add_zero]
          omega
        · rw [Nat.mul_add, Nat.mul_one]
          omega
  have hden : (0 : ℚ) < den := by exact_mod_cast h
  have hhigh : (2 : ℚ) * (den * roundDiv num den) ≤ 2 * num + den := by exact_mod_cast hround.1
  have hlow : (2 : ℚ) * num ≤ 2 * (den * roundDiv num den) + den := by exact_mod_cast hround.2
  constructor
  · rw [div_add_div _ _ hden.ne' (by norm_num), le_div_iff₀ (by positivity)]
    linarith
  · rw [div_sub_div _ _ hden.ne' (by norm_num), div_le_iff₀ (by positivity)]
    linarith

/-- The exponent by which a ratio is first scaled: with it the ratio lies between 2^51 and 2^53. -/
def guess (num den : Nat) : ℤ := (Nat.log2 num : ℤ) - Nat.log2 den - 52

/-- The exponent of the last place to which a ratio is rounded. -/
def lastPlace (num den : Nat) : ℤ :=
  max minExponent
    (if (scaled num den (guess num den)).1 / (scaled num den (guess num den)).2 < Nat.pow 2 52 then guess num den - 1
    else guess num den)

/-- A ratio in units of its last place, rounded. -/
def rounded (num den : Nat) : Nat :=
  roundDiv (scaled num den (lastPlace num den)).1 (scaled num den (lastPlace num den)).2

private theorem ofRatio?_eq (negative : Bool) {num : Nat} (den : Nat) (h : num ≠ 0) :
    ofRatio? negative num den =
      if rounded num den = Nat.pow 2 53 then
        if maxExponent < lastPlace num den + 1 then none else some ⟨negative, Nat.pow 2 52, lastPlace num den + 1⟩
      else if maxExponent < lastPlace num den then none
      else some ⟨negative, rounded num den, lastPlace num den⟩ := by
  rw [ofRatio?, if_neg h]
  let p : Nat × ℤ := if rounded num den = Nat.pow 2 53 then (Nat.pow 2 52, lastPlace num den + 1)
    else (rounded num den, lastPlace num den)
  show (if maxExponent < p.2 then none else some (Double.mk negative p.1 p.2)) = _
  simp only [p]
  by_cases hfull : rounded num den = Nat.pow 2 53
  · rw [if_pos hfull, if_pos hfull]
  · rw [if_neg hfull, if_neg hfull]

section
variable {num den : Nat}

private theorem guess_bounds (hn : 0 < num) (hd : 0 < den) :
    (2 : ℚ) ^ (guess num den + 51) < num / den ∧ (num : ℚ) / den < (2 : ℚ) ^ (guess num den + 53) := by
  have hden : (0 : ℚ) < den := by exact_mod_cast hd
  have hnum : (2 : ℚ) ^ (num.log2 : ℤ) ≤ num ∧ (num : ℚ) < (2 : ℚ) ^ (num.log2 + 1 : ℤ) :=
    ⟨by exact_mod_cast Nat.log2_self_le hn.ne', by exact_mod_cast Nat.lt_log2_self⟩
  have hden' : (2 : ℚ) ^ (den.log2 : ℤ) ≤ den ∧ (den : ℚ) < (2 : ℚ) ^ (den.log2 + 1 : ℤ) :=
    ⟨by exact_mod_cast Nat.log2_self_le hd.ne', by exact_mod_cast Nat.lt_log2_self⟩
  constructor
  · rw [lt_div_iff₀ hden]
    calc (2 : ℚ) ^ (guess num den + 51) * den
        < (2 : ℚ) ^ (guess num den + 51) * (2 : ℚ) ^ (den.log2 + 1 : ℤ) :=
          mul_lt_mul_of_pos_left hden'.2 (by positivity)
      _ = (2 : ℚ) ^ (num.log2 : ℤ) := by
          rw [← zpow_add₀ (by norm_num), guess]
          congr 1
          ring
      _ ≤ num := hnum.1
  · rw [div_lt_iff₀ hden]
    calc (num : ℚ) < (2 : ℚ) ^ (num.log2 + 1 : ℤ) := hnum.2
      _ = (2 : ℚ) ^ (guess num den + 53) * (2 : ℚ) ^ (den.log2 : ℤ) := by
          rw [← zpow_add₀ (by norm_num), guess]
          congr 1
          ring
      _ ≤ (2 : ℚ) ^ (guess num den + 53) * den := mul_le_mul_of_nonneg_left hden'.1 (by positivity)

/-- In units of its last place a ratio lies below 2^53, and above 2^52 unless it is tiny. -/
private theorem lastPlace_bounds (hn : 0 < num) (hd : 0 < den) :
    (num : ℚ) / den < 9007199254740992 * (2 : ℚ) ^ lastPlace num den ∧
      (lastPlace num den = minExponent ∨ 4503599627370496 * (2 : ℚ) ^ lastPlace num den ≤ num / den) := by
  obtain ⟨hlow, hhigh⟩ := guess_bounds hn hd
  have hpow : ∀ e : ℤ, (2 : ℚ) ^ (e + 51) * 2 = 4503599627370496 * (2 : ℚ) ^ e ∧
      (2 : ℚ) ^ (e + 53) = 9007199254740992 * (2 : ℚ) ^ e := by
    intro e
    rw [zpow_add₀ (by norm_num), zpow_add₀ (by norm_num)]
    constructor <;> norm_num <;> ring
  -- The exponent before it is bounded from below.
  have hexact : ∃ e, lastPlace num den = max minExponent e ∧ (num : ℚ) / den < 9007199254740992 * (2 : ℚ) ^ e ∧
      4503599627370496 * (2 : ℚ) ^ e ≤ num / den := by
    have hscaled := scaled_value num den (guess num den)
    have hpos := @scaled_pos num den hd (guess num den)
    have hd' : (0 : ℚ) < (scaled num den (guess num den)).2 := by exact_mod_cast hpos
    have hg : (0 : ℚ) < (2 : ℚ) ^ guess num den := by positivity
    have h52 : ((Nat.pow 2 52 : ℕ) : ℚ) = 4503599627370496 := by norm_num
    rw [lastPlace]
    split
    · rename_i h
      rw [Nat.div_lt_iff_lt_mul hpos] at h
      have h : ((scaled num den (guess num den)).1 : ℚ) < (Nat.pow 2 52 : ℕ) * (scaled num den (guess num den)).2 := by
        exact_mod_cast h
      rw [← div_lt_iff₀ hd', hscaled, div_lt_iff₀ hg, h52] at h
      have h1 : (2 : ℚ) ^ (guess num den - 1) * 2 = (2 : ℚ) ^ guess num den := by
        rw [zpow_sub_one₀ (by norm_num)]
        ring
      have h2 := (hpow (guess num den)).1
      refine ⟨_, rfl, by linarith, by linarith⟩
    · rename_i h
      rw [Nat.div_lt_iff_lt_mul hpos, not_lt] at h
      have h : (Nat.pow 2 52 : ℕ) * ((scaled num den (guess num den)).2 : ℚ) ≤ (scaled num den (guess num den)).1 := by
        exact_mod_cast h
      rw [← le_div_iff₀ hd', hscaled, le_div_iff₀ hg, h52] at h
      exact ⟨_, rfl, (hpow _).2 ▸ hhigh, h⟩
  obtain ⟨e, he, hbelow, habove⟩ := hexact
  rw [he]
  rcases le_total minExponent e with hle | hle
  · rw [max_eq_right hle]
    exact ⟨hbelow, .inr habove⟩
  · rw [max_eq_left hle]
    refine ⟨lt_of_lt_of_le hbelow ?_, .inl rfl⟩
    exact mul_le_mul_of_nonneg_left (zpow_le_zpow_right₀ (by norm_num) hle) (by norm_num)

/-- Rounding to the last place goes by at most half a unit. -/
private theorem rounded_near (hd : 0 < den) :
    (rounded num den : ℚ) * (2 : ℚ) ^ lastPlace num den ≤ num / den + (2 : ℚ) ^ lastPlace num den / 2 ∧
      (num : ℚ) / den - (2 : ℚ) ^ lastPlace num den / 2 ≤ rounded num den * (2 : ℚ) ^ lastPlace num den := by
  have hnear := @roundDiv_near (scaled num den (lastPlace num den)).1 _ (@scaled_pos num den hd (lastPlace num den))
  rw [scaled_value] at hnear
  have hpos : (0 : ℚ) < (2 : ℚ) ^ lastPlace num den := by positivity
  have hcancel : (num : ℚ) / den / (2 : ℚ) ^ lastPlace num den * (2 : ℚ) ^ lastPlace num den = num / den :=
    div_mul_cancel₀ _ hpos.ne'
  constructor
  · have h := mul_le_mul_of_nonneg_right hnear.1 hpos.le
    rw [add_mul, hcancel] at h
    rw [rounded]
    linarith
  · have h := mul_le_mul_of_nonneg_right hnear.2 hpos.le
    rw [sub_mul, hcancel] at h
    rw [rounded]
    linarith

theorem halfUnit_pos : 0 < halfUnit := by
  unfold halfUnit
  positivity

theorem two_zpow_add_970 (n : ℤ) : (2 : ℚ) ^ (n + 970) = (2 : ℚ) ^ n * halfUnit := zpow_add₀ (by norm_num) n 970

/-- Half a unit by smaller powers. -/
theorem halfUnit_eq : halfUnit = ((2 : ℚ) ^ 97) ^ 10 := by
  rw [halfUnit, ← pow_mul, ← zpow_natCast]
  norm_num

/-- A ratio that is not too large has a nearest double. -/
private theorem isSome_ofRatio? (negative : Bool) (hd : 0 < den) (h : (num : ℚ) / den < overflow) :
    (ofRatio? negative num den).isSome := by
  by_cases hn : num = 0
  · rw [ofRatio?, if_pos hn]
    rfl
  have hbounds := lastPlace_bounds (Nat.pos_of_ne_zero hn) hd
  have hnear := @rounded_near num den hd
  rw [ofRatio?_eq negative den hn]
  have hu := halfUnit_pos
  rw [overflow] at h
  split
  · rename_i hfull
    rw [if_neg]
    · rfl
    intro hlarge
    rw [maxExponent] at hlarge
    have hle : (2 : ℚ) ^ (971 : ℤ) ≤ (2 : ℚ) ^ lastPlace num den :=
      zpow_le_zpow_right₀ (by norm_num) (by omega)
    have h53 : ((rounded num den : ℕ) : ℚ) = 9007199254740992 := by
      rw [hfull]
      norm_num
    rw [h53] at hnear
    rw [show (971 : ℤ) = 1 + 970 by norm_num, two_zpow_add_970] at hle
    linarith only [h, hle, hnear.1]
  · rw [if_neg]
    · rfl
    intro hlarge
    rw [maxExponent] at hlarge
    have hle : (2 : ℚ) ^ (972 : ℤ) ≤ (2 : ℚ) ^ lastPlace num den :=
      zpow_le_zpow_right₀ (by norm_num) (by omega)
    rw [show (972 : ℤ) = 2 + 970 by norm_num, two_zpow_add_970] at hle
    rcases hbounds.2 with hmin | hmin
    · rw [hmin, minExponent] at hlarge
      omega
    · linarith only [h, hmin, hle, hu]

/-- The value of the nearest double. -/
private theorem value_of_ofRatio? {negative : Bool} {x : Double} (hn : num ≠ 0)
    (h : ofRatio? negative num den = some x) :
    x.value = rounded num den * (2 : ℚ) ^ lastPlace num den := by
  rw [ofRatio?_eq negative den hn] at h
  split at h
  · rename_i hfull
    split at h
    · cases h
    · obtain rfl := Option.some.inj h
      rw [value, hfull, zpow_add₀ (by norm_num)]
      norm_num
      ring
  · split at h
    · cases h
    · obtain rfl := Option.some.inj h
      rfl

/-- A unit of the last place is small beside the ratio, or tiny. -/
private theorem lastPlace_small (hn : 0 < num) (hd : 0 < den) :
    9007199254740992 * (2 : ℚ) ^ lastPlace num den ≤ 1 ∨
      4503599627370496 * (2 : ℚ) ^ lastPlace num den ≤ num / den := by
  rcases (lastPlace_bounds hn hd).2 with hmin | hlarge
  · left
    have hle : (2 : ℚ) ^ minExponent ≤ (2 : ℚ) ^ (-53 : ℤ) := zpow_le_zpow_right₀ (by norm_num) (by decide)
    have h53 : (2 : ℚ) ^ (-53 : ℤ) = 1 / 9007199254740992 := by norm_num
    rw [hmin]
    rw [h53] at hle
    linarith
  · exact .inr hlarge

/-- The nearest double of a ratio that is not less than one differs from it by one part in 2^53 at most. -/
private theorem value_near {negative : Bool} {x : Double} (hd : 0 < den) (h : ofRatio? negative num den = some x)
    (hone : 1 ≤ (num : ℚ) / den) :
    x.value ≤ num / den * (1 + 1 / 9007199254740992) ∧ num / den / 2 ≤ x.value := by
  have hn : num ≠ 0 := by
    rintro rfl
    norm_num at hone
  have hnear := @rounded_near num den hd
  have hbelow := (lastPlace_bounds (Nat.pos_of_ne_zero hn) hd).1
  rw [value_of_ofRatio? hn h]
  have hpos : (0 : ℚ) < (2 : ℚ) ^ lastPlace num den := by positivity
  rcases lastPlace_small (Nat.pos_of_ne_zero hn) hd with hsmall | hlarge
  · linarith
  · constructor <;> linarith

private theorem value_le {negative : Bool} {x : Double} (hd : 0 < den) (h : ofRatio? negative num den = some x) :
    x.value ≤ 2 * (num / den) + 1 := by
  by_cases hn : num = 0
  · rw [ofRatio?, if_pos hn] at h
    obtain rfl := Option.some.inj h
    simp [zero, value, hn]
  · have hnear := @rounded_near num den hd
    have hq : (0 : ℚ) ≤ (num : ℚ) / den := by positivity
    rw [value_of_ofRatio? hn h]
    rcases lastPlace_small (Nat.pos_of_ne_zero hn) hd with hsmall | hlarge <;> linarith

end

/-! ### Reading decimals -/

/-- The product of two doubles as a ratio. -/
private theorem isSome_mul? {x y : Double} (h : x.value * y.value < overflow) : (x.mul? y).isSome := by
  refine isSome_ofRatio? _ (Nat.mul_pos x.ratio_pos y.ratio_pos) ?_
  rwa [Nat.cast_mul, Nat.cast_mul, mul_div_mul_comm, ratio_value, ratio_value]

private theorem ratio_num_pos {x : Double} (h : 0 < x.value) : 0 < x.ratio.1 := by
  rw [← ratio_value] at h
  have hden : (0 : ℚ) < x.ratio.2 := by exact_mod_cast x.ratio_pos
  have hnum := (div_pos_iff_of_pos_right hden).1 h
  exact_mod_cast hnum

private theorem div_ratio {x y : Double} (hy : 0 < y.value) :
    ((x.ratio.1 * y.ratio.2 : ℕ) : ℚ) / (x.ratio.2 * y.ratio.1 : ℕ) = x.value / y.value ∧
      0 < x.ratio.2 * y.ratio.1 := by
  refine ⟨?_, Nat.mul_pos x.ratio_pos (ratio_num_pos hy)⟩
  rw [← ratio_value x, ← ratio_value y, Nat.cast_mul, Nat.cast_mul, div_div_div_eq]

private theorem tenPow_lt_overflow : (10 : ℚ) ^ 308 < overflow := by
  rw [overflow, halfUnit_eq, show 308 = 77 * 4 by norm_num, pow_mul]
  norm_num

private theorem safeBound_lt_tenPow : safeBound < (10 : ℚ) ^ 309 := by
  rw [safeBound, halfUnit_eq, show 309 = 103 * 3 by norm_num, pow_mul]
  norm_num

/-- Powers of ten that have a nearest double. -/
private theorem powerOfTen?_near {k : Nat} (hk : k ≤ 308) : ∃ p, powerOfTen? k = some p ∧
    p.value ≤ (10 : ℚ) ^ k * (1 + 1 / 9007199254740992) ∧ (10 : ℚ) ^ k / 2 ≤ p.value := by
  have hcast : ((Nat.pow 10 k : ℕ) : ℚ) / (1 : ℕ) = (10 : ℚ) ^ k := by
    rw [Nat.cast_one, div_one]
    exact Nat.cast_pow 10 k
  have hle : (10 : ℚ) ^ k ≤ 10 ^ 308 := pow_le_pow_right₀ (by norm_num) hk
  obtain ⟨p, hp⟩ := Option.isSome_iff_exists.1
    (isSome_ofRatio? false Nat.one_pos (hcast.trans_lt (lt_of_le_of_lt hle tenPow_lt_overflow)))
  have hnear := value_near Nat.one_pos hp (by rw [hcast]; exact one_le_pow₀ (by norm_num))
  rw [hcast] at hnear
  exact ⟨p, hp, hnear⟩

private theorem isSome_div? {x y : Double} (hy : 0 < y.value) (h : x.value / y.value < overflow) :
    (x.div? y).isSome := by
  obtain ⟨hratio, hpos⟩ := @div_ratio x y hy
  exact isSome_ofRatio? _ hpos (hratio.trans_lt h)

private theorem value_div?_le {x y z : Double} (hy : 0 < y.value) (h : x.div? y = some z) :
    z.value ≤ 2 * (x.value / y.value) + 1 := by
  obtain ⟨hratio, hpos⟩ := @div_ratio x y hy
  rw [← hratio]
  exact value_le hpos h

private theorem small_lt_overflow {q : ℚ} (h : q ≤ 1000000000000000000000) : q < overflow := by
  refine lt_of_le_of_lt h ?_
  rw [overflow, halfUnit_eq]
  norm_num

/-- A double that is not large can be scaled down as far as one likes. -/
private theorem isSome_scaleDown? {x : Double} (h : x.value ≤ 100000000000000000000) (k : Nat) :
    (x.scaleDown? k).isSome := by
  induction k using Nat.strongRecOn generalizing x with
  | ind k ih =>
    rw [scaleDown?]
    split
    · rfl
    split
    · rename_i hk
      obtain ⟨p, hp, -, hlow⟩ := powerOfTen?_near hk
      have hone : (1 : ℚ) ≤ 10 ^ k := one_le_pow₀ (by norm_num)
      have hpos : 0 < p.value := by linarith
      rw [hp, Option.bind_some]
      refine isSome_div? hpos (small_lt_overflow ?_)
      rw [div_le_iff₀ hpos]
      linarith
    · rename_i hk
      obtain ⟨p, hp, -, hlow⟩ := powerOfTen?_near (Nat.le_refl 308)
      have hfive : 5 ≤ p.value := by
        have hten : (10 : ℚ) ≤ 10 ^ 308 := le_self_pow₀ (by norm_num) (by norm_num)
        generalize (10 : ℚ) ^ 308 = t at hten hlow
        linarith only [hten, hlow]
      have hpos : 0 < p.value := by linarith only [hfive]
      have hquot : x.value / p.value ≤ x.value / 5 := by
        exact div_le_div_of_nonneg_left x.value_nonneg (by norm_num) hfive
      obtain ⟨y, hy⟩ := Option.isSome_iff_exists.1
        (isSome_div? (x := x) hpos (small_lt_overflow (by linarith only [x.value_nonneg, hquot, h])))
      have hle := value_div?_le hpos hy
      simp only [hp, hy, Option.bind_eq_bind, Option.bind_some]
      exact ih (k - 308) (by omega) (by linarith only [hle, hquot, h])

/-- A significand of 64 bits times a power of ten is read as a double if it is not too large. -/
theorem isSome_ofDecimal? (negative : Bool) {s : Nat} {e : ℤ} (hs : s < UInt64.size)
    (h : (s : ℚ) * (10 : ℚ) ^ e ≤ safeBound) : (ofDecimal? negative s e).isSome := by
  have hsize : (s : ℚ) < 18446744073709551616 := by exact_mod_cast hs
  have hcast : ((s : ℕ) : ℚ) / (1 : ℕ) = s := by rw [Nat.cast_one, div_one]
  obtain ⟨x, hx⟩ := Option.isSome_iff_exists.1
    (isSome_ofRatio? negative Nat.one_pos (hcast.trans_lt (small_lt_overflow (by linarith))))
  have hle := value_le Nat.one_pos hx
  rw [hcast] at hle
  rw [ofDecimal?, hx, Option.bind_eq_bind, Option.bind_some]
  split
  · rename_i he
    split
    · rfl
    rename_i hzero
    have hne : s ≠ 0 := by
      rintro rfl
      rw [ofRatio?, if_pos rfl] at hx
      obtain rfl := Option.some.inj hx
      exact hzero rfl
    have hone : (1 : ℚ) ≤ s := by exact_mod_cast Nat.one_le_iff_ne_zero.2 hne
    have hpow : (0 : ℚ) < (10 : ℚ) ^ e := by positivity
    have hexp : e ≤ 308 := by
      by_contra hlarge
      have hle : (10 : ℚ) ^ ((309 : ℕ) : ℤ) ≤ (10 : ℚ) ^ e := zpow_le_zpow_right₀ (by norm_num) (by omega)
      rw [zpow_natCast] at hle
      have hmul : (10 : ℚ) ^ e ≤ s * (10 : ℚ) ^ e := le_mul_of_one_le_left hpow.le hone
      exact absurd (hle.trans (hmul.trans h)) (not_le.2 safeBound_lt_tenPow)
    obtain ⟨p, hp, hhigh, -⟩ := @powerOfTen?_near e.toNat (by omega)
    have hcastE : (10 : ℚ) ^ e.toNat = (10 : ℚ) ^ e := by
      rw [← zpow_natCast, Int.toNat_of_nonneg he]
    have hnear := (value_near Nat.one_pos hx (by rwa [hcast])).1
    rw [hcast] at hnear
    rw [hcastE] at hhigh
    rw [if_neg (by omega), hp, Option.bind_some]
    refine isSome_mul? ?_
    calc x.value * p.value
        ≤ (s * (1 + 1 / 9007199254740992)) * ((10 : ℚ) ^ e * (1 + 1 / 9007199254740992)) :=
          mul_le_mul hnear hhigh p.value_nonneg (by positivity)
      _ = s * (10 : ℚ) ^ e * (1 + 1 / 9007199254740992) ^ 2 := by ring
      _ ≤ safeBound * (1 + 1 / 9007199254740992) ^ 2 := mul_le_mul_of_nonneg_right h (by positivity)
      _ < overflow := by
        rw [safeBound, overflow, mul_right_comm]
        exact mul_lt_mul_of_pos_right (by norm_num) halfUnit_pos
  · exact isSome_scaleDown? (by linarith) _

end JobLedger.Decimal.Double
