import JobLedger.Json.Lexer
import JobLedger.Proofs.Digits

/-!
# Numerals

The parts of a written number, and how a reader of JSON takes them apart again. A number can be told from what
follows it unless this goes on with a digit, a point or an exponent. Whole numbers of at most 64 bits read back
as they are; the text of a double always reads as one numeral.
-/
namespace JobLedger.Json

open Decimal (digits value isDigit_of_mem_digits digits_ne_nil head?_digits_eq_zero)
open Decimal.Double (Decimals layout exponentDigits shortest)

/-- The characters do not go on with a number that stands before them. -/
def Parted (cs : List Char) : Prop := ∀ c, cs.head? = some c → c.isDigit = false ∧ c ≠ '.' ∧ c ≠ 'e' ∧ c ≠ 'E'

theorem parted_nil : Parted [] := fun _ h => nomatch h

theorem parted_cons {c : Char} {cs : List Char}
    (h : c.isDigit = false ∧ c ≠ '.' ∧ c ≠ 'e' ∧ c ≠ 'E') : Parted (c :: cs) := by
  intro d hd
  obtain rfl := Option.some.inj hd
  exact h

/-- The parts of a number without its sign. -/
structure Numeral where
  whole : List Char
  fraction : Option (List Char) := none
  exponent : Option Int := none

namespace Numeral

def chars (n : Numeral) : List Char :=
  n.whole ++ ((n.fraction.map ('.' :: ·)).getD [] ++ (n.exponent.map fun e => 'e' :: exponentDigits e).getD [])

/-- The parts are digits, with no zero in front of others. -/
structure WellFormed (n : Numeral) : Prop where
  whole_ne_nil : n.whole ≠ []
  whole_digits : ∀ c ∈ n.whole, c.isDigit = true
  whole_zero : n.whole.head? = some '0' → n.whole = ['0']
  fraction_ne_nil : n.fraction ≠ some []
  fraction_digits : ∀ ds, n.fraction = some ds → ∀ c ∈ ds, c.isDigit = true

end Numeral

section

variable {ds r : List Char}

private theorem someDigits?_append (hne : ds ≠ []) (hd : ∀ c ∈ ds, c.isDigit = true)
    (hr : ∀ c, r.head? = some c → c.isDigit = false) : someDigits? (ds ++ r) = some (ds, r) := by
  have hstop : r.takeWhile Char.isDigit = [] ∧ r.dropWhile Char.isDigit = r := by
    cases r with
    | nil => exact ⟨rfl, rfl⟩
    | cons c r => simp [hr c rfl]
  unfold someDigits?
  rw [List.takeWhile_append_of_pos hd, List.dropWhile_append_of_pos hd, hstop.1, hstop.2, List.append_nil]
  cases ds with
  | nil => exact absurd rfl hne
  | cons c ds => rfl

private theorem wholeDigits?_append (hne : ds ≠ []) (hd : ∀ c ∈ ds, c.isDigit = true)
    (hz : ds.head? = some '0' → ds = ['0']) (hr : ∀ c, r.head? = some c → c.isDigit = false) :
    wholeDigits? (ds ++ r) = some (ds, r) := by
  unfold wholeDigits?
  rw [someDigits?_append hne hd hr]
  split
  · rename_i c cs r' h
    obtain ⟨rfl, -⟩ := Prod.mk.inj (Option.some.inj h)
    cases hz rfl
  · rfl

private theorem fraction?_point (hne : ds ≠ []) (hd : ∀ c ∈ ds, c.isDigit = true)
    (hr : ∀ c, r.head? = some c → c.isDigit = false) : fraction? ('.' :: (ds ++ r)) = some (some ds, r) := by
  simp [fraction?, someDigits?_append hne hd hr]

private theorem fraction?_of_head_ne (h : r.head? ≠ some '.') : fraction? r = some (none, r) := by
  unfold fraction?
  split
  · exact absurd rfl h
  · rfl

private theorem exponent?_of_head_ne (h : r.head? ≠ some 'e') (h' : r.head? ≠ some 'E') :
    exponent? r = some (none, r) := by
  unfold exponent?
  split
  · exact absurd rfl h
  · exact absurd rfl h'
  · rfl

private theorem exponent?_digits (e : Int) (hr : ∀ c, r.head? = some c → c.isDigit = false) :
    exponent? ('e' :: (exponentDigits e ++ r)) = some (some e, r) := by
  have hs : ∀ n, someDigits? (digits n ++ r) = some (digits n, r) := fun n =>
    someDigits?_append (digits_ne_nil n) (fun _ => isDigit_of_mem_digits) hr
  unfold exponentDigits
  split
  · have he : -(e.natAbs : Int) = e := by omega
    simp only [exponent?, exponentValue?, List.cons_append, hs, Option.map_some, Decimal.value_digits, he]
  · have he : (e.natAbs : Int) = e := by omega
    simp only [exponent?, exponentValue?, List.cons_append, hs, Option.map_some, Decimal.value_digits, he]

/-- A numeral is read as its parts, and nothing of what follows is taken. -/
private theorem numeral?_chars {n : Numeral} (h : n.WellFormed) (hr : Parted r) (negative : Bool) :
    numeral? negative (n.chars ++ r) =
      some (.number (Number.ofNumeral? negative n.whole n.fraction n.exponent), r) := by
  obtain ⟨whole, fraction, exponent⟩ := n
  let tail := (exponent.map fun e => 'e' :: exponentDigits e).getD [] ++ r
  have htail : ∀ c, tail.head? = some c → c.isDigit = false ∧ c ≠ '.' := by
    intro c hc
    cases exponent with
    | none => exact ⟨(hr c hc).1, (hr c hc).2.1⟩
    | some e =>
      obtain rfl := Option.some.inj hc
      decide
  have hexp : exponent? tail = some (exponent, r) := by
    cases exponent with
    | none => exact exponent?_of_head_ne (fun hc => (hr _ hc).2.2.1 rfl) (fun hc => (hr _ hc).2.2.2 rfl)
    | some e => exact exponent?_digits e fun c hc => (hr c hc).1
  have hfrac : fraction? ((fraction.map ('.' :: ·)).getD [] ++ tail) = some (fraction, tail) := by
    cases fraction with
    | none => exact fraction?_of_head_ne fun hc => (htail _ hc).2 rfl
    | some ds =>
      exact fraction?_point (fun hnil => h.fraction_ne_nil (congrArg some hnil)) (h.fraction_digits ds rfl)
        fun c hc => (htail c hc).1
  have hwhole : ∀ c, ((fraction.map ('.' :: ·)).getD [] ++ tail).head? = some c → c.isDigit = false := by
    intro c hc
    cases fraction with
    | none => exact (htail c hc).1
    | some ds =>
      obtain rfl := Option.some.inj hc
      decide
  have hsplit : Numeral.chars ⟨whole, fraction, exponent⟩ ++ r =
      whole ++ ((fraction.map ('.' :: ·)).getD [] ++ tail) := by
    simp [Numeral.chars, tail]
  rw [hsplit, numeral?, wholeDigits?_append h.whole_ne_nil h.whole_digits h.whole_zero hwhole]
  simp only [Option.bind_eq_bind, Option.bind_some, hfrac, hexp]

end

private theorem token?_of_isDigit {c : Char} {cs : List Char} (h : c.isDigit = true) :
    token? (c :: cs) = numeral? false (c :: cs) := by
  unfold token?
  split <;> first
    | rfl
    | (rename_i heq; obtain ⟨rfl, -⟩ := List.cons.inj heq; exact absurd h (by decide))

private theorem token?_minus (cs : List Char) : token? ('-' :: cs) = numeral? true cs := rfl

/-- A numeral with or without a sign is one token. -/
private theorem token?_numeral {n : Numeral} {r : List Char} (h : n.WellFormed) (hr : Parted r) (negative : Bool) :
    token? ((if negative then '-' :: n.chars else n.chars) ++ r) =
      some (.number (Number.ofNumeral? negative n.whole n.fraction n.exponent), r) := by
  cases negative with
  | true => exact (token?_minus _).trans (numeral?_chars h hr true)
  | false =>
    obtain ⟨c, cs, hc⟩ := List.exists_cons_of_ne_nil h.whole_ne_nil
    have hdigit : c.isDigit = true := h.whole_digits c (hc ▸ List.mem_cons_self)
    have hchars : n.chars ++ r = c :: (cs ++ ((n.fraction.map ('.' :: ·)).getD [] ++
        (n.exponent.map fun e => 'e' :: exponentDigits e).getD []) ++ r) := by
      simp [Numeral.chars, hc]
    have hread := numeral?_chars h hr false
    rw [hchars] at hread
    simp only [Bool.false_eq_true, if_false]
    rw [hchars, token?_of_isDigit hdigit, hread]

/-- The parts of a whole number. -/
def Numeral.ofNat (n : Nat) : Numeral where
  whole := digits n

private theorem Numeral.ofNat_wellFormed (n : Nat) : (Numeral.ofNat n).WellFormed where
  whole_ne_nil := digits_ne_nil n
  whole_digits := fun _ => isDigit_of_mem_digits
  whole_zero := by
    intro h
    obtain rfl := head?_digits_eq_zero h
    exact Decimal.digits_of_lt (by decide)
  fraction_ne_nil := nofun
  fraction_digits := nofun

/-- The parts of zero as a double. -/
def Numeral.zero : Numeral where
  whole := ['0']
  fraction := some ['0']

private theorem Numeral.zero_wellFormed : Numeral.zero.WellFormed where
  whole_ne_nil := nofun
  whole_digits := fun c hc => List.mem_singleton.1 hc ▸ rfl
  whole_zero := fun _ => rfl
  fraction_ne_nil := nofun
  fraction_digits := by
    rintro ds ⟨⟩ c hc
    exact List.mem_singleton.1 hc ▸ rfl

/-- The parts of a decimal number in its notation, positional or with an exponent. -/
def Numeral.ofDecimals (c : Decimals) : Numeral :=
  let ds := digits c.digits
  let point := (ds.length : Int) + c.exponent
  if 0 ≤ c.exponent ∧ point ≤ 16 then ⟨ds ++ List.replicate c.exponent.toNat '0', some ['0'], none⟩
  else if 0 < point ∧ point ≤ 16 then ⟨ds.take point.toNat, some (ds.drop point.toNat), none⟩
  else if -5 < point ∧ point ≤ 0 then ⟨['0'], some (List.replicate (-point).toNat '0' ++ ds), none⟩
  else
    match ds with
    | [] => ⟨[], none, some (point - 1)⟩
    | [d] => ⟨[d], none, some (point - 1)⟩
    | d :: r => ⟨[d], some r, some (point - 1)⟩

private theorem layout_eq_chars (c : Decimals) : layout c = (Numeral.ofDecimals c).chars := by
  unfold layout Numeral.ofDecimals
  dsimp only
  split
  · simp [Numeral.chars]
  split
  · simp [Numeral.chars]
  split
  · simp [Numeral.chars]
  rcases digits c.digits with _ | ⟨d, _ | ⟨d', r⟩⟩ <;> simp [Numeral.chars]

/-- Digits in front of a point and behind it. -/
private theorem Numeral.wellFormed_point {whole fraction : List Char} {exponent : Option Int} (hw : whole ≠ [])
    (hf : fraction ≠ []) (hd : ∀ c ∈ whole ++ fraction, c.isDigit = true)
    (hz : whole.head? = some '0' → whole = ['0']) : WellFormed ⟨whole, some fraction, exponent⟩ where
  whole_ne_nil := hw
  whole_digits := fun c hc => hd c (List.mem_append_left _ hc)
  whole_zero := hz
  fraction_ne_nil := fun h => hf (Option.some.inj h)
  fraction_digits := by
    rintro ds ⟨⟩ c hc
    exact hd c (List.mem_append_right _ hc)

/-- The notation of a decimal number is in good form. Zero must not be shifted, for it has no first digit. -/
private theorem Numeral.ofDecimals_wellFormed {c : Decimals} (h : c.digits = 0 → c.exponent = 0) :
    (Numeral.ofDecimals c).WellFormed := by
  have hne := digits_ne_nil c.digits
  have hhead := List.head?_eq_some_head hne
  have hd : ∀ x ∈ digits c.digits, x.isDigit = true := fun _ => isDigit_of_mem_digits
  have hr : ∀ n, ∀ x ∈ List.replicate n '0', x.isDigit = true := by
    intro n x hx
    rw [List.eq_of_mem_replicate hx]
    decide
  have hz : (digits c.digits).head? = some '0' → c.exponent = 0 ∧ digits c.digits = ['0'] := by
    intro hh
    have h0 := head?_digits_eq_zero hh
    refine ⟨h h0, ?_⟩
    rw [h0]
    exact Decimal.digits_of_lt (by decide)
  -- The point comes behind the digits, within them or in front of them, or there is an exponent.
  unfold Numeral.ofDecimals
  dsimp only
  split
  · apply wellFormed_point
    case hw => simp [hne]
    case hf => simp
    case hd =>
      intro x hx
      simp only [List.mem_append, List.mem_singleton] at hx
      rcases hx with (hx | hx) | rfl
      · exact hd x hx
      · exact hr _ x hx
      · decide
    case hz =>
      rw [List.head?_append, hhead, Option.some_or, ← hhead]
      intro hh
      simp [hz hh]
  split
  · have hlen : ((digits c.digits).take ((digits c.digits).length + c.exponent).toNat).length ≠ 0 ∧
        ((digits c.digits).drop ((digits c.digits).length + c.exponent).toNat).length ≠ 0 := by
      rw [List.length_take, List.length_drop]
      omega
    apply wellFormed_point
    case hw => exact mt List.length_eq_zero_iff.mpr hlen.1
    case hf => exact mt List.length_eq_zero_iff.mpr hlen.2
    case hd => rwa [List.take_append_drop]
    case hz =>
      intro hh
      rw [List.head?_take, if_neg (by omega)] at hh
      have := (hz hh).1
      omega
  split
  · apply wellFormed_point
    case hw => simp
    case hf => simp [hne]
    case hd =>
      intro x hx
      simp only [List.mem_append, List.mem_singleton] at hx
      rcases hx with rfl | hx | hx
      · decide
      · exact hr _ x hx
      · exact hd x hx
    case hz => simp
  split
  case h_1 heq => exact absurd heq hne
  case h_2 d heq =>
    rw [heq] at hd
    exact ⟨by simp, hd, fun hh => by simpa using hh, nofun, nofun⟩
  case h_3 d r hr heq =>
    rw [heq] at hd
    exact wellFormed_point (by simp) hr hd fun hh => by simpa using hh

end JobLedger.Json

namespace JobLedger.Decimal.Double

/-- A double other than zero does not read back from zero. -/
private theorem readsBack_zero {x : Double} (h : x.mantissa ≠ 0) (k : Int) : x.readsBack ⟨0, k⟩ = false := by
  have hlow : 0 < x.interval.1 := by
    unfold interval
    dsimp only
    refine Nat.mul_pos ?_ ?_
    · split <;> omega
    · split
      · exact Nat.pow_pos (by decide)
      · exact Nat.zero_lt_one
  have hden : 0 < (tenRatio 0 k).2 ∧ (tenRatio 0 k).1 = 0 := by
    unfold tenRatio
    split
    · simp
    · exact ⟨Nat.pow_pos (by decide), rfl⟩
  have hpos := Nat.mul_pos hlow hden.1
  unfold readsBack
  dsimp only
  rw [hden.2, Nat.zero_mul, decide_eq_false (Nat.not_le_of_lt hpos), decide_eq_false (Nat.not_lt_zero _),
    Bool.false_and, Bool.false_and, ite_self]

private theorem digits_of_onGrid? {x : Double} (h : x.mantissa ≠ 0) {k : Int} {c : Decimals}
    (hc : x.onGrid? k = some c) : c.digits ≠ 0 := by
  have hback : x.readsBack c = true := by
    unfold onGrid? at hc
    dsimp only at hc
    split at hc <;> grind
  rintro h0
  obtain ⟨n, e⟩ := c
  obtain rfl : n = 0 := h0
  rw [readsBack_zero h] at hback
  cases hback

private theorem digits_of_firstGrid {x : Double} (h : x.mantissa ≠ 0) (top : Int) (fuel n : Nat)
    (h0 : (x.firstGrid top fuel n).digits = 0) : (x.firstGrid top fuel n).exponent = 0 := by
  induction fuel generalizing n with
  | zero =>
    unfold firstGrid at h0 ⊢
    cases hc : x.onGrid? (top - n) with
    | none => rfl
    | some c =>
      rw [hc] at h0
      exact absurd h0 (digits_of_onGrid? h hc)
  | succ fuel ih =>
    unfold firstGrid at h0 ⊢
    cases hc : x.onGrid? (top - n) with
    | none =>
      rw [hc] at h0
      exact ih (n + 1) h0
    | some c =>
      rw [hc] at h0
      exact absurd h0 (digits_of_onGrid? h hc)

private theorem stripZeros_zero : stripZeros 0 = (0, 0) := by
  rw [stripZeros]
  rfl

private theorem stripZeros_eq_zero {n : Nat} (h : (stripZeros n).1 = 0) : n = 0 := by
  induction n using Nat.strongRecOn with
  | ind n ih =>
    rw [stripZeros] at h
    split at h
    · assumption
    split at h
    · have := ih (n / 10) (by omega) h
      omega
    · exact h

/-- The shortest digits are zero only if none were found. -/
private theorem shortest_zero {x : Double} (h : x.mantissa ≠ 0) (h0 : x.shortest.digits = 0) :
    x.shortest.exponent = 0 := by
  have hzero : (x.firstGrid x.magnitude 17 1).digits = 0 := stripZeros_eq_zero h0
  simp [shortest, hzero, stripZeros_zero, digits_of_firstGrid h _ _ _ hzero]

end JobLedger.Decimal.Double

namespace JobLedger.Json.Number

open Decimal (value)

def isNegative : Number → Bool
  | .integer i => i < 0
  | .double x => x.negative

/-- The parts of a number as it is written. -/
def numeral : Number → Numeral
  | .integer i => .ofNat i.natAbs
  | .double x => if x.mantissa = 0 then .zero else .ofDecimals x.shortest

/-- The number as which the text of a number is read, if as any. -/
def reread (n : Number) : Option Number :=
  Number.ofNumeral? n.isNegative n.numeral.whole n.numeral.fraction n.numeral.exponent

theorem numeral_wellFormed (n : Number) : n.numeral.WellFormed := by
  cases n with
  | integer i => exact Numeral.ofNat_wellFormed _
  | double x =>
    simp only [numeral]
    split
    · exact Numeral.zero_wellFormed
    · exact Numeral.ofDecimals_wellFormed (Decimal.Double.shortest_zero ‹_›)

theorem chars_eq (n : Number) :
    n.chars = if n.isNegative then '-' :: n.numeral.chars else n.numeral.chars := by
  cases n with
  | integer i =>
    simp [chars, isNegative, numeral, Decimal.signedDigits, Numeral.ofNat, Numeral.chars]
  | double x =>
    have hbody : (if x.mantissa = 0 then "0.0".toList else Decimal.Double.layout x.shortest) =
        (numeral (.double x)).chars := by
      simp only [numeral]
      split
      · rfl
      · exact layout_eq_chars _
    simp only [chars, Decimal.Double.chars, isNegative, hbody]
    rfl

/-- A written number is one token, however it is followed. -/
theorem token?_chars (n : Number) {r : List Char} (hr : Parted r) :
    token? (n.chars ++ r) = some (.number n.reread, r) := by
  rw [chars_eq]
  exact token?_numeral n.numeral_wellFormed hr n.isNegative

/-- A whole number of at most 64 bits, with or without a sign, reads back as it is. -/
theorem reread_integer {i : Int} (hlow : -(Nat.pow 2 63 : Int) ≤ i) (hhigh : i < UInt64.size) :
    (Number.integer i).reread = some (.integer i) := by
  have hvalue : value (Decimal.digits i.natAbs) = i.natAbs := Decimal.value_digits _
  have h63 : Nat.pow 2 63 = 9223372036854775808 := by decide
  simp only [reread, isNegative, numeral, Numeral.ofNat, ofNumeral?, hvalue]
  by_cases hi : i < 0
  · have hb : 0 < i.natAbs ∧ i.natAbs ≤ Nat.pow 2 63 := by omega
    have he : -(i.natAbs : Int) = i := by omega
    rw [if_pos (decide_eq_true hi), if_pos hb, he]
  · have hb : i.natAbs < UInt64.size := by omega
    have he : (i.natAbs : Int) = i := by omega
    simp [hi, hb, he]

end JobLedger.Json.Number
