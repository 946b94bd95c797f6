import JobLedger.Proofs.CalendarDays
import JobLedger.Proofs.Digits
import JobLedger.Time.Text

/-!
# Instants written and read

Every instant reads back from its text as itself, a leap second included if it ends a minute. Any other leap second
is written as the second after it, and so it is read. Whatever is read from a text is an instant that reads back as
itself.
-/
namespace JobLedger

namespace Text

private theorem isBlank_of_isDigit {c : Char} (h : c.isDigit = true) : isBlank c = false := by
  have h : 48 ≤ c.toNat ∧ c.toNat ≤ 57 := by
    simpa [Char.isDigit, Char.le_def, UInt32.le_iff_toNat_le] using h
  simp [isBlank]
  omega

private theorem trimStart_digits {ds r : List Char} (hne : ds ≠ []) (h : ∀ c ∈ ds, c.isDigit = true) :
    trimStart (ds ++ r) = ds ++ r := by
  cases ds with
  | nil => exact absurd rfl hne
  | cons c ds => exact trimStart_of_head (isBlank_of_isDigit (h c List.mem_cons_self))

end Text

namespace Instant

open Decimal (padded value isDigit_of_mem_padded padded_ne_nil length_padded)

private theorem takeWhile_digits {ds r : List Char} (h : ∀ c ∈ ds, c.isDigit = true)
    (hr : ∀ c ∈ r.head?, c.isDigit = false) :
    (ds ++ r).takeWhile Char.isDigit = ds ∧ (ds ++ r).dropWhile Char.isDigit = r := by
  rw [List.takeWhile_append_of_pos h, List.dropWhile_append_of_pos h]
  cases r with
  | nil => simp
  | cons c r => simp [hr c rfl]

/-- Digits as wide as is asked for are read whatever follows, fewer if no digit follows them. -/
private theorem number?_digits {w : Nat} {ds r : List Char} (hne : ds ≠ []) (h : ∀ c ∈ ds, c.isDigit = true)
    (hw : ds.length = w ∨ ds.length ≤ w ∧ ∀ c ∈ r.head?, c.isDigit = false) :
    number? w (ds ++ r) = some (value ds, r) := by
  have hle : ds.length ≤ w := by omega
  have hfront : ((ds ++ r).take w).takeWhile Char.isDigit = ds := by
    rw [List.take_append, List.take_of_length_le hle]
    refine (takeWhile_digits h fun c hc => ?_).1
    rcases hw with rfl | ⟨-, hr⟩
    · simp at hc
    · rw [List.head?_take] at hc
      split at hc
      · simp at hc
      · exact hr c hc
  rw [number?, hfront]
  split
  · exact absurd rfl hne
  · rw [List.drop_left]

private theorem number?_padded {w n : Nat} (hw : 0 < w) (hn : n < Nat.pow 10 w) (r : List Char) :
    number? w (padded w n ++ r) = some (n, r) := by
  rw [number?_digits (padded_ne_nil w n) (fun _ => isDigit_of_mem_padded) (.inl (length_padded hw hn)),
    Decimal.value_padded]

private theorem part?_padded {m : Char} {n : Nat} (hm : Text.isBlank m = false) (hn : n < 100) (r : List Char) :
    part? m (m :: (padded 2 n ++ r)) = some (n, r) := by
  rw [part?, Text.trimStart_of_head hm]
  simp only [if_true]
  rw [Text.trimStart_digits (padded_ne_nil 2 n) fun _ => isDigit_of_mem_padded, number?_padded (by decide) hn]

private theorem year?_of_isDigit {d : Char} {cs : List Char} (h : d.isDigit = true) :
    year? (d :: cs) = (number? 4 (d :: cs)).map fun (n, r) => ((n : Int), r) := by
  unfold year?
  split
  · rename_i heq
    obtain ⟨rfl, -⟩ := List.cons.inj heq
    exact absurd h (by decide)
  · rename_i heq
    obtain ⟨rfl, -⟩ := List.cons.inj heq
    exact absurd h (by decide)
  · rfl

private theorem year?_padded {n : Nat} (hn : n < 10000) (r : List Char) :
    year? (padded 4 n ++ r) = some ((n : Int), r) := by
  cases h : padded 4 n with
  | nil => exact absurd h (padded_ne_nil 4 n)
  | cons d ds =>
    have hd : d.isDigit = true := isDigit_of_mem_padded (h ▸ List.mem_cons_self)
    rw [List.cons_append, year?_of_isDigit hd, ← List.cons_append, ← h, number?_padded (by decide) hn]
    rfl

private theorem number?_year (n : Nat) {r : List Char} (hr : ∀ c ∈ r.head?, c.isDigit = false) :
    number? (padded 4 n ++ r).length (padded 4 n ++ r) = some (n, r) := by
  rw [number?_digits (padded_ne_nil 4 n) (fun _ => isDigit_of_mem_padded) (.inr ⟨by simp, hr⟩),
    Decimal.value_padded]

private theorem year?_yearChars (year : Int) {r : List Char} (hr : ∀ c ∈ r.head?, c.isDigit = false) :
    year? (yearChars year ++ r) = some (year, r) := by
  unfold yearChars
  split
  · rename_i h
    rw [year?_padded (by omega)]
    congr
    omega
  · rw [List.cons_append]
    split
    · rw [year?, number?_year _ hr, Option.map_some]
      simp only [Option.some.injEq, Prod.mk.injEq, and_true]
      omega
    · rw [year?, number?_year _ hr, Option.map_some]
      simp only [Option.some.injEq, Prod.mk.injEq, and_true]
      omega

private theorem trimStart_yearChars (year : Int) (r : List Char) :
    Text.trimStart (yearChars year ++ r) = yearChars year ++ r := by
  unfold yearChars
  split
  · exact Text.trimStart_digits (padded_ne_nil 4 _) fun _ => isDigit_of_mem_padded
  · split <;> exact Text.trimStart_of_head (by decide)

private theorem fraction?_padded {w n : Nat} (hw : 0 < w) (hw9 : w ≤ 9) (hn : n < Nat.pow 10 w) {r : List Char}
    (hr : ∀ c ∈ r.head?, c.isDigit = false) :
    fraction? ('.' :: (padded w n ++ r)) = some (n * Nat.pow 10 (9 - w), r) := by
  have hdigits : ∀ c ∈ padded w n, c.isDigit = true := fun _ => isDigit_of_mem_padded
  obtain ⟨htake, hdrop⟩ := takeWhile_digits hdigits hr
  have hlength := length_padded hw hn
  rw [fraction?, htake, hdrop]
  split
  · rename_i h
    exact absurd h (padded_ne_nil w n)
  · dsimp only
    rw [List.take_of_length_le (by omega), hlength, Decimal.value_padded]

private theorem fraction?_fractionChars {nano : Nat} (hn : nano < 1000000000) :
    fraction? (fractionChars nano ++ ['Z']) = some (nano, ['Z']) := by
  have hZ : ∀ c ∈ (['Z'] : List Char).head?, c.isDigit = false := by simp
  unfold fractionChars
  split
  · rename_i h
    rw [h]
    rfl
  split
  · have hlt : nano / 1000000 < 1000 := by omega
    have hmul : nano / 1000000 * 1000000 = nano := by omega
    rw [List.cons_append, fraction?_padded (by decide) (by decide) hlt hZ]
    exact congrArg (fun n => some (n, ['Z'])) hmul
  split
  · have hlt : nano / 1000 < 1000000 := by omega
    have hmul : nano / 1000 * 1000 = nano := by omega
    rw [List.cons_append, fraction?_padded (by decide) (by decide) hlt hZ]
    exact congrArg (fun n => some (n, ['Z'])) hmul
  · rw [List.cons_append, fraction?_padded (by decide) (by decide) hn hZ]
    exact congrArg (fun n => some (n, ['Z'])) (Nat.mul_one nano)

/-- A leap second, if the instant lies in one, ends a minute. -/
def IsProper (t : Instant) : Prop := t.nano < 1000000000 ∨ t.second % 60 = 59

instance (t : Instant) : Decidable t.IsProper := inferInstanceAs (Decidable (_ ∨ _))

/-- The instant as it is read from its text. A leap second inside a minute is taken for the second after it. -/
def restored (t : Instant) : Instant :=
  if h : t.IsProper then t
  else
    { second := t.second + 1
      nano := t.nano - 1000000000
      inRange := by have := t.inRange; simp only [IsProper] at h; omega
      nano_lt := by have := t.nano_lt; omega }

theorem restored_of_isProper {t : Instant} (h : t.IsProper) : t.restored = t := dif_pos h

theorem map_restored {o : Option Instant} (h : ∀ t ∈ o, t.IsProper) : o.map restored = o := by
  cases o with
  | none => rfl
  | some t => exact congrArg some (restored_of_isProper (h t rfl))

private theorem restored_second {t : Instant} (h : ¬ t.IsProper) : t.restored.second = t.second + 1 := by
  rw [restored, dif_neg h]

private theorem restored_nano {t : Instant} (h : ¬ t.IsProper) : t.restored.nano = t.nano - 1000000000 := by
  rw [restored, dif_neg h]

/-- The parts of an instant's text make up the instant as it is read. -/
private theorem ofParts?_parts (t : Instant) :
    ofParts? (Calendar.ofDayNumber (t.second / 86400)) ((t.second % 86400).toNat / 3600)
      ((t.second % 86400).toNat / 60 % 60) ((t.second % 86400).toNat % 60 + t.nano / nanosPerSecond)
      (t.nano % nanosPerSecond) 0 = some t.restored := by
  have hrange := t.inRange
  have hlt := t.nano_lt
  have hn : nanosPerSecond = 1000000000 := rfl
  have hdiv : t.nano / nanosPerSecond = t.nano / 1000000000 := rfl
  have hmod : t.nano % nanosPerSecond = t.nano % 1000000000 := rfl
  have hyear := Calendar.year_ofDayNumber_range (n := t.second / 86400) (by omega)
  rw [ofParts?, Calendar.isValid_ofDayNumber, Calendar.dayNumber_ofDayNumber,
    if_pos ⟨rfl, hyear.1, hyear.2, by omega⟩, ← make?_self t.restored]
  by_cases hproper : t.IsProper
  · rw [restored_of_isProper hproper]
    simp only [IsProper] at hproper
    -- Second sixty stands for a leap second, which is counted with the second before it.
    by_cases h : (t.second % 86400).toNat % 60 + t.nano / nanosPerSecond = 60
    · rw [if_pos h]
      congr 1 <;> omega
    · rw [if_neg h]
      congr 1 <;> omega
  · rw [restored_second hproper, restored_nano hproper]
    simp only [IsProper] at hproper
    have h : ¬(t.second % 86400).toNat % 60 + t.nano / nanosPerSecond = 60 := by omega
    have hsecond : t.second / 86400 * 86400 + ((t.second % 86400).toNat / 3600 : Nat) * 3600 +
        ((t.second % 86400).toNat / 60 % 60 : Nat) * 60 - 0 +
        ((t.second % 86400).toNat % 60 + t.nano / nanosPerSecond : Nat) = t.second + 1 := by omega
    have hnano : t.nano % nanosPerSecond = t.nano - 1000000000 := by omega
    rw [if_neg h, hsecond, hnano]

/-- What is written for an instant is read as it, if a leap second in it ends a minute. -/
@[simp] theorem ofText?_text (t : Instant) : ofText? t.text = some t.restored := by
  have hrange := t.inRange
  have hlt := t.nano_lt
  have hvalid := Calendar.isValid_ofDayNumber (t.second / 86400)
  have hparts := ofParts?_parts t
  generalize hdate : Calendar.ofDayNumber (t.second / 86400) = date at *
  obtain ⟨hmonth, hday⟩ : date.month < 100 ∧ date.day < 100 := by
    have hle := Calendar.daysInMonth_le date.year date.month
    simp only [Calendar.Date.isValid, Bool.and_eq_true, decide_eq_true_eq] at hvalid
    omega
  have hhour : (t.second % 86400).toNat / 3600 < 100 := by omega
  have hminute : (t.second % 86400).toNat / 60 % 60 < 100 := by omega
  have hsecond : (t.second % 86400).toNat % 60 + t.nano / nanosPerSecond < 100 := by
    simp only [nanosPerSecond]
    omega
  have hnano : t.nano % nanosPerSecond < 1000000000 := Nat.mod_lt _ (by decide)
  have hdigits := fun n r => Text.trimStart_digits (r := r) (padded_ne_nil 2 n) fun _ => isDigit_of_mem_padded
  simp only [ofText?, text, String.toList_ofList, chars, hdate, List.append_assoc, List.cons_append]
  simp only [ofChars?, trimStart_yearChars, year?_yearChars date.year (r := '-' :: _) (by simp),
    part?_padded (m := '-') (by decide) hmonth, part?_padded (m := '-') (by decide) hday,
    afterDateMark?, hdigits, number?_padded (by decide : 0 < 2) hhour,
    part?_padded (m := ':') (by decide) hminute, part?_padded (m := ':') (by decide) hsecond,
    fraction?_fractionChars hnano, Option.bind_eq_bind, Option.bind_some, offset?,
    Text.trimStart_of_head (show Text.isBlank 'Z' = false by decide), Text.trimStart_nil, if_true]
  exact hparts

/-! ### What is read -/

private theorem offsetDigits?_mod {cs r : List Char} {n : Nat} (h : offsetDigits? cs = some (n, r)) : n % 60 = 0 := by
  unfold offsetDigits? at h
  split at h
  case h_2 => cases h
  case h_1 =>
    split at h
    case h_2 => cases h
    case h_1 =>
      split at h
      · obtain ⟨rfl, -⟩ := Prod.mk.inj (Option.some.inj h)
        omega
      · cases h

private theorem mod_of_bind {cs r : List Char} {n : Int} {signed : Nat → Int}
    (hsigned : ∀ k, k % 60 = 0 → signed k % 60 = 0)
    (h : ((offsetDigits? cs).bind fun (k, r) => if k < 86400 then some (signed k, r) else none) = some (n, r)) :
    n % 60 = 0 := by
  obtain ⟨⟨k, tail⟩, hk, h⟩ := Option.bind_eq_some_iff.1 h
  dsimp only at h
  split at h
  · obtain ⟨rfl, -⟩ := Prod.mk.inj (Option.some.inj h)
    exact hsigned k (offsetDigits?_mod hk)
  · cases h

/-- Offsets are whole minutes. -/
private theorem offset?_mod {cs r : List Char} {n : Int} (h : offset? cs = some (n, r)) : n % 60 = 0 := by
  unfold offset? at h
  split at h
  case h_1 => cases h; rfl
  case h_2 => cases h; rfl
  case h_3 => exact @mod_of_bind _ _ _ (fun k => (k : Int)) (fun k hk => by omega) h
  case h_4 => exact @mod_of_bind _ _ _ (fun k => -(k : Int)) (fun k hk => by omega) h
  case h_5 => exact @mod_of_bind _ _ _ (fun k => -(k : Int)) (fun k hk => by omega) h
  case h_6 =>
    split at h
    · cases h
      rfl
    · cases h
  case h_7 => cases h

private theorem fraction?_lt {cs r : List Char} {nano : Nat} (h : fraction? cs = some (nano, r)) :
    nano < 1000000000 := by
  unfold fraction? at h
  split at h
  case h_2 =>
    cases h
    decide
  case h_1 tail =>
    dsimp only at h
    split at h
    · cases h
    · obtain ⟨rfl, -⟩ := Prod.mk.inj (Option.some.inj h)
      have hdigits : ∀ c ∈ (tail.takeWhile Char.isDigit).take 9, c.isDigit = true :=
        fun c hc => List.all_eq_true.1 List.all_takeWhile c (List.mem_of_mem_take hc)
      have hlt := Decimal.value_lt hdigits
      have hlength : ((tail.takeWhile Char.isDigit).take 9).length ≤ 9 := List.length_take_le 9 _
      calc value ((tail.takeWhile Char.isDigit).take 9) * 10 ^ (9 - ((tail.takeWhile Char.isDigit).take 9).length)
          < 10 ^ ((tail.takeWhile Char.isDigit).take 9).length *
            10 ^ (9 - ((tail.takeWhile Char.isDigit).take 9).length) :=
            Nat.mul_lt_mul_of_pos_right hlt (Nat.pow_pos (by decide))
        _ = 10 ^ 9 := by rw [← Nat.pow_add, Nat.add_sub_cancel' hlength]

private theorem isProper_of_ofParts? {date : Calendar.Date} {hour minute second nano : Nat} {offset : Int} {t : Instant}
    (hnano : nano < 1000000000) (hoffset : offset % 60 = 0)
    (h : ofParts? date hour minute second nano offset = some t) : t.IsProper := by
  unfold ofParts? at h
  split at h
  case isFalse => cases h
  case isTrue =>
    dsimp only at h
    split at h
    · obtain ⟨hsecond, -⟩ := make?_eq_some.1 h
      exact .inr (by omega)
    · obtain ⟨-, heq⟩ := make?_eq_some.1 h
      exact .inl (by omega)

/-- A leap second that is read ends a minute. -/
theorem isProper_of_ofText? {s : String} {t : Instant} (h : ofText? s = some t) : t.IsProper := by
  rw [ofText?, ofChars?] at h
  -- The year, the month, the day, the mark behind them, the hour, the minute and the second come first.
  iterate 7 obtain ⟨_, -, h⟩ := Option.bind_eq_some_iff.1 h
  obtain ⟨⟨nano, _⟩, hnano, h⟩ := Option.bind_eq_some_iff.1 h
  obtain ⟨⟨offset, _⟩, hoffset, h⟩ := Option.bind_eq_some_iff.1 h
  dsimp only at h
  split at h
  · exact isProper_of_ofParts? (fraction?_lt hnano) (offset?_mod hoffset) h
  · cases h

end Instant

end JobLedger
