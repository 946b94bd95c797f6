import JobLedger.Time.Calendar

/-!
# Days and dates

The date of a day number is a date of the calendar, and its day number is the one it was made for. Days of
four centuries that start in March are told by century, span of four years, year and day of the year; in this
count a leap day is the last day of the last year of its span.
-/
namespace JobLedger.Calendar

theorem daysInMonth_le (year : Int) (month : Nat) : daysInMonth year month ≤ 31 := by
  unfold daysInMonth
  repeat' split
  all_goals omega

/-- The parts of a day in four centuries add up to the day, and only the last year of a span of four years,
and in the last year of a century only that of the last one, has a day numbered 365. -/
private theorem yearParts {e c f o y : Nat} (he : e < 146097) (hc : c = min (e / 36524) 3)
    (hf : f = (e - c * 36524) / 1461) (ho : o = min ((e - c * 36524) % 1461 / 365) 3)
    (hy : y = (e - c * 36524) % 1461 - o * 365) :
    c ≤ 3 ∧ f ≤ 24 ∧ o ≤ 3 ∧ y ≤ 365 ∧ e = c * 36524 + f * 1461 + o * 365 + y ∧
      (y = 365 → o = 3 ∧ (f = 24 → c = 3)) := by
  have hr : e - c * 36524 ≤ 36524 ∧ e = c * 36524 + (e - c * 36524) ∧ c ≤ 3 ∧
      (c < 3 → e - c * 36524 < 36524) := by omega
  generalize e - c * 36524 = r at *
  have hs : r = f * 1461 + r % 1461 ∧ f ≤ 24 ∧ (f = 24 → r % 1461 = 1460 → r = 36524) := by omega
  have hlt : r % 1461 < 1461 := Nat.mod_lt _ (by decide)
  generalize r % 1461 = s at *
  have ht : s = o * 365 + y ∧ o ≤ 3 ∧ y ≤ 365 ∧ (y = 365 → s = 1460) := by omega
  omega

/-- The parts of a day in a year that starts in March. -/
private theorem monthParts {y m d : Nat} (hy : y ≤ 365) (hm : m = (5 * y + 2) / 153)
    (hd : d = y - (153 * m + 2) / 5 + 1) :
    m ≤ 11 ∧ 1 ≤ d ∧ (153 * m + 2) / 5 + d = y + 1 ∧ (m = 11 → d ≤ 29 ∧ (d = 29 → y = 365)) ∧
      (m = 1 ∨ m = 3 ∨ m = 6 ∨ m = 8 → d ≤ 30) ∧ (m ≠ 11 → d ≤ 31) := by
  have hle : m ≤ 11 := by omega
  have hcases : m = 0 ∨ m = 1 ∨ m = 2 ∨ m = 3 ∨ m = 4 ∨ m = 5 ∨ m = 6 ∨ m = 7 ∨ m = 8 ∨ m = 9 ∨ m = 10 ∨ m = 11 := by
    omega
  rcases hcases with rfl | rfl | rfl | rfl | rfl | rfl | rfl | rfl | rfl | rfl | rfl | rfl <;> omega

/-- A date of a year that is counted from March: month zero is March. -/
def fromMarch (year : Int) (month day : Nat) : Date :=
  if month < 10 then ⟨year, month + 3, day⟩ else ⟨year + 1, month - 9, day⟩

private theorem dayNumber_fromMarch {era : Int} {c f o m d : Nat} (hc : c ≤ 3) (hf : f ≤ 24) (ho : o ≤ 3)
    (hm : m ≤ 11) :
    dayNumber (fromMarch (era * 400 + (c * 100 + f * 4 + o : Nat)) m d) =
      era * 146097 + (c * 36524 + f * 1461 + o * 365 : Nat) + ((153 * m + 2) / 5 : Nat) + d - 1 - epochOffset := by
  have hyear : (if (fromMarch (era * 400 + (c * 100 + f * 4 + o : Nat)) m d).month ≤ 2
      then (fromMarch (era * 400 + (c * 100 + f * 4 + o : Nat)) m d).year - 1
      else (fromMarch (era * 400 + (c * 100 + f * 4 + o : Nat)) m d).year) =
        era * 400 + (c * 100 + f * 4 + o : Nat) := by
    unfold fromMarch
    split <;> dsimp only <;> split <;> omega
  have hmonth : ((fromMarch (era * 400 + (c * 100 + f * 4 + o : Nat)) m d).month + 9) % 12 = m := by
    unfold fromMarch
    split <;> dsimp only <;> omega
  have hday : (fromMarch (era * 400 + (c * 100 + f * 4 + o : Nat)) m d).day = d := by
    unfold fromMarch
    split <;> rfl
  simp only [dayNumber, hyear, hmonth, hday]
  omega

private theorem isLeap_of_mod {year : Int} (h4 : year % 4 = 0) (h : year % 100 = 0 → year % 400 = 0) :
    isLeap year = true := by
  by_cases h100 : year % 100 = 0
  · simp [isLeap, h4, h h100]
  · simp [isLeap, h4, h100]

private theorem year_fromMarch_le (year : Int) (month day : Nat) :
    year ≤ (fromMarch year month day).year ∧ (fromMarch year month day).year ≤ year + 1 ∧
      (10 ≤ month → (fromMarch year month day).year = year + 1) ∧
      (month < 10 → (fromMarch year month day).year = year) := by
  unfold fromMarch
  split <;> dsimp only <;> omega

private theorem isValid_fromMarch {year : Int} {m d : Nat} (hm : m ≤ 11) (hd : 1 ≤ d)
    (hfeb : m = 11 → d ≤ 29 ∧ (d = 29 → isLeap (year + 1) = true)) (h30 : m = 1 ∨ m = 3 ∨ m = 6 ∨ m = 8 → d ≤ 30)
    (h31 : m ≠ 11 → d ≤ 31) : (fromMarch year m d).isValid = true := by
  have hcases : m = 0 ∨ m = 1 ∨ m = 2 ∨ m = 3 ∨ m = 4 ∨ m = 5 ∨ m = 6 ∨ m = 7 ∨ m = 8 ∨ m = 9 ∨ m = 10 ∨ m = 11 := by
    omega
  rcases hcases with rfl | rfl | rfl | rfl | rfl | rfl | rfl | rfl | rfl | rfl | rfl | rfl <;>
    simp [fromMarch, Date.isValid, daysInMonth, hd] <;> first | omega | skip
  by_cases h29 : d = 29
  · simp [hfeb rfl |>.2 h29, h29]
  · have := (hfeb rfl).1
    split <;> omega

/-- The parts that the date of a day number is made of. -/
private theorem exists_parts (n : Int) : ∃ (era : Int) (c f o y m d : Nat),
    ofDayNumber n = fromMarch (era * 400 + (c * 100 + f * 4 + o : Nat)) m d ∧
    n = era * 146097 + (c * 36524 + f * 1461 + o * 365 + y : Nat) - epochOffset ∧
    (c ≤ 3 ∧ f ≤ 24 ∧ o ≤ 3 ∧ y ≤ 365 ∧ (y = 365 → o = 3 ∧ (f = 24 → c = 3))) ∧
    (m ≤ 11 ∧ 1 ≤ d ∧ (153 * m + 2) / 5 + d = y + 1 ∧ (m = 11 → d ≤ 29 ∧ (d = 29 → y = 365)) ∧
      (m = 1 ∨ m = 3 ∨ m = 6 ∨ m = 8 → d ≤ 30) ∧ (m ≠ 11 → d ≤ 31)) := by
  have he : ((n + epochOffset) % 146097).toNat < 146097 := by omega
  have hn : n = (n + epochOffset) / 146097 * 146097 + ((n + epochOffset) % 146097).toNat - epochOffset := by omega
  obtain ⟨hc, hf, ho, hy, hsum, hlast⟩ := yearParts he rfl rfl rfl rfl
  refine ⟨_, _, _, _, _, _, _, rfl, ?_, ⟨hc, hf, ho, hy, hlast⟩, monthParts hy rfl rfl⟩
  rw [← hsum]
  exact hn

theorem isValid_ofDayNumber (n : Int) : (ofDayNumber n).isValid = true := by
  obtain ⟨era, c, f, o, y, m, d, hdate, -, ⟨hc, hf, ho, -, hlast⟩, hm, hd, hday, hfeb, h30, h31⟩ := exists_parts n
  rw [hdate]
  refine isValid_fromMarch hm hd (fun h => ⟨(hfeb h).1, fun h29 => ?_⟩) h30 h31
  obtain ⟨rfl, hcentury⟩ := hlast ((hfeb h).2 h29)
  exact isLeap_of_mod (by omega) (by omega)

/-- The day number of a date is the one that the date was made for. -/
@[simp] theorem dayNumber_ofDayNumber (n : Int) : dayNumber (ofDayNumber n) = n := by
  obtain ⟨era, c, f, o, y, m, d, hdate, hn, ⟨hc, hf, ho, -, -⟩, hm, -, hday, -⟩ := exists_parts n
  rw [hdate, dayNumber_fromMarch hc hf ho hm, hn]
  omega

/-- From a day of four centuries on, the years of them that start in March. -/
private theorem years_of_days_le {c f o y : Nat} (hc : c ≤ 3) (hf : f ≤ 24) (ho : o ≤ 3) (hy : y ≤ 365)
    (h : 93808 ≤ c * 36524 + f * 1461 + o * 365 + y) :
    257 ≤ c * 100 + f * 4 + o ∨ c * 100 + f * 4 + o = 256 ∧ 306 ≤ y := by
  rcases (by omega : c = 0 ∨ c = 1 ∨ c = 2 ∨ c = 3) with rfl | rfl | rfl | rfl <;> omega

/-- Up to a day of four centuries, the years of them that start in March. -/
private theorem years_of_le_days {c f o y : Nat} (hc : c ≤ 3) (hf : f ≤ 24) (ho : o ≤ 3)
    (h : c * 36524 + f * 1461 + o * 365 + y ≤ 52169) :
    c * 100 + f * 4 + o ≤ 141 ∨ c * 100 + f * 4 + o = 142 ∧ y < 306 := by
  rcases (by omega : c = 0 ∨ c = 1 ∨ c = 2 ∨ c = 3) with rfl | rfl | rfl | rfl <;> omega

/-- The years of the days that instants fall on. -/
theorem year_ofDayNumber_range {n : Int} (h : -96465292 ≤ n ∧ n ≤ 95026236) :
    -262143 ≤ (ofDayNumber n).year ∧ (ofDayNumber n).year ≤ 262142 := by
  obtain ⟨era, c, f, o, y, m, d, hdate, hn, ⟨hc, hf, ho, hy, -⟩, hm, hd, hday, hfeb, -, h31⟩ := exists_parts n
  have hyear := year_fromMarch_le (era * 400 + (c * 100 + f * 4 + o : Nat)) m d
  rw [← hdate] at hyear
  generalize (ofDayNumber n).year = year at *
  have hday : (306 ≤ y → 10 ≤ m) ∧ (y < 306 → m < 10) := by omega
  -- Only in the outermost four centuries does it matter where in them a day lies.
  have hlow : era ≤ -656 → era = -656 ∧ 93808 ≤ c * 36524 + f * 1461 + o * 365 + y := by
    simp only [epochOffset] at hn
    omega
  have hhigh : 655 ≤ era → era = 655 ∧ c * 36524 + f * 1461 + o * 365 + y ≤ 52169 := by
    simp only [epochOffset] at hn
    omega
  clear hn hdate
  have hdays := years_of_days_le hc hf ho hy
  have hdays' := years_of_le_days (y := y) hc hf ho
  generalize hE : c * 36524 + f * 1461 + o * 365 + y = E at *
  generalize hY : c * 100 + f * 4 + o = Y at *
  have hY' : Y ≤ 399 := by omega
  clear hE hY
  omega

end JobLedger.Calendar
