import ChassisCooling.Proofs.Calendar

/-! # Days and dates

Every day has a date that exists, and the date leads back to the day. The parts of a day are its
era, its year in the era, counted from March, and its place in that year; the formula that finds the
year from the days of the era is the only step that needs a case analysis.
-/

namespace ChassisCooling.Calendar

/-- The year that the formula gives for a day of an era holds the day: it begins no later, and is
not over before. Only a leap year has a day 365, its last. -/
theorem year_holds_day {day year : Int} (first : 0 ≤ day) (last : day < 146097)
    (formula : year = (day - day / 1460 + day / 36524 - day / 146096) / 365) :
    365 * year + year / 4 - year / 100 ≤ day ∧
      day ≤ 365 * year + year / 4 - year / 100 + 365 ∧
      (day = 365 * year + year / 4 - year / 100 + 365 →
        year % 4 = 3 ∧ (year % 100 ≠ 99 ∨ year = 399)) := by
  -- Once the quotients are known numbers, what is left is linear in the day and the year.
  have century : day / 36524 = 0 ∨ day / 36524 = 1 ∨ day / 36524 = 2 ∨ day / 36524 = 3 ∨
      day / 36524 = 4 := by omega
  have lastDay : day / 146096 = 0 ∨ day / 146096 = 1 := by omega
  have hundred : year / 100 = 0 ∨ year / 100 = 1 ∨ year / 100 = 2 ∨ year / 100 = 3 := by omega
  have four : day / 1460 = year / 4 ∨ day / 1460 = year / 4 + 1 := by omega
  rcases lastDay with lastDay | lastDay
  · rcases century with century | century | century | century | century <;>
    rcases hundred with hundred | hundred | hundred | hundred <;>
    rcases four with four | four <;>
    · rw [lastDay, century, four] at formula
      rw [hundred]
      omega
  · omega

theorem daysInMonth_le (year : Int) (month : Nat) : daysInMonth year month ≤ 31 := by
  rw [daysInMonth]
  split
  · split <;> decide
  · split <;> decide

namespace Date

/-- The date at a place in a year counted from March. -/
def ofParts (year day : Int) : Date :=
  let month := (5 * day + 2) / 153
  let dayOfMonth := (day - (153 * month + 2) / 5 + 1).toNat
  if month < 10 then ⟨year, (month + 3).toNat, dayOfMonth⟩
  else ⟨year + 1, (month - 9).toNat, dayOfMonth⟩

/-- The parts of a day: its era, its year of the era and its place in the year. -/
structure Parts (days : Int) where
  era : Int
  year : Int
  day : Int
  year_nonneg : 0 ≤ year
  year_lt : year < 400
  day_nonneg : 0 ≤ day
  day_le : day ≤ 365
  leap : day = 365 → year % 4 = 3 ∧ (year % 100 ≠ 99 ∨ year = 399)
  sum : days = era * 146097 + (year * 365 + year / 4 - year / 100 + day) - 719468
  date : ofDays days = ofParts (year + era * 400) day

theorem exists_parts (days : Int) : Nonempty (Parts days) := by
  obtain ⟨dayOfEra, era⟩ : ∃ d, d = (days + 719468) % 146097 := ⟨_, rfl⟩
  obtain ⟨year, formula⟩ : ∃ y, y =
      (dayOfEra - dayOfEra / 1460 + dayOfEra / 36524 - dayOfEra / 146096) / 365 := ⟨_, rfl⟩
  obtain ⟨low, high, leap⟩ := year_holds_day (by omega) (by omega) formula
  refine ⟨(days + 719468) / 146097, year, dayOfEra - (365 * year + year / 4 - year / 100),
    by omega, by omega, by omega, by omega, fun last => leap (by omega), by omega, ?_⟩
  rw [ofDays, ← era, ← formula]
  rfl

/-- A date leads back to its day. -/
theorem toDays_ofDays (days : Int) : (ofDays days).toDays = days := by
  obtain ⟨era, year, day, _, _, _, _, _, sum, date⟩ := exists_parts days
  obtain ⟨month, formula⟩ : ∃ m, m = (5 * day + 2) / 153 := ⟨_, rfl⟩
  rw [date, sum]
  simp only [ofParts, ← formula]
  split
  · simp only [toDays]
    rw [if_neg (by omega), if_neg (by omega)]
    omega
  · simp only [toDays]
    rw [if_pos (by omega), if_pos (by omega)]
    omega

/-- The year that begins in the March before a leap day is followed by a leap year. -/
theorem isLeapYear_of_leap {era year : Int} (leap : year % 4 = 3 ∧ (year % 100 ≠ 99 ∨ year = 399)) :
    isLeapYear (year + era * 400 + 1) = true := by
  simp only [isLeapYear, ne_eq, decide_not, Bool.and_eq_true, decide_eq_true_eq, Bool.or_eq_true,
    Bool.not_eq_eq_eq_not, Bool.not_true, decide_eq_false_iff_not]
  omega

/-- The date of a day exists. -/
theorem isValid_ofDays (days : Int) : (ofDays days).isValid = true := by
  obtain ⟨era, year, day, _, _, _, _, leap, _, date⟩ := exists_parts days
  obtain ⟨month, formula⟩ : ∃ m, m = (5 * day + 2) / 153 := ⟨_, rfl⟩
  simp only [date, ofParts, ← formula]
  split
  · simp only [isValid, daysInMonth, Bool.and_eq_true, decide_eq_true_eq]
    refine ⟨⟨⟨by omega, by omega⟩, by omega⟩, ?_⟩
    rw [if_neg (by omega)]
    split <;> omega
  · simp only [isValid, daysInMonth, Bool.and_eq_true, decide_eq_true_eq]
    refine ⟨⟨⟨by omega, by omega⟩, by omega⟩, ?_⟩
    split
    · by_cases last : day = 365
      · rw [if_pos (isLeapYear_of_leap (leap last))]
        omega
      · split <;> omega
    · split <;> omega

/-- A second of the calendar lies in a year of the calendar. -/
theorem inCalendar_ofDays {second : Int} (inside : Instant.inCalendar second = true) :
    inCalendar (ofDays (second / 86400)).year = true := by
  obtain ⟨era, year, day, _, _, _, _, _, sum, date⟩ := exists_parts (second / 86400)
  obtain ⟨month, formula⟩ : ∃ m, m = (5 * day + 2) / 153 := ⟨_, rfl⟩
  obtain ⟨first, -, -, last⟩ := Instant.bounds
  simp only [Instant.inCalendar, first, last, Bool.and_eq_true, decide_eq_true_eq] at inside
  have low : -656 < era ∨ era = -656 := by omega
  have high : era < 655 ∨ era = 655 := by omega
  simp only [date, ofParts, ← formula]
  split <;>
  · simp only [inCalendar, Bool.and_eq_true, decide_eq_true_eq]
    omega

end Date

end ChassisCooling.Calendar
