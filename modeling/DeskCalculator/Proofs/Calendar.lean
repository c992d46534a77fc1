import DeskCalculator.Instant.Calendar
import Mathlib.Tactic.IntervalCases

/-!
# DeskCalculator.Proofs.Calendar — days and dates correspond

The year of a day in its era is found without a search: the day is first corrected by the leap days
before it, so that all years have 365 days.  The corrected day grows with the day, so that the
formula needs to be checked only at the first and at the last day of each of the 400 years.

* `Date.ofDays_spec`: the date of a day exists in the calendar, and gives the day back.
-/

namespace DeskCalculator.Date

/-! ## Years of an era -/

/-- The first day of a year of an era. -/
def yearStart (y : Nat) : Nat := 365 * y + y / 4 - y / 100 + y / 400

/-- The day of an era without the leap days before it. -/
def corrected (day : Nat) : Nat := day - day / 1460 + day / 36524 - day / 146096

theorem corrected_mono {m n : Nat} (h : m ≤ n) (hn : n < 146097) : corrected m ≤ corrected n := by
  have hleap : m / 1460 ≤ n / 1460 := Nat.div_le_div_right h
  unfold corrected
  omega

theorem corrected_bounds : ∀ y < 400,
    365 * y ≤ corrected (yearStart y) ∧ corrected (yearStart (y + 1) - 1) < 365 * (y + 1) := by
  decide +kernel

/-- The year of a day of an era. -/
theorem yearStart_le {day : Nat} (hday : day < 146097) :
    corrected day / 365 < 400 ∧ yearStart (corrected day / 365) ≤ day ∧
      day < yearStart (corrected day / 365 + 1) := by
  have hlast : corrected day ≤ corrected 146096 := corrected_mono (by omega) (by decide)
  have hyear : corrected day / 365 < 400 := by
    have hvalue : corrected 146096 = 145999 := by decide
    omega
  refine ⟨hyear, ?_, ?_⟩
  · refine Nat.not_lt.mp fun hbefore => ?_
    -- the day is not after the last day of the year before
    obtain ⟨y, hy⟩ : ∃ y, corrected day / 365 = y + 1 := by
      refine Nat.exists_eq_add_one_of_ne_zero fun hzero => ?_
      rw [hzero] at hbefore
      exact absurd hbefore (Nat.not_lt.mpr (Nat.zero_le day))
    rw [hy] at hbefore
    have hmono := corrected_mono (m := day) (n := yearStart (y + 1) - 1) (by omega) (by
      unfold yearStart
      omega)
    have hbound := (corrected_bounds y (by omega)).2
    omega
  · refine Nat.not_le.mp fun hafter => ?_
    have hmono := corrected_mono hafter hday
    have hnext : corrected day / 365 + 1 < 400 := by
      refine Nat.not_le.mp fun hlimit => ?_
      have h399 : corrected day / 365 = 399 := by omega
      rw [h399] at hafter
      exact absurd hday (Nat.not_lt.mpr hafter)
    have hbound := (corrected_bounds _ hnext).1
    omega

/-! ## Months -/

/-- The date of a day of a year of an era; the years begin in March. -/
def ofYearDay (era : Int) (y day : Nat) : Date :=
  let month := (5 * day + 2) / 153
  { year := if month < 10 then era * 400 + y else era * 400 + y + 1
    month := if month < 10 then month + 3 else month - 9
    day := day - (153 * month + 2) / 5 + 1 }

theorem ofDays_eq (days : Int) : ∃ (era : Int) (y day : Nat), y < 400 ∧
    day < yearStart (y + 1) - yearStart y ∧ days + epoch = era * 146097 + yearStart y + day ∧
      ofDays days = ofYearDay era y day := by
  let dayOfEra := ((days + epoch) % 146097).toNat
  have hday : dayOfEra < 146097 := by omega
  obtain ⟨hyear, hstart, hend⟩ := yearStart_le hday
  have hsum : 365 * (corrected dayOfEra / 365) + corrected dayOfEra / 365 / 4 -
      corrected dayOfEra / 365 / 100 = yearStart (corrected dayOfEra / 365) := by
    unfold yearStart
    omega
  refine ⟨(days + epoch) / 146097, corrected dayOfEra / 365,
    dayOfEra - yearStart (corrected dayOfEra / 365), hyear, by omega, by omega, ?_⟩
  rw [← hsum]
  rfl

section

variable {era : Int} {y day : Nat}

theorem month_bounds (hday : day < 366) :
    (5 * day + 2) / 153 < 12 ∧ (153 * ((5 * day + 2) / 153) + 2) / 5 ≤ day := by
  omega

theorem ofYearDay_toDays (hy : y < 400) (hday : day < 366) :
    (ofYearDay era y day).toDays = era * 146097 + yearStart y + day - epoch := by
  obtain ⟨hmonth, hfirst⟩ := month_bounds hday
  have hera : (era * 400 + y) / 400 = era := by omega
  have hyear : (era * 400 + y) % 400 = y := by omega
  unfold ofYearDay toDays yearStart
  generalize (5 * day + 2) / 153 = month at hmonth hfirst
  dsimp only
  split
  · have hturn : (month + 3 + 9) % 12 = month := by omega
    rw [if_neg (by omega), hera, hyear, hturn]
    omega
  · have hturn : (month - 9 + 9) % 12 = month := by omega
    rw [if_pos (by omega), Int.add_sub_cancel, hera, hyear, hturn]
    omega

/-- A year from March has a leap day at its end when the next calendar year is a leap year. -/
theorem yearLength_of_not_leap (hy : y < 400) (h : isLeapYear (era * 400 + y + 1) = false) :
    yearStart (y + 1) - yearStart y ≤ 365 := by
  simp only [isLeapYear, Bool.and_eq_false_iff, Bool.or_eq_false_iff, beq_eq_false_iff_ne,
    bne_eq_false_iff_eq] at h
  unfold yearStart
  omega

/-- The months from March are as long as the formula takes them to be; only February, the last of
them, depends on the year. -/
theorem day_le_monthLength {month : Nat} (hmonth : month < 12)
    (hvalue : (5 * day + 2) / 153 = month) (year : Int) (hday : day < 366)
    (hleap : month = 11 → isLeapYear year = false → day < 365) :
    day - (153 * month + 2) / 5 + 1 ≤
      monthLength year (if month < 10 then month + 3 else month - 9) := by
  unfold monthLength
  cases hyear : isLeapYear year <;> interval_cases month <;> simp [hyear] at hleap ⊢ <;> omega

theorem ofYearDay_valid (hy : y < 400) (hday : day < yearStart (y + 1) - yearStart y) :
    (ofYearDay era y day).Valid := by
  have hlong : day < 366 := by
    unfold yearStart at hday
    omega
  obtain ⟨hmonth, hfirst⟩ := month_bounds hlong
  unfold ofYearDay Valid
  generalize hvalue : (5 * day + 2) / 153 = month at hmonth hfirst
  dsimp only
  refine ⟨?_, ?_, by omega, day_le_monthLength hmonth hvalue _ hlong fun hlast hleap => ?_⟩
  · split <;> omega
  · split <;> omega
  · rw [if_neg (by omega)] at hleap
    have hlength := yearLength_of_not_leap hy hleap
    omega

end

/-- **Days and dates correspond.**  The date of a day exists in the calendar and gives the day
back. -/
theorem ofDays_spec (days : Int) : (ofDays days).Valid ∧ (ofDays days).toDays = days := by
  obtain ⟨era, y, day, hy, hday, hdays, hdate⟩ := ofDays_eq days
  have hlong : yearStart (y + 1) - yearStart y ≤ 366 := by
    unfold yearStart
    omega
  rw [hdate]
  refine ⟨ofYearDay_valid hy hday, ?_⟩
  rw [ofYearDay_toDays hy (by omega)]
  omega

theorem Valid.day_le {d : Date} (h : d.Valid) : d.day ≤ 31 := by
  have hlength : monthLength d.year d.month ≤ 31 := by
    unfold monthLength
    split <;> split <;> decide
  exact h.2.2.2.trans hlength

end DeskCalculator.Date
