/-
Days and dates are numbered one to one.

A date is found from its day number by three divisions: by the days of 400 years, by the days of a
year, and by the days of a month.  The first is exact.  The second corrects for the leap days
before it divides, and what makes it right is that the corrected number never falls from one day to
the next: so it is enough to look at the first and the last day of each of the 400 years.  In the
third, months from March on begin where a straight line says, and only the last of them, February,
ends early.
-/
import Mathlib.Order.Monotone.Basic
import Mathlib.Order.SuccPred.Basic
import Mathlib.Tactic.IntervalCases
import SeriesQuery.Time.Calendar

namespace SeriesQuery.Date

/-! ### Years -/

/-- The days from the first of March of year 0 to that of the year. -/
def daysBeforeYear (year : Int) : Int :=
  year * 365 + year / 4 - year / 100 + year / 400

/-- The number of days from one first of March to the next: the leap day belongs to the year that
    ends with it. -/
theorem daysBeforeYear_succ (year : Int) :
    daysBeforeYear (year + 1) =
      daysBeforeYear year + if isLeapYear (year + 1) then 366 else 365 := by
  have hleap : isLeapYear (year + 1) = true ↔
      (year + 1) % 4 = 0 ∧ ((year + 1) % 100 ≠ 0 ∨ (year + 1) % 400 = 0) := by
    simp [isLeapYear]
  unfold daysBeforeYear
  split
  · rename_i h
    have h := hleap.mp h
    omega
  · rename_i h
    have h := mt hleap.mpr h
    omega

theorem daysBeforeYear_lt_iff {year year' : Int} :
    daysBeforeYear year < daysBeforeYear year' ↔ year < year' := by
  have hstrict : StrictMono daysBeforeYear := strictMono_int_of_lt_succ fun year => by
    rw [daysBeforeYear_succ]
    split <;> omega
  exact hstrict.lt_iff_lt

theorem daysBeforeYear_le {year year' : Int} (h : year ≤ year') :
    daysBeforeYear year ≤ daysBeforeYear year' :=
  Int.not_lt.mp (mt daysBeforeYear_lt_iff.mp (Int.not_lt.mpr h))

theorem daysBeforeYear_add_eras (era year : Int) :
    daysBeforeYear (era * 400 + year) = era * 146097 + daysBeforeYear year := by
  unfold daysBeforeYear
  omega

/-- A day lies in one year only. -/
theorem eq_of_daysBeforeYear {year year' days : Int} (hle : daysBeforeYear year ≤ days)
    (hlt : days < daysBeforeYear (year + 1)) (hle' : daysBeforeYear year' ≤ days)
    (hlt' : days < daysBeforeYear (year' + 1)) : year = year' := by
  have h : year < year' + 1 := daysBeforeYear_lt_iff.mp (hle.trans_lt hlt')
  have h' : year' < year + 1 := daysBeforeYear_lt_iff.mp (hle'.trans_lt hlt)
  omega

/-- The year, counted within 400 years, that a day of them is taken to lie in. -/
def yearOfEra (day : Int) : Int :=
  (day - day / 1460 + day / 36524 - day / 146096) / 365

theorem yearOfEra_ends : ∀ year < 400,
    yearOfEra (daysBeforeYear (year : Nat)) = (year : Nat) ∧
      yearOfEra (daysBeforeYear ((year : Nat) + 1) - 1) = (year : Nat) := by
  decide +kernel

/-- From one day to the next the year stays or grows. -/
theorem yearOfEra_mono {day day' : Int} (hday : 0 ≤ day) (h : day ≤ day')
    (hday' : day' < 146097) : yearOfEra day ≤ yearOfEra day' := by
  -- before the very last day, which has a term of its own
  have hbefore {day day' : Int} (hday : 0 ≤ day) (h : day ≤ day') (hday' : day' < 146096) :
      yearOfEra day ≤ yearOfEra day' := by
    have hcentury : day / 36524 ≤ day' / 36524 := Int.ediv_le_ediv (by decide) h
    have hfour : day - day / 1460 ≤ day' - day' / 1460 := by omega
    have hnone : day / 146096 = 0 := Int.ediv_eq_zero_of_lt hday (h.trans_lt hday')
    have hnone' : day' / 146096 = 0 := Int.ediv_eq_zero_of_lt (hday.trans h) hday'
    unfold yearOfEra
    rw [hnone, hnone']
    exact Int.ediv_le_ediv (by decide) (by omega)
  by_cases hlast : day' < 146096
  · exact hbefore hday h hlast
  · obtain rfl : day' = 146096 := by omega
    by_cases heq : day = 146096
    · rw [heq]
    · exact (hbefore hday (by omega : day ≤ 146095) (by decide)).trans (by decide)

/-- A day of 400 years lies in the year that it is taken to lie in. -/
theorem yearOfEra_spec {day : Int} (hday : 0 ≤ day) (hlt : day < 146097) :
    (0 ≤ yearOfEra day ∧ yearOfEra day < 400) ∧
      daysBeforeYear (yearOfEra day) ≤ day ∧ day < daysBeforeYear (yearOfEra day + 1) := by
  have hlow : 0 ≤ yearOfEra day := yearOfEra_mono le_rfl hday hlt
  have hhigh : yearOfEra day ≤ 399 := yearOfEra_mono hday (by omega : day ≤ 146096) (by decide)
  obtain ⟨year, hyear⟩ : ∃ year : Nat, yearOfEra day = year := ⟨_, (Int.toNat_of_nonneg hlow).symm⟩
  rw [hyear] at hhigh ⊢
  refine ⟨⟨by omega, by omega⟩, ?_, ?_⟩
  · by_contra hbefore
    obtain ⟨last, rfl⟩ : ∃ last : Nat, year = last + 1 := by
      refine Nat.exists_eq_succ_of_ne_zero ?_
      rintro rfl
      exact hbefore hday
    -- the last day of the year before is not earlier, and is taken to lie in that year
    have hle : day ≤ daysBeforeYear ((last : Nat) + 1) - 1 := by
      push_cast at hbefore
      omega
    have htotal : daysBeforeYear ((last : Nat) + 1) ≤ daysBeforeYear 400 :=
      daysBeforeYear_le (by omega)
    have hsize : daysBeforeYear 400 = 146097 := by decide
    have hmono := yearOfEra_mono hday hle (by omega)
    have hend := (yearOfEra_ends last (by omega)).2
    omega
  · by_contra hbehind
    by_cases hfinal : year = 399
    · subst hfinal
      exact hbehind hlt
    · -- the first day of the year after is not later, and is taken to lie in that year
      have hle : daysBeforeYear ((year + 1 : Nat)) ≤ day := by
        push_cast
        omega
      have hfirst : daysBeforeYear 0 ≤ daysBeforeYear ((year + 1 : Nat)) :=
        daysBeforeYear_le (by omega)
      have hmono := yearOfEra_mono hfirst hle hlt
      have hstart := (yearOfEra_ends (year + 1) (by omega)).1
      omega

/-- The year that a day lies in. -/
def yearOfDay (days : Int) : Int :=
  days / 146097 * 400 + yearOfEra (days % 146097)

theorem yearOfDay_spec (days : Int) :
    daysBeforeYear (yearOfDay days) ≤ days ∧ days < daysBeforeYear (yearOfDay days + 1) := by
  have hmod := Int.emod_nonneg days (by decide : (146097 : Int) ≠ 0)
  have hlt := Int.emod_lt_of_pos days (by decide : (0 : Int) < 146097)
  obtain ⟨-, hle, hend⟩ := yearOfEra_spec hmod hlt
  unfold yearOfDay
  rw [daysBeforeYear_add_eras, Int.add_assoc, daysBeforeYear_add_eras]
  omega

/-! ### Months -/

/-- The days of a year from March on before a month, which is counted from March. -/
def daysBeforeMonth (month : Int) : Int :=
  (153 * month + 2) / 5

/-- A day lies in one month only. -/
theorem month_eq_iff {month day : Int} :
    (5 * day + 2) / 153 = month ↔
      daysBeforeMonth month ≤ day ∧ day < daysBeforeMonth (month + 1) := by
  unfold daysBeforeMonth
  omega

/-! ### Dates -/

/-- The year from March that the date lies in. -/
def marchYear (d : Date) : Int :=
  if d.month ≤ 2 then d.year - 1 else d.year

/-- The month of the date, counted from March. -/
def marchMonth (d : Date) : Int :=
  (d.month + 9) % 12

/-- The day number of the first of March of year 0. -/
def firstMarch : Int := -719468

theorem dayNumber_eq (d : Date) :
    d.dayNumber =
      daysBeforeYear d.marchYear + daysBeforeMonth d.marchMonth + (d.day - 1) + firstMarch := by
  have hyear := daysBeforeYear_add_eras (d.marchYear / 400) (d.marchYear % 400)
  rw [Int.mul_comm, Int.mul_ediv_add_emod] at hyear
  rw [hyear]
  unfold dayNumber
  simp only
  rw [show (if d.month ≤ 2 then d.year - 1 else d.year) = d.marchYear from rfl,
    show ((d.month : Int) + 9) % 12 = d.marchMonth from rfl]
  unfold daysBeforeYear daysBeforeMonth firstMarch
  omega

theorem isValid_iff {d : Date} : d.isValid = true ↔
    (1 ≤ d.month ∧ d.month ≤ 12) ∧ 1 ≤ d.day ∧ d.day ≤ daysInMonth d.year d.month := by
  unfold isValid
  simp only [Bool.and_eq_true, decide_eq_true_eq]
  tauto

theorem daysInMonth_bounds (year : Int) (month : Nat) :
    28 ≤ daysInMonth year month ∧ daysInMonth year month ≤ 31 := by
  unfold daysInMonth
  split_ifs <;> decide

/-- Months and days have two digits. -/
theorem lt_of_isValid {d : Date} (h : d.isValid = true) : d.month < 100 ∧ d.day < 100 := by
  obtain ⟨⟨-, hmonth⟩, -, hday⟩ := isValid_iff.mp h
  have hdays := (daysInMonth_bounds d.year d.month).2
  omega

/-- The day of the year, counted from 0 on the first of March. -/
def dayOfYear (d : Date) : Int :=
  daysBeforeMonth d.marchMonth + (d.day - 1)

/-- A date of the calendar lies within its year and within its month. -/
theorem dayOfYear_spec {d : Date} (h : d.isValid = true) :
    (0 ≤ d.dayOfYear ∧
      daysBeforeYear d.marchYear + d.dayOfYear < daysBeforeYear (d.marchYear + 1)) ∧
      daysBeforeMonth d.marchMonth ≤ d.dayOfYear ∧
        d.dayOfYear < daysBeforeMonth (d.marchMonth + 1) := by
  obtain ⟨year, month, day⟩ := d
  obtain ⟨⟨hmonth, hmonth'⟩, hday, hday'⟩ := isValid_iff.mp h
  rw [daysBeforeYear_succ]
  simp only at hmonth hmonth' hday hday'
  unfold dayOfYear marchYear marchMonth
  interval_cases month <;> simp [daysInMonth, daysBeforeMonth] at hday' ⊢ <;> grind

/-- A year has twelve months. -/
theorem month_of_day {days day month : Int} (hday : days - daysBeforeYear (yearOfDay days) = day)
    (hmonth : (5 * day + 2) / 153 = month) : 0 ≤ month ∧ month < 12 := by
  obtain ⟨hle, hlt⟩ := yearOfDay_spec days
  rw [daysBeforeYear_succ] at hlt
  split at hlt <;> omega

/-- The parts of a date that is found from its day number. -/
theorem ofDayNumber_eq (n : Int) {year day month : Int} (hyear : yearOfDay (n - firstMarch) = year)
    (hday : n - firstMarch - daysBeforeYear year = day) (hmonth : (5 * day + 2) / 153 = month) :
    ofDayNumber n =
      ⟨if month < 10 then year else year + 1, (if month < 10 then month + 3 else month - 9).toNat,
        (day - daysBeforeMonth month + 1).toNat⟩ := by
  have hdays : n + 719468 = n - firstMarch := rfl
  have hmonth12 := month_of_day (hyear ▸ hday) hmonth
  unfold ofDayNumber
  rw [hdays]
  unfold yearOfDay at hyear
  generalize n - firstMarch = days at hyear hday
  have hmod := Int.emod_nonneg days (by decide : (146097 : Int) ≠ 0)
  have hlt := Int.emod_lt_of_pos days (by decide : (0 : Int) < 146097)
  obtain ⟨⟨hlow, hhigh⟩, -⟩ := yearOfEra_spec hmod hlt
  have hday' : days % 146097 - (365 * yearOfEra (days % 146097) +
      yearOfEra (days % 146097) / 4 - yearOfEra (days % 146097) / 100) = day := by
    rw [← hday, ← hyear, daysBeforeYear_add_eras]
    unfold daysBeforeYear
    omega
  simp only
  rw [show (days % 146097 - days % 146097 / 1460 + days % 146097 / 36524 -
    days % 146097 / 146096) / 365 = yearOfEra (days % 146097) from rfl, hday', hmonth, hyear]
  have hmarch : (if month < 10 then month + 3 else month - 9) ≤ 2 ↔ ¬ month < 10 := by
    split <;> omega
  simp only [hmarch, ite_not]
  rfl

/-- **Every day number has a date of the calendar, which has that number.** -/
theorem ofDayNumber_spec (n : Int) :
    (ofDayNumber n).isValid = true ∧ (ofDayNumber n).dayNumber = n := by
  obtain ⟨year, hyear⟩ : ∃ year, yearOfDay (n - firstMarch) = year := ⟨_, rfl⟩
  obtain ⟨day, hday⟩ : ∃ day, n - firstMarch - daysBeforeYear year = day := ⟨_, rfl⟩
  obtain ⟨month, hmonth⟩ : ∃ month, (5 * day + 2) / 153 = month := ⟨_, rfl⟩
  obtain ⟨hle, hlt⟩ := yearOfDay_spec (n - firstMarch)
  obtain ⟨hmonthLe, hmonthLt⟩ := month_eq_iff.mp hmonth
  obtain ⟨hlow, hhigh⟩ := month_of_day (hyear ▸ hday) hmonth
  rw [ofDayNumber_eq n hyear hday hmonth]
  rw [hyear] at hle hlt
  rw [daysBeforeYear_succ] at hlt
  constructor
  · rw [isValid_iff]
    interval_cases month <;> simp [daysInMonth, daysBeforeMonth] at * <;> grind
  · rw [dayNumber_eq]
    unfold marchYear marchMonth
    interval_cases month <;> simp [daysBeforeMonth] at * <;> grind

/-- Dates of the calendar that have the same number are the same. -/
theorem eq_of_dayNumber_eq {d d' : Date} (h : d.isValid = true) (h' : d'.isValid = true)
    (hnumber : d.dayNumber = d'.dayNumber) : d = d' := by
  obtain ⟨⟨hle, hlt⟩, hmonth⟩ := dayOfYear_spec h
  obtain ⟨⟨hle', hlt'⟩, hmonth'⟩ := dayOfYear_spec h'
  obtain ⟨⟨hlow, hhigh⟩, hday, -⟩ := isValid_iff.mp h
  obtain ⟨⟨hlow', hhigh'⟩, hday', -⟩ := isValid_iff.mp h'
  have hdays : daysBeforeYear d.marchYear + d.dayOfYear =
      daysBeforeYear d'.marchYear + d'.dayOfYear := by
    rw [dayNumber_eq, dayNumber_eq] at hnumber
    unfold dayOfYear
    omega
  have hyear : d.marchYear = d'.marchYear :=
    eq_of_daysBeforeYear (Int.le_add_of_nonneg_right hle) hlt (by omega) (by omega)
  have hday : d.dayOfYear = d'.dayOfYear := by
    rw [hyear] at hdays
    omega
  have hmarch : d.marchMonth = d'.marchMonth :=
    (month_eq_iff.mpr hmonth).symm.trans (hday ▸ month_eq_iff.mpr hmonth')
  obtain ⟨year, month, day⟩ := d
  obtain ⟨year', month', day'⟩ := d'
  simp only [marchYear, marchMonth, dayOfYear, mk.injEq] at *
  rw [hmarch] at hday
  grind

/-- **A date of the calendar is found again from its day number.** -/
theorem ofDayNumber_dayNumber {d : Date} (h : d.isValid = true) : ofDayNumber d.dayNumber = d := by
  obtain ⟨hvalid, hnumber⟩ := ofDayNumber_spec d.dayNumber
  exact eq_of_dayNumber_eq hvalid h hnumber

/-! ### The next day and the day before -/

/-- The day after the date: the next of its month, or the first of the next month or year. -/
def next (d : Date) : Date :=
  if d.day < daysInMonth d.year d.month then ⟨d.year, d.month, d.day + 1⟩
  else if d.month < 12 then ⟨d.year, d.month + 1, 1⟩
  else ⟨d.year + 1, 1, 1⟩

/-- The day before the date: the one before it in its month, or the last of the month or year
    before. -/
def previous (d : Date) : Date :=
  if 1 < d.day then ⟨d.year, d.month, d.day - 1⟩
  else if 1 < d.month then ⟨d.year, d.month - 1, daysInMonth d.year (d.month - 1)⟩
  else ⟨d.year - 1, 12, 31⟩

theorem next_spec {d : Date} (h : d.isValid = true) :
    d.next.isValid = true ∧ d.next.dayNumber = d.dayNumber + 1 := by
  obtain ⟨year, month, day⟩ := d
  obtain ⟨⟨hmonth, hmonth'⟩, hday, hday'⟩ := isValid_iff.mp h
  simp only at hmonth hmonth' hday hday'
  rw [isValid_iff, dayNumber_eq, dayNumber_eq]
  unfold next
  split
  · rename_i hlt
    simp only at hlt
    simp only [marchYear, marchMonth]
    omega
  · rename_i hlast
    have hleap := daysBeforeYear_succ (year - 1)
    simp only at hlast
    interval_cases month <;> simp [daysInMonth, marchYear, marchMonth, daysBeforeMonth] at * <;>
      grind

theorem isValid_previous {d : Date} (h : d.isValid = true) : d.previous.isValid = true := by
  obtain ⟨⟨hmonth, hmonth'⟩, hday, hday'⟩ := isValid_iff.mp h
  rw [isValid_iff]
  unfold previous
  split
  · simp only
    omega
  · split
    · have hdays := (daysInMonth_bounds d.year (d.month - 1)).1
      simp only
      omega
    · simp [daysInMonth]

/-- The day after the day before is the day itself. -/
theorem next_previous {d : Date} (h : d.isValid = true) : d.previous.next = d := by
  obtain ⟨year, month, day⟩ := d
  obtain ⟨⟨hmonth, hmonth'⟩, hday, hday'⟩ := isValid_iff.mp h
  simp only at hmonth hmonth' hday hday'
  unfold previous
  simp only
  split
  · rename_i hfirst
    have hbelow : day - 1 < daysInMonth year month := by omega
    simp only [next, if_pos hbelow, mk.injEq, true_and]
    omega
  · obtain rfl : day = 1 := by omega
    split
    · have hbelow : month - 1 < 12 := by omega
      simp only [next, Nat.lt_irrefl, if_false, if_pos hbelow, mk.injEq, true_and, and_true]
      omega
    · obtain rfl : month = 1 := by omega
      simp [next, daysInMonth]

theorem dayNumber_previous {d : Date} (h : d.isValid = true) :
    d.previous.dayNumber = d.dayNumber - 1 := by
  have hnext := (next_spec (isValid_previous h)).2
  rw [next_previous h] at hnext
  omega

end SeriesQuery.Date
