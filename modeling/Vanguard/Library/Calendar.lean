import Mathlib.Tactic.IntervalCases
import Mathlib.Algebra.Order.Ring.Int

/-!
# `Vanguard.Library.Calendar`: calendar dates, day numbers and clocks

A `CivilDate` is a date of the proleptic Gregorian calendar: its month and its day are in
range. `CivilDate.dayNumber` counts the days since 1 January 1970 and `CivilDate.ofDayNumber`
is its inverse (`ofDayNumber_dayNumber`, `dayNumber_ofDayNumber`).

The conversions count in years that begin in March, so that the leap day is the last day of a
year: `yearStart` is the first day of such a year and `monthStart` the first day of a month in
it, both counted from 1 March of the year 0.

A clock that is `offset` milliseconds ahead of UTC shows the date `localDate offset t` at the
instant `t`, and `localMidnight offset d` is the instant at which its date `d` begins.
-/

set_option autoImplicit false

namespace Calendar

/-- A year with a 29 February. -/
def isLeapYear (year : Int) : Bool :=
  year % 4 == 0 && (year % 100 != 0 || year % 400 == 0)

/-- The days of a month. -/
def daysInMonth (year month : Int) : Int :=
  if month = 2 then if isLeapYear year then 29 else 28
  else if month = 4 ∨ month = 6 ∨ month = 9 ∨ month = 11 then 30
  else 31

/-- A date of the proleptic Gregorian calendar. -/
@[ext]
structure CivilDate where
  year : Int
  month : Int
  day : Int
  month_pos : 1 ≤ month
  month_le : month ≤ 12
  day_pos : 1 ≤ day
  day_le : day ≤ daysInMonth year month
  deriving DecidableEq

/-! ### Years that begin in March -/

/-- The first day of the year that begins in March of `year`. -/
def yearStart (year : Int) : Int := 365 * year + year / 4 - year / 100 + year / 400

/-- The year of a day. The quotient is at most one year off. -/
def yearOf (n : Int) : Int :=
  let year := 400 * n / 146097
  if n < yearStart year then year - 1
  else if yearStart (year + 1) ≤ n then year + 1
  else year

/-- The first day of the month `m` of a year, from `0` for March to `11` for February. -/
def monthStart (m : Int) : Int := (153 * m + 2) / 5

/-- The month of the day `k` of a year. -/
def monthOf (k : Int) : Int := (5 * k + 2) / 153

/-- A year begins near `365.2425` times its number. -/
theorem yearStart_bounds (year : Int) :
    146097 * year - 700 ≤ 400 * yearStart year ∧ 400 * yearStart year ≤ 146097 * year + 400 := by
  simp only [yearStart]
  constructor <;> omega

/-- The day lies in its year. -/
theorem yearOf_spec (n : Int) : yearStart (yearOf n) ≤ n ∧ n < yearStart (yearOf n + 1) := by
  unfold yearOf
  have hmin : 146097 * (400 * n / 146097) ≤ 400 * n := by omega
  have hmax : 400 * n < 146097 * (400 * n / 146097 + 1) := by omega
  generalize 400 * n / 146097 = year at hmin hmax
  dsimp only
  split
  · -- The quotient is the year after.
    rename_i hlt
    have := yearStart_bounds (year - 1)
    rw [Int.sub_add_cancel]
    constructor <;> omega
  · split
    · -- The quotient is the year before.
      rename_i hle
      have := yearStart_bounds (year + 1 + 1)
      constructor <;> omega
    · constructor <;> omega

/-- The years follow each other. -/
theorem yearStart_le {year year' : Int} (h : year ≤ year') : yearStart year ≤ yearStart year' := by
  simp only [yearStart]
  omega

/-- There is one year that a day lies in. -/
theorem yearOf_eq {n year : Int} (hmin : yearStart year ≤ n) (hmax : n < yearStart (year + 1)) :
    yearOf n = year := by
  obtain ⟨hmin', hmax'⟩ := yearOf_spec n
  by_contra hne
  rcases Int.lt_or_gt_of_ne hne with hlt | hlt
  · have := yearStart_le (show yearOf n + 1 ≤ year by omega)
    omega
  · have := yearStart_le (show year + 1 ≤ yearOf n by omega)
    omega

/-- A year has 366 days when the February at its end has 29. -/
theorem yearStart_succ (year : Int) : yearStart (year + 1) = yearStart year + 365 +
    if isLeapYear (year + 1) then 1 else 0 := by
  simp only [isLeapYear, yearStart, Bool.and_eq_true, Bool.or_eq_true, beq_iff_eq, bne_iff_ne]
  split <;> omega

/-- The last day of a year is at most its day 365. -/
theorem le_of_yearDay {year k : Int} (h : k < yearStart (year + 1) - yearStart year) :
    k ≤ 365 := by
  have hk := yearStart_succ year
  split at hk <;> omega

/-- A day of a year lies in one of the twelve months. -/
theorem monthOf_bounds {k : Int} (hmin : 0 ≤ k) (hmax : k ≤ 365) :
    0 ≤ monthOf k ∧ monthOf k ≤ 11 := by
  simp only [monthOf]
  constructor <;> omega

/-- The day lies in its month. -/
theorem monthOf_spec (k : Int) :
    monthStart (monthOf k) ≤ k ∧ k < monthStart (monthOf k + 1) := by
  simp only [monthStart, monthOf]
  constructor <;> omega

/-- There is one month that a day lies in. -/
theorem monthOf_eq {k m : Int} (hmin : monthStart m ≤ k) (hmax : k < monthStart (m + 1)) :
    monthOf k = m := by
  simp only [monthStart] at hmin hmax
  simp only [monthOf]
  omega

/-- The number of the month `m` in the calendar. -/
def civilMonth (m : Int) : Int := if m < 10 then m + 3 else m - 9

/-- The length of a month other than February. -/
theorem monthStart_succ {m : Int} (hmin : 0 ≤ m) (hmax : m < 11) (year : Int) :
    monthStart (m + 1) = monthStart m + daysInMonth year (civilMonth m) := by
  interval_cases m <;> rfl

/-! ### Day numbers -/

/-- The day number of 1 March of the year 0, with the other sign. -/
def epochShift : Int := 719468

namespace CivilDate

/-- The year that begins in March and has the date in it. -/
def marchYear (d : CivilDate) : Int := if d.month ≤ 2 then d.year - 1 else d.year

/-- The month of the date in this year. -/
def marchMonth (d : CivilDate) : Int := if d.month ≤ 2 then d.month + 9 else d.month - 3

/-- The days since 1 January 1970. -/
def dayNumber (d : CivilDate) : Int :=
  yearStart d.marchYear + monthStart d.marchMonth + (d.day - 1) - epochShift

/-- The date of the day `k` of the year that begins in March of `year`. -/
def ofYearDay (year k : Int) (hmin : 0 ≤ k) (hmax : k < yearStart (year + 1) - yearStart year) :
    CivilDate where
  year := if monthOf k < 10 then year else year + 1
  month := civilMonth (monthOf k)
  day := k - monthStart (monthOf k) + 1
  month_pos := by
    have hm := monthOf_bounds hmin (le_of_yearDay hmax)
    unfold civilMonth
    split <;> omega
  month_le := by
    have hm := monthOf_bounds hmin (le_of_yearDay hmax)
    unfold civilMonth
    split <;> omega
  day_pos := by
    have hk := monthOf_spec k
    omega
  day_le := by
    have hm := monthOf_bounds hmin (le_of_yearDay hmax)
    have hk := monthOf_spec k
    by_cases hlast : monthOf k < 11
    · have := monthStart_succ hm.1 hlast (if monthOf k < 10 then year else year + 1)
      omega
    · -- February: the year ends after 28 or 29 days of it.
      have hfeb : monthOf k = 11 := by omega
      have hyear := yearStart_succ year
      rw [hfeb] at hk ⊢
      show k - 337 + 1 ≤ if isLeapYear (year + 1) then 29 else 28
      split at hyear
      · rw [if_pos ‹_›]
        omega
      · rw [if_neg ‹_›]
        omega

/-- The date of a day number. -/
def ofDayNumber (n : Int) : CivilDate :=
  ofYearDay (yearOf (n + epochShift)) (n + epochShift - yearStart (yearOf (n + epochShift)))
    (by have := (yearOf_spec (n + epochShift)).1; omega)
    (by have := (yearOf_spec (n + epochShift)).2; omega)

/-- The date of a day of a year has this day number. -/
theorem dayNumber_ofYearDay {year k : Int} (hmin : 0 ≤ k)
    (hmax : k < yearStart (year + 1) - yearStart year) :
    (ofYearDay year k hmin hmax).dayNumber = yearStart year + k - epochShift := by
  have hm := monthOf_bounds hmin (le_of_yearDay hmax)
  have hyear : (ofYearDay year k hmin hmax).marchYear = year := by
    simp only [marchYear, ofYearDay, civilMonth]
    split <;> split <;> omega
  have hmonth : (ofYearDay year k hmin hmax).marchMonth = monthOf k := by
    simp only [marchMonth, ofYearDay, civilMonth]
    split <;> split <;> omega
  rw [dayNumber, hyear, hmonth]
  simp only [ofYearDay]
  omega

/-- Every day number is the one of its date. -/
@[simp]
theorem dayNumber_ofDayNumber (n : Int) : (ofDayNumber n).dayNumber = n := by
  rw [ofDayNumber, dayNumber_ofYearDay]
  omega

/-- The month of a date, from its month in the year that begins in March. -/
theorem civilMonth_marchMonth (d : CivilDate) :
    0 ≤ d.marchMonth ∧ d.marchMonth ≤ 11 ∧ civilMonth d.marchMonth = d.month := by
  have hmin := d.month_pos
  have hmax := d.month_le
  simp only [marchMonth, civilMonth]
  refine ⟨?_, ?_, ?_⟩
  · split <;> omega
  · split <;> omega
  · split <;> split <;> omega

/-- A date lies in its month and in its year. -/
theorem day_lt (d : CivilDate) :
    monthStart d.marchMonth + (d.day - 1) < monthStart (d.marchMonth + 1) ∧
      monthStart d.marchMonth + (d.day - 1) <
        yearStart (d.marchYear + 1) - yearStart d.marchYear := by
  obtain ⟨hmin, hmax, hcivil⟩ := d.civilMonth_marchMonth
  have hday := d.day_le
  have hyear := yearStart_succ d.marchYear
  by_cases hlast : d.marchMonth < 11
  · have hsucc := monthStart_succ hmin hlast d.year
    rw [hcivil] at hsucc
    have hend : monthStart (d.marchMonth + 1) ≤ 337 := by
      simp only [monthStart]
      omega
    constructor
    · omega
    · split at hyear <;> omega
  · -- February, whose length is the one of the year.
    have hfeb : d.marchMonth = 11 := by omega
    rw [hfeb] at hcivil ⊢
    have hmonth : d.month = 2 := hcivil.symm
    have hnext : d.marchYear + 1 = d.year := by
      rw [marchYear, if_pos (by omega)]
      omega
    rw [hmonth] at hday
    replace hday : d.day ≤ if isLeapYear d.year then 29 else 28 := hday
    rw [hnext] at hyear ⊢
    show 337 + (d.day - 1) < 367 ∧ 337 + (d.day - 1) < _
    split at hyear
    · rw [if_pos ‹_›] at hday
      constructor <;> omega
    · rw [if_neg ‹_›] at hday
      constructor <;> omega

/-- Every date is the one of its day number. -/
@[simp]
theorem ofDayNumber_dayNumber (d : CivilDate) : ofDayNumber d.dayNumber = d := by
  obtain ⟨hmin, hmax, hcivil⟩ := d.civilMonth_marchMonth
  obtain ⟨hmonth, hyear⟩ := d.day_lt
  have hday := d.day_pos
  have hstart : 0 ≤ monthStart d.marchMonth := by
    simp only [monthStart]
    omega
  have hn : d.dayNumber + epochShift =
      yearStart d.marchYear + (monthStart d.marchMonth + (d.day - 1)) := by
    rw [dayNumber]
    omega
  have hyearOf : yearOf (d.dayNumber + epochShift) = d.marchYear :=
    yearOf_eq (by omega) (by omega)
  have hk : d.dayNumber + epochShift - yearStart (yearOf (d.dayNumber + epochShift)) =
      monthStart d.marchMonth + (d.day - 1) := by
    rw [hyearOf]
    omega
  have hmonthOf : monthOf (monthStart d.marchMonth + (d.day - 1)) = d.marchMonth :=
    monthOf_eq (by omega) hmonth
  ext
  · show (if monthOf (d.dayNumber + epochShift - yearStart (yearOf (d.dayNumber + epochShift))) < 10
      then yearOf (d.dayNumber + epochShift) else yearOf (d.dayNumber + epochShift) + 1) = d.year
    rw [hk, hmonthOf, hyearOf]
    have hpos := d.month_pos
    have hle := d.month_le
    simp only [marchMonth, marchYear]
    split <;> split <;> omega
  · show civilMonth (monthOf (d.dayNumber + epochShift -
      yearStart (yearOf (d.dayNumber + epochShift)))) = d.month
    rw [hk, hmonthOf, hcivil]
  · show d.dayNumber + epochShift - yearStart (yearOf (d.dayNumber + epochShift)) -
      monthStart (monthOf (d.dayNumber + epochShift -
        yearStart (yearOf (d.dayNumber + epochShift)))) + 1 = d.day
    rw [hk, hmonthOf]
    omega

end CivilDate

/-! ### Clocks -/

/-- The milliseconds of a day. -/
def dayLength : Int := 86400000

/-- The date that a clock `offset` ahead of UTC shows at an instant. -/
def localDate (offset t : Int) : CivilDate := .ofDayNumber ((t + offset) / dayLength)

/-- The instant at which a date begins on such a clock. -/
def localMidnight (offset : Int) (d : CivilDate) : Int := d.dayNumber * dayLength - offset

/-- The instants of a date on a clock. -/
theorem localDate_eq_iff {offset t : Int} {d : CivilDate} : localDate offset t = d ↔
    localMidnight offset d ≤ t ∧ t < localMidnight offset d + dayLength := by
  have hdate : localDate offset t = d ↔ (t + offset) / dayLength = d.dayNumber := by
    constructor
    · rintro rfl
      rw [localDate, CivilDate.dayNumber_ofDayNumber]
    · intro h
      rw [localDate, h, CivilDate.ofDayNumber_dayNumber]
  rw [hdate, localMidnight, dayLength]
  constructor
  · intro h
    constructor <;> omega
  · intro h
    omega

/-- Two clocks agree on a date at the midnight of the second one exactly when the first one is
ahead, by less than a day. -/
theorem localDate_localMidnight_iff {offset offset' : Int} {d : CivilDate} :
    localDate offset (localMidnight offset' d) = d ↔
      offset' ≤ offset ∧ offset < offset' + dayLength := by
  rw [localDate_eq_iff, localMidnight, localMidnight]
  constructor
  · rintro ⟨hmin, hmax⟩
    constructor <;> omega
  · rintro ⟨hmin, hmax⟩
    constructor <;> omega

/-- A clock shows a date at its midnight. -/
@[simp]
theorem localDate_localMidnight (offset : Int) (d : CivilDate) :
    localDate offset (localMidnight offset d) = d := by
  rw [localDate_localMidnight_iff]
  simp [dayLength]

example : localDate 0 1798675200000 =
    ⟨2026, 12, 31, by decide, by decide, by decide, by decide⟩ := by
  decide

end Calendar
