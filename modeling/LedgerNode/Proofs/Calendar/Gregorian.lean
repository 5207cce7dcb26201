import LedgerNode.Calendar
import Mathlib.Order.Monotone.Basic

/-!
# The Gregorian calendar

The date of a day is found by dividing. What the calendar itself says is how one date follows
another: by the next day of the month, by the first of the next month, or by New Year's Day. Both
say the same.

The divisions are understood from the years that they find. With years taken to begin in March,
`Calendar.daysBefore` counts the days before a year, and a year lasts up to the next one. A day lies
in one year only, so that the day after lies in the same year or begins the next; in the year, its
month is found in the same way, and the last month is the one that the year cuts off.

- `Calendar.monthLength`, `Date.IsValid`, `Date.next`: what the calendar says.
- `Calendar.yearOfEra_spec`: the divisions find the year in which a day of an era lies. The day is
  looked at by its century, its cycle of four years and its year in the cycle (`Calendar.EraDay`).
- `Calendar.next_dateOf`, `Calendar.next_dateOf_last`: the day after in the same year, and the first
  of the next.
- `Date.ofDays_gregorian`: dates are as the calendar says.
-/

namespace LedgerNode

/-! ## Dates -/

namespace Calendar

/-- Whether a year has a leap day. Every fourth year has one, but of those that begin a century only
every fourth. -/
def IsLeap (year : Nat) : Prop :=
  4 ∣ year ∧ (100 ∣ year → 400 ∣ year)

instance : DecidablePred IsLeap :=
  fun year => inferInstanceAs (Decidable (4 ∣ year ∧ (100 ∣ year → 400 ∣ year)))

/-- The days of a month. -/
def monthLength (year month : Nat) : Nat :=
  if month = 2 then if IsLeap year then 29 else 28
  else if month = 4 ∨ month = 6 ∨ month = 9 ∨ month = 11 then 30
  else 31

end Calendar

namespace Date

open Calendar

/-- A date that the calendar has. -/
structure IsValid (a : Date) : Prop where
  one_le_month : 1 ≤ a.month
  month_le : a.month ≤ 12
  one_le_day : 1 ≤ a.day
  day_le : a.day ≤ monthLength a.year.toNat a.month

instance (a : Date) : Decidable a.IsValid :=
  decidable_of_iff (1 ≤ a.month ∧ a.month ≤ 12 ∧ 1 ≤ a.day ∧
      a.day ≤ monthLength a.year.toNat a.month)
    ⟨fun h => ⟨h.1, h.2.1, h.2.2.1, h.2.2.2⟩, fun h => ⟨h.1, h.2, h.3, h.4⟩⟩

/-- The day after: the next one of the month, the first of the next month, or New Year's Day. -/
def next (a : Date) : Date :=
  if a.day < monthLength a.year.toNat a.month then { a with day := a.day + 1 }
  else if a.month < 12 then { a with month := a.month + 1, day := 1 }
  else { year := a.year + 1, month := 1, day := 1 }

theorem next_of_day_lt {a : Date} (h : a.day < monthLength a.year.toNat a.month) :
    a.next = { a with day := a.day + 1 } :=
  if_pos h

theorem next_of_month_lt {a : Date} (h : ¬ a.day < monthLength a.year.toNat a.month)
    (hmonth : a.month < 12) : a.next = { a with month := a.month + 1, day := 1 } := by
  rw [next, if_neg h, if_pos hmonth]

theorem next_of_month_eq {a : Date} (h : ¬ a.day < monthLength a.year.toNat a.month)
    (hmonth : a.month = 12) : a.next = { year := a.year + 1, month := 1, day := 1 } := by
  rw [next, if_neg h, if_neg (by omega)]

/-- Dates are ordered by their years, within a year by their months and within a month by their
days. -/
instance : LT Date where
  lt a b := a.year < b.year ∨ a.year = b.year ∧
    (a.month < b.month ∨ a.month = b.month ∧ a.day < b.day)

theorem lt_iff {a b : Date} : a < b ↔ a.year.toNat < b.year.toNat ∨
    a.year.toNat = b.year.toNat ∧ (a.month < b.month ∨ a.month = b.month ∧ a.day < b.day) := by
  rw [← UInt32.lt_iff_toNat_lt, UInt32.toNat_inj]
  rfl

protected theorem lt_trans {a b c : Date} (h : a < b) (k : b < c) : a < c := by
  rw [lt_iff] at h k ⊢
  omega

/-- The day after is later, as long as the year after can be written. -/
theorem lt_next {a : Date} (h : a.year.toNat + 1 < UInt32.size) : a < a.next := by
  rw [lt_iff]
  unfold next
  split
  · exact .inr ⟨rfl, .inr ⟨rfl, Nat.lt_succ_self a.day⟩⟩
  · split
    · exact .inr ⟨rfl, .inl (Nat.lt_succ_self a.month)⟩
    · refine .inl ?_
      have hone : (1 : UInt32).toNat = 1 := rfl
      rw [UInt32.toNat_add, hone, Nat.mod_eq_of_lt h]
      exact Nat.lt_succ_self _

end Date

namespace Calendar

/-! ## Years -/

/-- The days before a year, counted from the beginning of year zero. Years begin in March, so that
the leap day that a year of this number has is behind them. -/
def daysBefore (year : Nat) : Nat :=
  365 * year + year / 4 - year / 100 + year / 400

/-- The days of a year that begins in March. Its February is in the next year. -/
def yearLength (year : Nat) : Nat :=
  if IsLeap (year + 1) then 366 else 365

theorem yearLength_cases (year : Nat) : yearLength year = 365 ∨ yearLength year = 366 := by
  unfold yearLength
  split
  · exact .inr rfl
  · exact .inl rfl

/-- A year lasts up to the next one. -/
theorem daysBefore_succ (year : Nat) :
    daysBefore (year + 1) = daysBefore year + yearLength year := by
  have hcenturies : year / 100 ≤ 365 * year + year / 4 := by omega
  unfold daysBefore yearLength
  rw [Nat.succ_div, Nat.succ_div, Nat.succ_div]
  -- Four divides whatever a hundred divides, and a hundred whatever four hundred divides.
  by_cases h4 : 4 ∣ year + 1
  · by_cases h100 : 100 ∣ year + 1
    · by_cases h400 : 400 ∣ year + 1
      · rw [if_pos h4, if_pos h100, if_pos h400, if_pos ⟨h4, fun _ => h400⟩]
        omega
      · rw [if_pos h4, if_pos h100, if_neg h400, if_neg fun h => h400 (h.2 h100)]
        omega
    · have h400 : ¬ 400 ∣ year + 1 := fun h => h100 (Nat.dvd_trans (by decide) h)
      rw [if_pos h4, if_neg h100, if_neg h400, if_pos ⟨h4, fun h => absurd h h100⟩]
      omega
  · have h100 : ¬ 100 ∣ year + 1 := fun h => h4 (Nat.dvd_trans (by decide) h)
    have h400 : ¬ 400 ∣ year + 1 := fun h => h4 (Nat.dvd_trans (by decide) h)
    rw [if_neg h4, if_neg h100, if_neg h400, if_neg fun h => h4 h.1]
    omega

theorem strictMono_daysBefore : StrictMono daysBefore :=
  strictMono_nat_of_lt_succ fun year => by
    have hlength := yearLength_cases year
    rw [daysBefore_succ]
    omega

theorem le_daysBefore (year : Nat) : 365 * year ≤ daysBefore year := by
  unfold daysBefore
  omega

/-- Eras are alike. -/
theorem daysBefore_add_era (year era : Nat) :
    daysBefore (year + era * 400) = daysBefore year + era * eraDays := by
  unfold daysBefore eraDays
  omega

/-! ## The year of a day -/

/-- A day of an era, by its century, its cycle of four years and its year in the cycle. Only the
last year of a cycle can have a leap day, and that of a century's last cycle has none, but for the
last century. -/
structure EraDay where
  century : Nat
  cycle : Nat
  year : Nat
  day : Nat
  century_lt : century < 4
  cycle_lt : cycle < 25
  year_lt : year < 4
  day_lt : day < 365 ∨ day = 365 ∧ year = 3 ∧ (cycle < 24 ∨ century = 3)

namespace EraDay

/-- The number of a day in its era. -/
def number (p : EraDay) : Nat :=
  36524 * p.century + 1461 * p.cycle + 365 * p.year + p.day

/-- The number of a day's year in its era. -/
def yearNumber (p : EraDay) : Nat :=
  100 * p.century + 4 * p.cycle + p.year

theorem exists_number_eq {n : Nat} (h : n < eraDays) : ∃ p : EraDay, p.number = n := by
  unfold eraDays at h
  obtain ⟨c, hc⟩ : ∃ c, c = min (n / 36524) 3 := ⟨_, rfl⟩
  obtain ⟨q, hq⟩ : ∃ q, q = (n - 36524 * c) / 1461 := ⟨_, rfl⟩
  obtain ⟨y, hy⟩ : ∃ y, y = min ((n - 36524 * c - 1461 * q) / 365) 3 := ⟨_, rfl⟩
  refine ⟨⟨c, q, y, n - 36524 * c - 1461 * q - 365 * y, ?_, ?_, ?_, ?_⟩, ?_⟩
  · omega
  · omega
  · omega
  · omega
  · simp only [number]
    omega

theorem daysBefore_yearNumber (p : EraDay) :
    daysBefore p.yearNumber = 36524 * p.century + 1461 * p.cycle + 365 * p.year := by
  obtain ⟨c, q, y, d, hc, hq, hy, -⟩ := p
  have hcycles : (100 * c + 4 * q + y) / 4 = 25 * c + q := by omega
  have hcenturies : (100 * c + 4 * q + y) / 100 = c := by omega
  have heras : (100 * c + 4 * q + y) / 400 = 0 := by omega
  simp only [daysBefore, yearNumber, hcycles, hcenturies, heras]
  omega

theorem number_eq (p : EraDay) : p.number = daysBefore p.yearNumber + p.day := by
  rw [daysBefore_yearNumber, number]

theorem yearNumber_lt (p : EraDay) : p.yearNumber < 400 := by
  obtain ⟨c, q, y, d, hc, hq, hy, -⟩ := p
  simp only [yearNumber]
  omega

theorem day_lt_yearLength (p : EraDay) : p.day < yearLength p.yearNumber := by
  rcases p.day_lt with hday | ⟨hday, hyear, hcycle⟩
  · have hlength := yearLength_cases p.yearNumber
    omega
  · have hcycles := p.cycle_lt
    have hleap : IsLeap (p.yearNumber + 1) := by
      unfold IsLeap yearNumber
      omega
    rw [yearLength, if_pos hleap, hday]
    decide

/-- The divisions find the year of a day: the first takes away a leap day for each cycle of four
years, the second gives one back for each century, and the third takes away that of the era. -/
theorem yearOfEra_number (p : EraDay) : yearOfEra p.number = p.yearNumber := by
  obtain ⟨c, q, y, d, hc, hq, hy, hd⟩ := p
  simp only [number, yearNumber]
  generalize hn : 36524 * c + 1461 * q + 365 * y + d = n
  have hcenturies : n / 36524 = n / 146096 + c := by
    rcases Nat.lt_or_ge n 146096 with hbefore | hlast
    · have hlt : n < 36524 * (c + 1) := by omega
      have hzero : n / 146096 = 0 := by omega
      omega
    · have hthree : c = 3 := by omega
      have hone : n / 146096 = 1 := by omega
      have hfour : n / 36524 = 4 := by omega
      omega
  -- The first division can be one cycle ahead, but only so late in a year that the year stays.
  have hcycles : n / 1460 = 25 * c + q ∨
      n / 1460 = 25 * c + q + 1 ∧ 1460 ≤ 24 * c + q + 365 * y + d := by omega
  unfold yearOfEra
  rw [hcenturies]
  omega

end EraDay

/-- The year that the divisions find is the one in which the day of the era lies. -/
theorem yearOfEra_spec {n : Nat} (h : n < eraDays) : yearOfEra n < 400 ∧
    daysBefore (yearOfEra n) ≤ n ∧ n < daysBefore (yearOfEra n + 1) := by
  obtain ⟨p, rfl⟩ := EraDay.exists_number_eq h
  have hlt := p.day_lt_yearLength
  rw [p.yearOfEra_number, daysBefore_succ, p.number_eq]
  exact ⟨p.yearNumber_lt, Nat.le_add_right _ _, Nat.add_lt_add_left hlt _⟩

theorem dayOfYear_eq {n : Nat} (h : n < eraDays) : dayOfYear n = n - daysBefore (yearOfEra n) := by
  have hlt := (yearOfEra_spec h).1
  have hera : yearOfEra n / 400 = 0 := Nat.div_eq_of_lt hlt
  simp only [dayOfYear, daysBefore, hera, Nat.add_zero]

/-- The year in which a day lies, counted from the beginning of year zero. -/
def yearOf (n : Nat) : Nat :=
  yearOfEra (n % eraDays) + n / eraDays * 400

/-- The day of its year that a day is. -/
def dayInYear (n : Nat) : Nat :=
  n - daysBefore (yearOf n)

theorem daysBefore_yearOf (n : Nat) :
    daysBefore (yearOf n) = daysBefore (yearOfEra (n % eraDays)) + n / eraDays * eraDays :=
  daysBefore_add_era _ _

theorem daysBefore_yearOf_le (n : Nat) : daysBefore (yearOf n) ≤ n := by
  have hday : n % eraDays < eraDays := Nat.mod_lt n (by decide)
  have hle := (yearOfEra_spec hday).2.1
  have hsplit := Nat.mod_add_div' n eraDays
  rw [daysBefore_yearOf]
  omega

theorem lt_daysBefore_yearOf_succ (n : Nat) : n < daysBefore (yearOf n + 1) := by
  have hday : n % eraDays < eraDays := Nat.mod_lt n (by decide)
  have hlt := (yearOfEra_spec hday).2.2
  have hsplit := Nat.mod_add_div' n eraDays
  have hnext : yearOf n + 1 = yearOfEra (n % eraDays) + 1 + n / eraDays * 400 :=
    Nat.add_right_comm _ _ _
  rw [hnext, daysBefore_add_era]
  omega

/-- A day lies in one year only. -/
theorem yearOf_eq {n year : Nat} (hle : daysBefore year ≤ n) (hlt : n < daysBefore (year + 1)) :
    yearOf n = year := by
  have hfirst := strictMono_daysBefore.lt_iff_lt.mp
    (Nat.lt_of_le_of_lt (daysBefore_yearOf_le n) hlt)
  have hsecond := strictMono_daysBefore.lt_iff_lt.mp
    (Nat.lt_of_le_of_lt hle (lt_daysBefore_yearOf_succ n))
  omega

theorem dayInYear_lt (n : Nat) : dayInYear n < yearLength (yearOf n) := by
  have hle := daysBefore_yearOf_le n
  have hlt := lt_daysBefore_yearOf_succ n
  rw [daysBefore_succ] at hlt
  unfold dayInYear
  omega

theorem yearOf_mono {m n : Nat} (h : m ≤ n) : yearOf m ≤ yearOf n := by
  have hlt := strictMono_daysBefore.lt_iff_lt.mp (Nat.lt_of_le_of_lt
    (Nat.le_trans (daysBefore_yearOf_le m) h) (lt_daysBefore_yearOf_succ n))
  omega

/-- The day after is in the same year, or the first of the next. -/
theorem dayAfter_cases (n : Nat) :
    (yearOf (n + 1) = yearOf n ∧ dayInYear (n + 1) = dayInYear n + 1) ∨
      (yearOf (n + 1) = yearOf n + 1 ∧ dayInYear (n + 1) = 0 ∧
        dayInYear n + 1 = yearLength (yearOf n)) := by
  have hle := daysBefore_yearOf_le n
  have hlt := lt_daysBefore_yearOf_succ n
  have hlength := daysBefore_succ (yearOf n)
  rcases Nat.lt_or_ge (n + 1) (daysBefore (yearOf n + 1)) with hsame | hnext
  · have hyear : yearOf (n + 1) = yearOf n := yearOf_eq (by omega) hsame
    refine .inl ⟨hyear, ?_⟩
    unfold dayInYear
    rw [hyear]
    omega
  · have hyear : yearOf (n + 1) = yearOf n + 1 := by
      have hpos := yearLength_cases (yearOf n + 1)
      exact yearOf_eq hnext (by rw [daysBefore_succ]; omega)
    refine .inr ⟨hyear, ?_⟩
    unfold dayInYear
    rw [hyear]
    omega

/-! ## Months -/

/-- The days of a year before a month, counted from March. -/
def monthStart (month : Nat) : Nat :=
  (153 * month + 2) / 5

/-- The number of a month that is counted from March. -/
def monthNumber (month : Nat) : Nat :=
  if month < 10 then month + 3 else month - 9

theorem monthNumber_bounds {month : Nat} (h : month ≤ 11) :
    1 ≤ monthNumber month ∧ monthNumber month ≤ 12 := by
  unfold monthNumber
  split <;> omega

/-- The calendar's year in which a month lies that is counted from March. -/
def yearOfMonth (year month : Nat) : Nat :=
  if monthNumber month ≤ 2 then year + 1 else year

/-- A day lies in the month that has begun and is not over. -/
theorem monthOfYear_eq_iff {day month : Nat} :
    monthOfYear day = month ↔ monthStart month ≤ day ∧ day < monthStart (month + 1) := by
  unfold monthOfYear monthStart
  omega

theorem monthOfYear_le {year day : Nat} (h : day < yearLength year) : monthOfYear day ≤ 11 := by
  have hlength := yearLength_cases year
  unfold monthOfYear
  omega

/-- A month lasts up to the next one, or to the end of the year. -/
theorem monthStart_add_monthLength {month : Nat} (h : month ≤ 11) (year : Nat) :
    monthStart month + monthLength (yearOfMonth year month) (monthNumber month) =
      min (monthStart (month + 1)) (yearLength year) := by
  have hlength := yearLength_cases year
  rcases Nat.lt_or_eq_of_le h with hbefore | rfl
  · have hmonth : monthStart month + monthLength (yearOfMonth year month) (monthNumber month) =
        monthStart (month + 1) := by
      have hnotFebruary : monthNumber month ≠ 2 := by
        unfold monthNumber
        split <;> omega
      unfold monthLength
      rw [if_neg hnotFebruary]
      decide +revert
    have hend : monthStart (month + 1) ≤ 337 := by
      unfold monthStart
      omega
    rw [hmonth]
    omega
  · have hfebruary : monthLength (yearOfMonth year 11) (monthNumber 11) =
        if IsLeap (year + 1) then 29 else 28 := rfl
    have hstart : monthStart 11 = 337 := rfl
    have hend : monthStart 12 = 367 := rfl
    rw [hfebruary, hstart, hend]
    unfold yearLength
    split <;> rfl

/-! ## Days -/

/-- The date of a day of a year. -/
def dateOf (year day : Nat) : Date where
  year := UInt32.ofNat (yearOfMonth year (monthOfYear day))
  month := monthNumber (monthOfYear day)
  day := dayOfMonth day

theorem dayOfMonth_eq (day : Nat) : dayOfMonth day = day - monthStart (monthOfYear day) + 1 := rfl

theorem toNat_year_dateOf {year : Nat} (h : year + 1 < UInt32.size) (day : Nat) :
    (dateOf year day).year.toNat = yearOfMonth year (monthOfYear day) := by
  refine UInt32.toNat_ofNat_of_lt ?_
  unfold yearOfMonth
  split <;> omega

/-- A date has another day behind it in its month if there is one before the next month begins and
before the year is over. -/
theorem day_dateOf_lt_iff {year day : Nat} (hyear : year + 1 < UInt32.size)
    (h : day < yearLength year) :
    (dateOf year day).day < monthLength (dateOf year day).year.toNat (dateOf year day).month ↔
      day + 1 < monthStart (monthOfYear day + 1) ∧ day + 1 < yearLength year := by
  have hstart := (monthOfYear_eq_iff.mp (rfl : monthOfYear day = _)).1
  have hmonth := monthStart_add_monthLength (monthOfYear_le h) year
  rw [toNat_year_dateOf hyear]
  simp only [dateOf, dayOfMonth_eq]
  omega

theorem isValid_dateOf {year day : Nat} (hyear : year + 1 < UInt32.size)
    (h : day < yearLength year) : (dateOf year day).IsValid := by
  have hle := monthOfYear_le h
  have hspan := monthOfYear_eq_iff.mp (rfl : monthOfYear day = _)
  have hmonth := monthStart_add_monthLength hle year
  refine { one_le_month := (monthNumber_bounds hle).1, month_le := (monthNumber_bounds hle).2,
           one_le_day := Nat.le_add_left 1 _, day_le := ?_ }
  rw [toNat_year_dateOf hyear]
  simp only [dateOf, dayOfMonth_eq]
  omega

/-- The first day of a month that is counted from March. -/
def firstOf (year month : Nat) : Date where
  year := UInt32.ofNat (yearOfMonth year month)
  month := monthNumber month
  day := 1

/-- A day on which a month begins is the first day of this month. -/
theorem dateOf_monthStart {day month : Nat} (hday : day = monthStart month) (year : Nat) :
    dateOf year day = firstOf year month := by
  have hmonth : monthOfYear day = month := by
    refine monthOfYear_eq_iff.mpr ⟨Nat.le_of_eq hday.symm, ?_⟩
    unfold monthStart at hday ⊢
    omega
  rw [dateOf, firstOf, dayOfMonth_eq, hmonth, hday, Nat.sub_self]

/-- The day after the last of a month is the first of the next month. -/
theorem next_of_monthEnd {a : Date} (h : ¬ a.day < monthLength a.year.toNat a.month)
    {year month : Nat} (hmonth : month < 11) (hyear : a.year = UInt32.ofNat (yearOfMonth year month))
    (hnumber : a.month = monthNumber month) : a.next = firstOf year (month + 1) := by
  unfold firstOf
  rcases Nat.lt_trichotomy month 9 with hbefore | rfl | hafter
  · have hthis : monthNumber month = month + 3 := if_pos (by omega)
    have hother : monthNumber (month + 1) = month + 1 + 3 := if_pos (by omega)
    rw [Date.next_of_month_lt h (by omega), hyear, hnumber]
    simp only [yearOfMonth, hthis, hother]
    rw [if_neg (by omega), if_neg (by omega)]
  · rw [Date.next_of_month_eq h hnumber, hyear]
    simp [yearOfMonth, monthNumber]
  · obtain rfl : month = 10 := by omega
    rw [Date.next_of_month_lt h (by rw [hnumber]; decide), hyear, hnumber]
    rfl

/-- The day after a day that is not the last of its year. -/
theorem next_dateOf {year day : Nat} (hyear : year + 1 < UInt32.size)
    (h : day + 1 < yearLength year) : (dateOf year day).next = dateOf year (day + 1) := by
  have hday : day < yearLength year := Nat.lt_of_succ_lt h
  have hlength := yearLength_cases year
  obtain ⟨hstart, hend⟩ := monthOfYear_eq_iff.mp (rfl : monthOfYear day = _)
  rcases Nat.lt_or_ge (day + 1) (monthStart (monthOfYear day + 1)) with hsame | hover
  · have hmonth : monthOfYear (day + 1) = monthOfYear day :=
      monthOfYear_eq_iff.mpr ⟨Nat.le_succ_of_le hstart, hsame⟩
    rw [Date.next_of_day_lt ((day_dateOf_lt_iff hyear hday).mpr ⟨hsame, h⟩)]
    simp only [dateOf, dayOfMonth_eq, hmonth, Date.mk.injEq, true_and]
    omega
  · have hfirst : day + 1 = monthStart (monthOfYear day + 1) := by omega
    have hbefore : monthOfYear day < 11 := by
      unfold monthStart at hfirst
      omega
    have hlast := (not_congr (day_dateOf_lt_iff hyear hday)).mpr fun hboth =>
      absurd hboth.1 (Nat.not_lt.mpr hover)
    rw [dateOf_monthStart hfirst, next_of_monthEnd hlast hbefore rfl rfl]

/-- The day after the last of a year is the first of the next. -/
theorem next_dateOf_last {year day : Nat} (hyear : year + 1 < UInt32.size)
    (h : day + 1 = yearLength year) : (dateOf year day).next = dateOf (year + 1) 0 := by
  have hday : day < yearLength year := by omega
  have hlength := yearLength_cases year
  have hmonth : monthOfYear day = 11 := by
    unfold monthOfYear
    omega
  have hlast := (not_congr (day_dateOf_lt_iff hyear hday)).mpr fun hboth =>
    absurd hboth.2 (Nat.not_lt.mpr (Nat.le_of_eq h.symm))
  rw [Date.next_of_month_lt hlast (by simp [dateOf, hmonth, monthNumber])]
  simp only [dateOf, hmonth]
  rfl

/-! ## Dates of days -/

/-- The date of a day that is counted from the beginning of year zero. -/
def onDay (n : Nat) : Date :=
  dateOf (yearOf n) (dayInYear n)

theorem isValid_onDay {n : Nat} (h : yearOf n + 1 < UInt32.size) : (onDay n).IsValid :=
  isValid_dateOf h (dayInYear_lt n)

/-- The date of the day after is the date after. -/
theorem onDay_succ {n : Nat} (h : yearOf n + 1 < UInt32.size) : onDay (n + 1) = (onDay n).next := by
  unfold onDay
  rcases dayAfter_cases n with ⟨hyear, hday⟩ | ⟨hyear, hday, hlast⟩
  · rw [hyear, hday, next_dateOf h]
    rw [← hday, ← hyear]
    exact dayInYear_lt (n + 1)
  · rw [hyear, hday, next_dateOf_last h hlast]

theorem year_onDay_le {n : Nat} (h : yearOf n + 1 < UInt32.size) :
    (onDay n).year.toNat ≤ yearOf n + 1 := by
  rw [onDay, toNat_year_dateOf h, yearOfMonth]
  split <;> omega

/-- Later days have later dates. -/
theorem onDay_lt_onDay {m n : Nat} (h : m < n) (hyear : yearOf n + 2 < UInt32.size) :
    onDay m < onDay n := by
  induction n with
  | zero => exact absurd h (Nat.not_lt_zero m)
  | succ n ih =>
    have hbefore : yearOf n + 2 < UInt32.size :=
      Nat.lt_of_le_of_lt (Nat.add_le_add_right (yearOf_mono (Nat.le_succ n)) 2) hyear
    have hle := year_onDay_le (Nat.lt_of_succ_lt hbefore)
    have hstep : onDay n < onDay (n + 1) := by
      rw [onDay_succ (Nat.lt_of_succ_lt hbefore)]
      exact Date.lt_next (by omega)
    rcases Nat.lt_or_eq_of_le (Nat.le_of_lt_succ h) with hlt | rfl
    · exact Date.lt_trans (ih hlt hbefore) hstep
    · exact hstep

/-- No difference that the date of a day of an era is computed from is below zero. -/
structure IsUncut (n : Nat) : Prop where
  leapDays_le : n / 1460 ≤ n
  eraEnds_le : n / 146096 ≤ n - n / 1460 + n / 36524
  centuries_le : yearOfEra n / 100 ≤ 365 * yearOfEra n + yearOfEra n / 4
  daysBefore_le : 365 * yearOfEra n + yearOfEra n / 4 - yearOfEra n / 100 ≤ n
  monthStart_le : (153 * monthOfYear (dayOfYear n) + 2) / 5 ≤ dayOfYear n
  march_le : ¬ monthOfYear (dayOfYear n) < 10 → 9 ≤ monthOfYear (dayOfYear n)

theorem isUncut {n : Nat} (h : n < eraDays) : IsUncut n := by
  obtain ⟨hyear, hle, -⟩ := yearOfEra_spec h
  have hera : yearOfEra n / 400 = 0 := Nat.div_eq_of_lt hyear
  rw [daysBefore, hera] at hle
  unfold eraDays at h
  exact {
    leapDays_le := Nat.div_le_self n 1460
    eraEnds_le := by omega
    centuries_le := by omega
    daysBefore_le := hle
    monthStart_le := (monthOfYear_eq_iff.mp rfl).1
    march_le := by omega }

/-! ## Days since 1970 -/

/-- The day of its era that a day is, as it is computed. -/
def dayOfEra (days : UInt64) : Nat :=
  ((days.toInt64 + epoch).toInt % eraDays).toNat

theorem toInt_add_epoch {days : UInt64} (h : days.toNat ≤ 1000000000000) :
    (days.toInt64 + epoch).toInt = ((days.toNat + 719468 : Nat) : Int) := by
  have hdays : days.toInt64.toInt = days.toNat :=
    BitVec.toInt_eq_toNat_of_lt (x := days.toBitVec) (by
      rw [UInt64.toNat_toBitVec]
      omega)
  have hepoch : epoch.toInt = 719468 := by decide
  rw [Int64.toInt_add, hdays, hepoch, Int.bmod_eq_of_le (by omega) (by omega)]
  rfl

theorem ofInt_natCast (n : Nat) : UInt32.ofInt n = UInt32.ofNat n := by
  rw [← UInt32.toNat_inj]
  simp only [UInt32.ofInt, UInt32.toNat_ofNat']
  omega

theorem dayOfEra_lt (days : UInt64) : dayOfEra days < eraDays := by
  have hpos : (eraDays : Int) ≠ 0 := by decide
  have hlt := Int.emod_lt_of_pos (days.toInt64 + epoch).toInt (show (0 : Int) < eraDays by decide)
  have hnonneg := Int.emod_nonneg (days.toInt64 + epoch).toInt hpos
  unfold dayOfEra
  omega

theorem yearOf_lt {n : Nat} (h : n ≤ 1000000719468) : yearOf n + 2 < UInt32.size := by
  have hle := Nat.le_trans (le_daysBefore (yearOf n)) (daysBefore_yearOf_le n)
  have hsize : UInt32.size = 4294967296 := rfl
  omega

end Calendar

namespace Date

open Calendar

theorem ofDays_eq {days : UInt64} (h : days.toNat ≤ 1000000000000) :
    ofDays days = onDay (days.toNat + 719468) := by
  unfold ofDays
  rw [toInt_add_epoch h]
  generalize days.toNat + 719468 = n
  have hday : ((n : Int) % (eraDays : Int)).toNat = n % eraDays := by
    omega
  have hyear : dayOfYear (n % eraDays) = dayInYear n := by
    rw [dayOfYear_eq (Nat.mod_lt n (by decide)), dayInYear, daysBefore_yearOf]
    have hsplit := Nat.mod_add_div' n eraDays
    omega
  have hnumber : (if monthNumber (monthOfYear (dayInYear n)) ≤ 2
      then (yearOfEra (n % eraDays) : Int) + n / eraDays * 400 + 1
      else yearOfEra (n % eraDays) + n / eraDays * 400) =
        (yearOfMonth (yearOf n) (monthOfYear (dayInYear n)) : Nat) := by
    unfold yearOfMonth yearOf
    split <;> simp
  simp only [hday, hyear]
  rw [onDay, dateOf, ← ofInt_natCast, ← hnumber]
  rfl

/-- Dates are those of the calendar. The first of January 1970 is the first day, each day up to
beyond the year two billion has a date that the calendar has, the day after it has the date after,
and any later day a later date. Nothing is cut off in what they are computed from. -/
theorem ofDays_gregorian :
    ofDays 0 = ⟨1970, 1, 1⟩ ∧
      ∀ d : UInt64, d.toNat < 1000000000000 →
        (ofDays d).IsValid ∧ ofDays (d + 1) = (ofDays d).next ∧ IsUncut (dayOfEra d) ∧
          ∀ e : UInt64, d < e → e.toNat ≤ 1000000000000 → ofDays d < ofDays e := by
  refine ⟨by decide, fun d hd => ?_⟩
  have hyear : yearOf (d.toNat + 719468) + 2 < UInt32.size := yearOf_lt (by omega)
  have hnext : (d + 1).toNat = d.toNat + 1 := by
    have hone : (1 : UInt64).toNat = 1 := rfl
    rw [UInt64.toNat_add, hone]
    omega
  refine ⟨?_, ?_, isUncut (dayOfEra_lt d), fun e hlt he => ?_⟩
  · rw [ofDays_eq (Nat.le_of_lt hd)]
    exact isValid_onDay (Nat.lt_of_succ_lt hyear)
  · rw [ofDays_eq (Nat.le_of_lt hd), ofDays_eq (by omega), hnext, Nat.add_right_comm]
    exact onDay_succ (Nat.lt_of_succ_lt hyear)
  · rw [ofDays_eq (Nat.le_of_lt hd), ofDays_eq he]
    exact onDay_lt_onDay (Nat.add_lt_add_right (UInt64.lt_iff_toNat_lt.mp hlt) _)
      (yearOf_lt (by omega))

/-- The last day of February 2000, which has a leap day though it ends a century, and days after
it. -/
theorem ofDays_gregorian_leapDay :
    ofDays 11016 = ⟨2000, 2, 29⟩ ∧ ofDays (11016 + 1) = (ofDays 11016).next ∧
      (ofDays 11016).next = ⟨2000, 3, 1⟩ ∧ ofDays 11016 < ofDays 1000000000000 := by
  have hdate : ofDays 11016 = ⟨2000, 2, 29⟩ := by decide
  obtain ⟨-, hnext, -, hlater⟩ := ofDays_gregorian.2 11016 (by decide)
  exact ⟨hdate, hnext, by rw [hdate]; decide, hlater 1000000000000 (by decide) (by decide)⟩

end Date

end LedgerNode
