import Mathlib.Data.Int.Order.Basic
import Mathlib.Data.Nat.Basic
import Mathlib.Logic.Function.Iterate
import Mathlib.Tactic.Common
set_option autoImplicit false

/-!
# Foundation: the proleptic Gregorian calendar

Dates by counting.  A `Date` carries the proof that its month and its day exist;
`Date.next` is the following day, `dateOfDay n` is the date `n` days after
1970-01-01, before it when `n` is negative.  `Date.dayNumber` computes the count
of a date in closed form, and the two are inverse.
-/

namespace RatifyProtocol.Foundation

/-! ## Years and months -/

/-- The Gregorian leap rule, in every year. -/
def leapYear (year : Int) : Bool :=
  year % 4 == 0 && (year % 100 != 0 || year % 400 == 0)

theorem leapYear_iff {year : Int} :
    leapYear year = true ↔ year % 4 = 0 ∧ (year % 100 ≠ 0 ∨ year % 400 = 0) := by
  simp [leapYear]

/-- The number of days of a month. -/
def monthLength (year : Int) (month : Nat) : Nat :=
  if month = 2 then if leapYear year then 29 else 28
  else if month = 4 ∨ month = 6 ∨ month = 9 ∨ month = 11 then 30
  else 31

theorem monthLength_bounds (year : Int) (month : Nat) :
    28 ≤ monthLength year month ∧ monthLength year month ≤ 31 := by
  unfold monthLength
  split
  · split <;> omega
  · split <;> omega

/-- The number of days of a year. -/
def yearLength (year : Int) : Nat := if leapYear year then 366 else 365

/-- The number of days of a year before one of its months. -/
def daysBeforeMonth (year : Int) : Nat → Nat
  | 0 => 0
  | 1 => 0
  | month + 2 => daysBeforeMonth year (month + 1) + monthLength year (month + 1)

@[simp] theorem daysBeforeMonth_one (year : Int) : daysBeforeMonth year 1 = 0 := rfl

theorem daysBeforeMonth_succ (year : Int) {month : Nat} (h : 1 ≤ month) :
    daysBeforeMonth year (month + 1) = daysBeforeMonth year month + monthLength year month := by
  obtain ⟨month, rfl⟩ := Nat.exists_eq_add_of_le' h
  rfl

/-- A year has the days of its twelve months. -/
theorem daysBeforeMonth_thirteen (year : Int) : daysBeforeMonth year 13 = yearLength year := by
  simp only [daysBeforeMonth, monthLength, yearLength]
  cases leapYear year <;> decide

theorem daysBeforeMonth_mono (year : Int) {m n : Nat} (hm : 1 ≤ m) (h : m < n) :
    daysBeforeMonth year m + monthLength year m ≤ daysBeforeMonth year n := by
  induction n with
  | zero => omega
  | succ n ih =>
    rw [daysBeforeMonth_succ year (by omega)]
    obtain h | rfl := Nat.lt_or_eq_of_le (Nat.le_of_lt_succ h)
    · exact Nat.le_trans (ih h) (Nat.le_add_right _ _)
    · exact le_refl _

/-- Days from 1970-01-01 to the first day of a year. -/
def yearStart (year : Int) : Int :=
  365 * (year - 1970) + ((year - 1) / 4 - (year - 1) / 100 + (year - 1) / 400) - 477

theorem yearStart_succ (year : Int) : yearStart (year + 1) = yearStart year + yearLength year := by
  unfold yearStart yearLength
  split
  · rename_i hleap
    have hleap := leapYear_iff.mp hleap
    omega
  · rename_i hleap
    have hleap := mt leapYear_iff.mpr hleap
    omega

theorem yearStart_mono {y z : Int} (h : y < z) : yearStart y + yearLength y ≤ yearStart z := by
  rw [← yearStart_succ]
  unfold yearStart
  omega

/-! ## Dates -/

/-- A date of the proleptic Gregorian calendar. -/
@[ext]
structure Date where
  year : Int
  month : Nat
  day : Nat
  month_range : 1 ≤ month ∧ month ≤ 12
  day_range : 1 ≤ day ∧ day ≤ monthLength year month
  deriving DecidableEq

namespace Date

/-- 1970-01-01. -/
def epoch : Date := ⟨1970, 1, 1, by decide, by decide⟩

/-- The first day of a month. -/
def firstOf (year : Int) (month : Nat) (h : 1 ≤ month ∧ month ≤ 12) : Date :=
  ⟨year, month, 1, h, le_refl 1, by have := monthLength_bounds year month; omega⟩

/-- The last day of a month. -/
def lastOf (year : Int) (month : Nat) (h : 1 ≤ month ∧ month ≤ 12) : Date :=
  ⟨year, month, monthLength year month, h,
    by have := monthLength_bounds year month; omega, le_refl _⟩

/-- The following day. -/
def next (d : Date) : Date :=
  if h : d.day < monthLength d.year d.month then
    ⟨d.year, d.month, d.day + 1, d.month_range, by omega, h⟩
  else if h : d.month < 12 then firstOf d.year (d.month + 1) ⟨by omega, h⟩
  else firstOf (d.year + 1) 1 (by decide)

/-- The day before. -/
def prev (d : Date) : Date :=
  if h : 1 < d.day then
    ⟨d.year, d.month, d.day - 1, d.month_range, by omega, by have := d.day_range.2; omega⟩
  else if h : 1 < d.month then
    lastOf d.year (d.month - 1) ⟨by omega, by have := d.month_range.2; omega⟩
  else lastOf (d.year - 1) 12 (by decide)

theorem next_lastOf {year : Int} {month : Nat} (h : 1 ≤ month ∧ month ≤ 12) (hlt : month < 12) :
    (lastOf year month h).next = firstOf year (month + 1) ⟨by omega, hlt⟩ := by
  have hlast : ¬ (lastOf year month h).day < monthLength year month := lt_irrefl _
  exact (dif_neg hlast).trans (dif_pos hlt)

theorem next_lastOf_december (year : Int) :
    (lastOf year 12 (by decide)).next = firstOf (year + 1) 1 (by decide) := by
  have hlast : ¬ (lastOf year 12 (by decide)).day < monthLength year 12 := lt_irrefl _
  exact (dif_neg hlast).trans (dif_neg (lt_irrefl 12))

theorem next_prev (d : Date) : d.prev.next = d := by
  unfold prev
  split
  · rename_i h
    have hday := d.day_range
    have hlt : d.day - 1 < monthLength d.year d.month := by omega
    refine (dif_pos hlt).trans (Date.ext rfl rfl ?_)
    show d.day - 1 + 1 = d.day
    omega
  rename_i hone
  have hday := d.day_range.1
  split
  · rename_i h
    have hmonth := d.month_range
    rw [next_lastOf _ (by omega)]
    apply Date.ext
    · rfl
    · show d.month - 1 + 1 = d.month
      omega
    · show 1 = d.day
      omega
  · rename_i h
    have hmonth := d.month_range.1
    rw [next_lastOf_december]
    apply Date.ext
    · show d.year - 1 + 1 = d.year
      omega
    · show 1 = d.month
      omega
    · show 1 = d.day
      omega

/-- Days from 1970-01-01, negative before it. -/
def dayNumber (d : Date) : Int :=
  yearStart d.year + daysBeforeMonth d.year d.month + (d.day - 1)

@[simp] theorem dayNumber_epoch : epoch.dayNumber = 0 := by decide

theorem dayNumber_next (d : Date) : d.next.dayNumber = d.dayNumber + 1 := by
  obtain ⟨year, month, day, hmonth, hday⟩ := d
  unfold next
  split
  · simp only [dayNumber]
    omega
  rename_i hlast
  simp only at hlast
  split
  · simp only [dayNumber, firstOf, daysBeforeMonth_succ year hmonth.1]
    omega
  · rename_i h
    simp only at h
    have hdecember : month = 12 := by omega
    subst hdecember
    have hyear := daysBeforeMonth_thirteen year
    rw [daysBeforeMonth_succ year (by omega)] at hyear
    simp only [dayNumber, firstOf, daysBeforeMonth_one, yearStart_succ]
    omega

theorem dayNumber_prev (d : Date) : d.prev.dayNumber = d.dayNumber - 1 := by
  have h := dayNumber_next d.prev
  rw [next_prev] at h
  omega

/-- A date lies within its year. -/
theorem dayNumber_mem_year (d : Date) :
    yearStart d.year ≤ d.dayNumber ∧ d.dayNumber < yearStart d.year + yearLength d.year := by
  have hmonth := daysBeforeMonth_mono d.year d.month_range.1 (Nat.lt_succ_of_le d.month_range.2)
  rw [daysBeforeMonth_thirteen] at hmonth
  have hday := d.day_range
  unfold dayNumber
  omega

/-- The year that a day number lies in. -/
theorem year_eq_of_mem {d : Date} {year : Int}
    (h : yearStart year ≤ d.dayNumber ∧ d.dayNumber < yearStart year + yearLength year) :
    d.year = year := by
  have hmem := d.dayNumber_mem_year
  obtain hlt | heq | hgt := lt_trichotomy d.year year
  · have hgap := yearStart_mono hlt
    omega
  · exact heq
  · have hgap := yearStart_mono hgt
    omega

theorem dayNumber_injective : Function.Injective dayNumber := by
  -- Two dates of one number agree on the year, then on the month, then on the day.
  have years : ∀ {d e : Date}, d.year < e.year → d.dayNumber < e.dayNumber := by
    intro d e h
    have hgap := yearStart_mono h
    have hd := d.dayNumber_mem_year
    have he := e.dayNumber_mem_year
    omega
  have months : ∀ {d e : Date}, d.year = e.year → d.month < e.month →
      d.dayNumber < e.dayNumber := by
    rintro ⟨year, m, a, hm, ha⟩ ⟨_, n, b, hn, hb⟩ heq h
    simp only at heq h
    subst heq
    have hgap := daysBeforeMonth_mono year hm.1 h
    simp only [dayNumber]
    omega
  intro d e h
  have hyear : d.year = e.year := by
    obtain hlt | heq | hgt := lt_trichotomy d.year e.year
    · exact absurd h (ne_of_lt (years hlt))
    · exact heq
    · exact absurd h.symm (ne_of_lt (years hgt))
  have hmonth : d.month = e.month := by
    obtain hlt | heq | hgt := lt_trichotomy d.month e.month
    · exact absurd h (ne_of_lt (months hyear hlt))
    · exact heq
    · exact absurd h.symm (ne_of_lt (months hyear.symm hgt))
  refine Date.ext hyear hmonth ?_
  simp only [dayNumber, hyear, hmonth] at h
  omega

/-- The day of the week, counted from Sunday; 1970-01-01 was a Thursday. -/
def weekday (d : Date) : Nat := ((d.dayNumber + 4) % 7).toNat

/-- The position of a date in its year, counted from zero. -/
def yearDay (d : Date) : Nat := daysBeforeMonth d.year d.month + (d.day - 1)

theorem yearDay_lt (d : Date) : d.yearDay < 366 := by
  have hmonth := daysBeforeMonth_mono d.year d.month_range.1 (Nat.lt_succ_of_le d.month_range.2)
  rw [daysBeforeMonth_thirteen] at hmonth
  have hlength : yearLength d.year ≤ 366 := by
    unfold yearLength
    split <;> omega
  have hday := d.day_range
  unfold yearDay
  omega

theorem dayNumber_eq_yearDay (d : Date) : d.dayNumber = yearStart d.year + d.yearDay := by
  have hday := d.day_range.1
  unfold dayNumber yearDay
  omega

end Date

/-- The date `n` days after 1970-01-01. -/
def dateOfDay : Int → Date
  | .ofNat n => Date.next^[n] Date.epoch
  | .negSucc n => Date.prev^[n + 1] Date.epoch

@[simp] theorem dayNumber_dateOfDay (n : Int) : (dateOfDay n).dayNumber = n := by
  have forwards : ∀ n : Nat, (Date.next^[n] Date.epoch).dayNumber = n := by
    intro n
    induction n with
    | zero => exact Date.dayNumber_epoch
    | succ n ih =>
      rw [Function.iterate_succ_apply', Date.dayNumber_next, ih]
      omega
  have backwards : ∀ n : Nat, (Date.prev^[n] Date.epoch).dayNumber = -n := by
    intro n
    induction n with
    | zero => exact Date.dayNumber_epoch
    | succ n ih =>
      rw [Function.iterate_succ_apply', Date.dayNumber_prev, ih]
      omega
  cases n with
  | ofNat n => exact forwards n
  | negSucc n => exact backwards (n + 1)

/-- Counting gives back every date. -/
theorem dateOfDay_dayNumber (d : Date) : dateOfDay d.dayNumber = d :=
  Date.dayNumber_injective (dayNumber_dateOfDay d.dayNumber)

theorem dateOfDay_eq_iff {n : Int} {d : Date} : dateOfDay n = d ↔ n = d.dayNumber := by
  constructor
  · rintro rfl
    exact (dayNumber_dateOfDay n).symm
  · rintro rfl
    exact dateOfDay_dayNumber d

/-! ## Dates and clocks -/

/-- A date and a time of day, without leap seconds. -/
@[ext]
structure CivilTime where
  date : Date
  hour : Nat
  minute : Nat
  second : Nat
  hour_range : hour < 24
  minute_range : minute < 60
  second_range : second < 60
  deriving DecidableEq

namespace CivilTime

/-- Seconds from 1970-01-01 00:00:00. -/
def seconds (c : CivilTime) : Int :=
  c.date.dayNumber * 86400 + c.hour * 3600 + c.minute * 60 + c.second

/-- The date and clock of a second count. -/
def ofSeconds (t : Int) : CivilTime where
  date := dateOfDay (t / 86400)
  hour := (t % 86400 / 3600).toNat
  minute := (t % 3600 / 60).toNat
  second := (t % 60).toNat
  hour_range := by omega
  minute_range := by omega
  second_range := by omega

@[simp] theorem seconds_ofSeconds (t : Int) : (ofSeconds t).seconds = t := by
  simp only [seconds, ofSeconds, dayNumber_dateOfDay]
  omega

end CivilTime

/-! ## Fields out of range -/

/-- A date and a clock whose fields need not be in range. -/
structure CivilFields where
  year : Int
  month : Int
  day : Int
  hour : Int
  minute : Int
  second : Int
  deriving DecidableEq

namespace CivilFields

/-- Carry every field but the day into the next larger one. -/
def carry (f : CivilFields) : CivilFields :=
  let minute := f.minute + f.second / 60
  let hour := f.hour + minute / 60
  { year := f.year + (f.month - 1) / 12
    month := (f.month - 1) % 12 + 1
    day := f.day + hour / 24
    hour := hour % 24
    minute := minute % 60
    second := f.second % 60 }

theorem carry_month_range (f : CivilFields) :
    1 ≤ f.carry.month.toNat ∧ f.carry.month.toNat ≤ 12 := by
  simp only [carry]
  omega

/-- The instant that the fields name: the days are counted from the first of the
month that the carry leaves. -/
def seconds (f : CivilFields) : Int :=
  let c := f.carry
  ((Date.firstOf c.year c.month.toNat f.carry_month_range).dayNumber + (c.day - 1)) * 86400
    + c.hour * 3600 + c.minute * 60 + c.second

/-- With a month in range, the instant is linear in the other fields. -/
theorem seconds_of_month {f : CivilFields} (h : 1 ≤ f.month ∧ f.month ≤ 12)
    (hmonth : 1 ≤ f.month.toNat ∧ f.month.toNat ≤ 12) :
    f.seconds = ((Date.firstOf f.year f.month.toNat hmonth).dayNumber + (f.day - 1)) * 86400
      + f.hour * 3600 + f.minute * 60 + f.second := by
  have hyearEq : f.carry.year = f.year := by
    simp only [carry]
    omega
  have hmonthEq : f.carry.month = f.month := by
    simp only [carry]
    omega
  simp only [seconds, hyearEq, hmonthEq]
  simp only [carry]
  omega

/-- The fields of a date and a clock. -/
def ofCivilTime (c : CivilTime) : CivilFields :=
  ⟨c.date.year, c.date.month, c.date.day, c.hour, c.minute, c.second⟩

/-- On fields in range nothing is carried. -/
@[simp] theorem seconds_ofCivilTime (c : CivilTime) : (ofCivilTime c).seconds = c.seconds := by
  obtain ⟨⟨year, month, day, hmonth, hday⟩, hour, minute, second, h₁, h₂, h₃⟩ := c
  have hcarry : (ofCivilTime ⟨⟨year, month, day, hmonth, hday⟩, hour, minute, second, h₁, h₂,
      h₃⟩).carry = ⟨year, month, day, hour, minute, second⟩ := by
    simp only [ofCivilTime, carry, mk.injEq]
    omega
  simp only [seconds, hcarry, CivilTime.seconds, Date.dayNumber, Date.firstOf, Int.toNat_natCast]
  omega

end CivilFields

end RatifyProtocol.Foundation
