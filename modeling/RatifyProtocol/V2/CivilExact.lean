import Mathlib.Tactic.IntervalCases
import Mathlib.Tactic.Linarith
import Mathlib.Tactic.LinearCombination
import Mathlib.Tactic.Ring
import RatifyProtocol.V2.Civil
import RatifyProtocol.V2.Limits
set_option autoImplicit false

/-!
# V2: civil time is exact

The absolute-day algorithms against the calendar that counts days.  A year that
starts in March has its leap day at the end, so the month and the day follow from
the day of that year alone; `dayNumber_march` is the calendar read that way.
-/

namespace RatifyProtocol.V2

open Foundation

/-! ## Years that start in March -/

/-- Days before a month, with the leap day as a correction. -/
theorem daysBeforeMonth_eq (year : Int) {month : Nat} (h : 1 ≤ month ∧ month ≤ 12) :
    (daysBeforeMonth year month : Int) = (214 * month - 211) / 7
      + if 3 ≤ month then if leapYear year then -1 else -2 else 0 := by
  obtain ⟨h₁, h₂⟩ := h
  cases hleap : leapYear year <;> interval_cases month <;>
    simp [daysBeforeMonth, monthLength, hleap]

/-- Days from 1970-01-01 to 1 March of a year. -/
def marchStart (year : Int) : Int := 365 * year + year / 4 - year / 100 + year / 400 - 719468

theorem yearStart_eq_marchStart (year : Int) :
    yearStart year = marchStart year - if leapYear year then 60 else 59 := by
  unfold yearStart marchStart
  split
  · rename_i hleap
    have hleap := leapYear_iff.mp hleap
    omega
  · rename_i hleap
    have hleap := mt leapYear_iff.mpr hleap
    omega

theorem marchStart_pred (year : Int) : marchStart (year - 1) = yearStart year - 306 := by
  unfold yearStart marchStart
  omega

/-- January and February belong to the year before. -/
def marchJanFeb (month : Int) : Int := if month < 3 then 1 else 0

/-- The number of a day, counted from 1 March. -/
theorem dayNumber_march (d : Date) :
    d.dayNumber = marchStart (d.year - marchJanFeb d.month)
      + (979 * (d.month + 12 * marchJanFeb d.month) - 2919) / 32 + (d.day - 1) := by
  obtain ⟨year, month, day, ⟨hm₁, hm₂⟩, hday⟩ := d
  have hbefore := daysBeforeMonth_eq year ⟨hm₁, hm₂⟩
  simp only [Date.dayNumber, marchJanFeb]
  split
  · rw [marchStart_pred]
    interval_cases month <;> simp at hbefore ⊢ <;> omega
  · rw [yearStart_eq_marchStart]
    have hthree : 3 ≤ month := by omega
    simp only [if_pos hthree] at hbefore
    split <;> rename_i hleap <;> simp only [hleap, if_true, if_false, Bool.false_eq_true] at hbefore <;>
      interval_cases month <;> simp at hbefore ⊢ <;> omega

/-! ## Splitting a day count -/

theorem or_three (n : Nat) : n ||| 3 = n / 4 * 4 + 3 := by
  have hhigh : (n ||| 3) / 4 = n / 4 := by
    have h := Nat.or_div_two_pow (a := n) (b := 3) (n := 2)
    simpa using h
  have hlow : (n ||| 3) % 4 = 3 := by
    have h := Nat.or_mod_two_pow (a := n) (b := 3) (n := 2)
    have hn : n % 4 < 4 := Nat.mod_lt _ (by decide)
    simp only [Nat.reducePow] at h
    rw [h]
    generalize n % 4 = k at hn
    interval_cases k <;> rfl
  omega

/-- Century, year of the century and day of the year, by plain division. -/
structure DaySplit (days century cyear ayday : Int) : Prop where
  century : century = (days * 4 + 3) / 146097
  cyear : cyear = ((days * 4 + 3) % 146097 / 4 * 4 + 3) / 1461
  ayday : ayday = ((days * 4 + 3) % 146097 / 4 * 4 + 3) % 1461 / 4

/-- Multiplying by `2939745` and shifting divides by 1461: `2939745 * 1461` is
`2^32 + 149`, and the excess stays below one unit. -/
theorem mul_shift_eq {x : Int} (h : 0 ≤ x ∧ x ≤ 146099) :
    2939745 * x / 4294967296 = x / 1461
      ∧ 2939745 * x % 4294967296 / 2939745 = x % 1461 := by
  obtain ⟨q, r, hq, hr, hx⟩ : ∃ q r : Int, (0 ≤ q ∧ q ≤ 99) ∧ (0 ≤ r ∧ r < 1461)
      ∧ x = 1461 * q + r := ⟨x / 1461, x % 1461, by omega, by omega, by omega⟩
  have hdiv : x / 1461 = q := by omega
  have hmod : x % 1461 = r := by omega
  have hhigh : 2939745 * x / 4294967296 = q := by omega
  have hlow : 2939745 * x % 4294967296 = 149 * q + 2939745 * r := by omega
  rw [hdiv, hmod, hhigh, hlow]
  exact ⟨rfl, by omega⟩

section Exact

variable {m : Type → Type} [Monad m] [LawfulMonad m] {A : Arith m}

theorem absDaysSplit_eq (hA : A.Lawful) (days : Int) (h : 0 ≤ days ∧ days ≤ 2 ^ 60) :
    ∃ century cyear ayday, DaySplit days century cyear ayday
      ∧ absDaysSplit A days = pure (century, cyear, ayday) := by
  have hcd : (((days * 4 + 3) % 146097).toNat ||| 3 : Nat)
      = (days * 4 + 3) % 146097 / 4 * 4 + 3 := by
    rw [or_three]
    omega
  obtain ⟨hyear, hday⟩ := mul_shift_eq (x := (days * 4 + 3) % 146097 / 4 * 4 + 3) (by omega)
  refine ⟨_, _, _, ⟨rfl, rfl, rfl⟩, ?_⟩
  unfold absDaysSplit
  rw [hA.fit_bind (by simp only [IntType.holds_u64]; omega),
    hA.fit_bind (by simp only [IntType.holds_u64]; omega)]
  simp only [hcd]
  rw [hA.fit_bind (by simp only [IntType.holds_u64]; omega), hyear, hday]

theorem absYear_eq (hA : A.Lawful) {century cyear jf : Int}
    (hcentury : 2922770224 ≤ century ∧ century ≤ 2 ^ 50) (hcyear : 0 ≤ cyear ∧ cyear ≤ 99)
    (hjf : 0 ≤ jf ∧ jf ≤ 1) :
    absYear A century cyear jf = pure (100 * century + cyear + jf - absoluteYears) := by
  unfold absYear absoluteYears
  rw [hA.fit_bind (by simp only [IntType.holds_u64]; omega),
    hA.fit_bind (by simp only [IntType.holds_u64]; omega),
    hA.fit_bind (by simp only [IntType.holds_i64]; omega),
    hA.fit_bind (by simp only [IntType.holds_i64]; omega),
    hA.fit_of_holds (by simp only [IntType.holds_i64]; omega)]
  congr 1
  omega

end Exact

/-- Month and day of the year that starts in March, as `civil_from_unix` computes
them: a finite table. -/
theorem monthDay_table : ∀ a : Nat, a < 366 →
    (3 ≤ (2141 * a + 197913) / 65536 ∧ (2141 * a + 197913) / 65536 ≤ 14)
      ∧ (13 ≤ (2141 * a + 197913) / 65536 ↔ 306 ≤ a)
      ∧ a = (979 * ((2141 * a + 197913) / 65536) - 2919) / 32
          + (2141 * a + 197913) % 65536 / 2141
      ∧ (2141 * a + 197913) % 65536 / 2141 < 31
      ∧ (a < 337 → 1 + (2141 * a + 197913) % 65536 / 2141
          ≤ monthLength 1 ((2141 * a + 197913) / 65536 - if 306 ≤ a then 12 else 0))
      ∧ (337 ≤ a → (2141 * a + 197913) / 65536 = 14) := by
  decide +kernel

/-- The split in mixed radix: 36524 days and a leap day in every fourth century,
365 days and a leap day in every fourth year of it, and the leap day last. -/
structure DayDigits (days century cyear ayday : Int) : Prop where
  days_eq : days = 36524 * century + century / 4 + (365 * cyear + cyear / 4 + ayday)
  cyear_range : 0 ≤ cyear ∧ cyear ≤ 99
  ayday_range : 0 ≤ ayday ∧ ayday ≤ 365
  leapDay : ayday = 365 → cyear % 4 = 3 ∧ (cyear = 99 → century % 4 = 3)

/-- Four times the count plus three, divided by the days of four periods. -/
theorem quarter_split (n k : Int) {period : Int} (hperiod : period % 4 = 1)
    (hlow : period * k ≤ 4 * n + 3) (hhigh : 4 * n + 3 < period * k + period) :
    ∃ rest, (4 * n + 3 - period * k) / 4 = rest ∧ n = period / 4 * k + k / 4 + rest
      ∧ 0 ≤ rest ∧ rest ≤ period / 4 ∧ (rest = period / 4 → k % 4 = 3) := by
  obtain ⟨p, rfl⟩ : ∃ p, period = 4 * p + 1 := ⟨period / 4, by omega⟩
  have hp : (4 * p + 1) / 4 = p := by omega
  have hmul : (4 * p + 1) * k = 4 * (p * k) + k := by ring
  rw [hmul] at hlow hhigh ⊢
  rw [hp]
  generalize p * k = pk at hlow hhigh ⊢
  exact ⟨_, rfl, by omega, by omega, by omega, by omega⟩

theorem DaySplit.digits {days century cyear ayday : Int} (h : DaySplit days century cyear ayday) :
    DayDigits days century cyear ayday := by
  obtain ⟨hcentury, hcyear, hayday⟩ := h
  obtain ⟨cday, hcday, hdays, hc₀, hc₁, hcleap⟩ :=
    quarter_split days century (show (146097 : Int) % 4 = 1 by decide) (by omega) (by omega)
  have hcday' : (days * 4 + 3) % 146097 / 4 = cday := by
    rw [← hcday, hcentury]
    omega
  rw [hcday'] at hcyear hayday
  obtain ⟨a, ha, hcdays, ha₀, ha₁, haleap⟩ :=
    quarter_split cday cyear (show (1461 : Int) % 4 = 1 by decide) (by omega) (by omega)
  have ha' : ayday = a := by
    rw [← ha, hayday, hcyear]
    omega
  subst ha'
  norm_num at hdays hc₁ hcleap hcdays ha₁ haleap
  exact ⟨by omega, by omega, by omega, fun hlast => ⟨haleap hlast, fun hyear => hcleap (by omega)⟩⟩

/-- The year that starts in March, four hundred years at a time. -/
theorem marchStart_century (century cyear : Int) (h : 0 ≤ cyear ∧ cyear ≤ 99) :
    marchStart (100 * century + cyear - absoluteYears)
      = 36524 * century + century / 4 + (365 * cyear + cyear / 4) - 106751991073400 := by
  have h₄ : (100 * century + cyear - absoluteYears) / 4 = 25 * century + cyear / 4 - 73069255600 := by
    unfold absoluteYears
    omega
  have h₁₀₀ : (100 * century + cyear - absoluteYears) / 100 = century - 2922770224 := by
    unfold absoluteYears
    omega
  have h₄₀₀ : (100 * century + cyear - absoluteYears) / 400 = century / 4 - 730692556 := by
    unfold absoluteYears
    omega
  unfold marchStart
  rw [h₄, h₁₀₀, h₄₀₀]
  unfold absoluteYears
  omega

/-- The year after a fourth year is a leap year, unless it starts a century that
is not a fourth. -/
theorem leapYear_century {century cyear : Int} (h : cyear % 4 = 3)
    (hrange : 0 ≤ cyear ∧ cyear ≤ 99) (hlast : cyear = 99 → century % 4 = 3) :
    leapYear (100 * century + cyear + 1 - absoluteYears) = true := by
  rw [leapYear_iff]
  unfold absoluteYears
  refine ⟨by omega, ?_⟩
  by_cases h99 : cyear = 99
  · have := hlast h99
    right
    omega
  · left
    omega

/-- A split names a date: the year that starts in March, and in it the month and
the day. -/
theorem exists_date_of_digits {days century cyear ayday : Int}
    (h : DayDigits days century cyear ayday) :
    ∃ d : Date, d.dayNumber = days - 106751991073400
      ∧ d.year = 100 * century + cyear + janFeb ayday - absoluteYears
      ∧ (d.month : Int) = (2141 * ayday + 197913) / 65536 - 12 * janFeb ayday
      ∧ (d.day : Int) = 1 + (2141 * ayday + 197913) % 65536 / 2141 := by
  obtain ⟨hdays, hcyear, hrange, hleapDay⟩ := h
  obtain ⟨a, rfl⟩ : ∃ a : Nat, ayday = a := ⟨ayday.toNat, by omega⟩
  obtain ⟨hmonth, hjanFeb, hsum, hday, hshort, hfeb⟩ := monthDay_table a (by omega)
  have hM : (2141 * (a : Int) + 197913) / 65536 = ((2141 * a + 197913) / 65536 : Nat) := by omega
  have hD : (2141 * (a : Int) + 197913) % 65536 / 2141
      = ((2141 * a + 197913) % 65536 / 2141 : Nat) := by omega
  rw [hM, hD]
  generalize (2141 * a + 197913) / 65536 = amonth at *
  generalize (2141 * a + 197913) % 65536 / 2141 = day at *
  have hstart := marchStart_century century cyear hcyear
  by_cases hjf : 306 ≤ a
  · have hone : janFeb a = 1 := if_pos (by unfold marchThruDecember; omega)
    have hlength : 1 + day ≤ monthLength (100 * century + cyear + 1 - absoluteYears)
        (amonth - 12) := by
      by_cases hfebruary : a < 337
      · have hbound := hshort hfebruary
        rw [if_pos hjf] at hbound
        refine hbound.trans ?_
        unfold monthLength
        split
        · rw [if_neg (by decide)]
          split <;> omega
        · exact Nat.le_refl _
      · -- 29 February is the last day, which only a leap year reaches.
        have h14 := hfeb (by omega)
        subst h14
        unfold monthLength
        rw [if_pos rfl]
        by_cases hlast : a = 365
        · obtain ⟨hfour, hcentury⟩ := hleapDay (by omega)
          rw [if_pos (leapYear_century hfour hcyear hcentury)]
          omega
        · split <;> omega
    refine ⟨⟨100 * century + cyear + 1 - absoluteYears, amonth - 12, 1 + day, by omega,
      by omega, hlength⟩, ?_, ?_, ?_, ?_⟩
    · have hcast : ((amonth - 12 : Nat) : Int) + 12 * 1 = amonth := by omega
      have hmarch : marchJanFeb ((amonth - 12 : Nat) : Int) = 1 := if_pos (by omega)
      have hyear : 100 * century + cyear + 1 - absoluteYears - 1
          = 100 * century + cyear - absoluteYears := by omega
      rw [dayNumber_march, hmarch]
      simp only [hyear, hstart, hcast]
      omega
    · simp only [hone]
    · simp only [hone]
      omega
    · simp only
      omega
  · have hzero : janFeb a = 0 := if_neg (by unfold marchThruDecember; omega)
    have hlength : 1 + day ≤ monthLength (100 * century + cyear - absoluteYears) amonth := by
      have hbound := hshort (by omega)
      rw [if_neg hjf, Nat.sub_zero] at hbound
      refine hbound.trans ?_
      unfold monthLength
      split
      · omega
      · exact Nat.le_refl _
    refine ⟨⟨100 * century + cyear - absoluteYears, amonth, 1 + day, by omega,
      by omega, hlength⟩, ?_, ?_, ?_, ?_⟩
    · have hmarch : marchJanFeb (amonth : Int) = 0 := if_neg (by omega)
      rw [dayNumber_march, hmarch]
      simp only [sub_zero, hstart]
      omega
    · simp only [hzero, add_zero]
    · simp only [hzero]
      omega
    · simp only
      omega

/-! ## `civil_from_unix` -/

/-- The fields of a date and a clock. -/
def Civil.ofTime (c : CivilTime) : Civil :=
  ⟨c.date.year, c.date.month, c.date.day, c.hour, c.minute, c.second⟩

section Exact

variable {m : Type → Type} [Monad m] [LawfulMonad m] {A : Arith m}

/-- The count of absolute seconds, read as unsigned, is exact. -/
theorem wrap_absolute {t : Int} (h : -62162035200 ≤ t ∧ t ≤ 2 ^ 50) :
    IntType.u64.wrap (IntType.i64.wrap (t + unixToAbsolute)) = t + 9223372028741760000 := by
  have hconst : unixToAbsolute = 9223372028741760000 := by decide
  rw [hconst, IntType.wrap_i64, IntType.wrap_u64]
  omega

/-- The split of the absolute days of an instant, with its date. -/
theorem absDaysSplit_date (hA : A.Lawful) {n : Int} (h : -719468 ≤ n ∧ n ≤ 2 ^ 40) :
    ∃ century cyear ayday, absDaysSplit A (n + 106751991073400) = pure (century, cyear, ayday)
      ∧ (2922770224 ≤ century ∧ century ≤ 2 ^ 50)
      ∧ DayDigits (n + 106751991073400) century cyear ayday := by
  obtain ⟨century, cyear, ayday, hsplit, heq⟩ :=
    absDaysSplit_eq hA (n + 106751991073400) (by omega)
  refine ⟨century, cyear, ayday, heq, ?_, hsplit.digits⟩
  have hcentury := hsplit.century
  omega

theorem janFeb_range (ayday : Int) : 0 ≤ janFeb ayday ∧ janFeb ayday ≤ 1 := by
  unfold janFeb
  split <;> omega

/-- `civil_from_unix` returns the date and the clock found by counting days. -/
theorem civilFromUnixIn_eq (hA : A.Lawful) {t : Int} (h : -62162035200 ≤ t ∧ t ≤ 2 ^ 50) :
    civilFromUnixIn A t = pure (Civil.ofTime (CivilTime.ofSeconds t)) := by
  have habs : (t + 9223372028741760000) / secondsPerDay = t / 86400 + 106751991073400 := by
    unfold secondsPerDay
    omega
  have hclock : (t + 9223372028741760000) % secondsPerDay = t % 86400 := by
    unfold secondsPerDay
    omega
  obtain ⟨century, cyear, ayday, hsplit, hcentury, hdigits⟩ :=
    absDaysSplit_date hA (n := t / 86400) (by omega)
  obtain ⟨d, hnumber, hyear, hmonth, hday⟩ := exists_date_of_digits hdigits
  have hdate : dateOfDay (t / 86400) = d := by
    rw [dateOfDay_eq_iff]
    omega
  have hjf := janFeb_range ayday
  have hayday := hdigits.ayday_range
  have hmonthRange := d.month_range
  unfold civilFromUnixIn
  rw [hA.turn_bind, hA.turn_bind, wrap_absolute h, habs, hclock, hsplit]
  simp only [pure_bind]
  rw [hA.fit_bind (by simp only [IntType.holds_u32]; omega),
    hA.fit_bind (by simp only [IntType.holds_u32]; omega),
    hA.fit_bind (by simp only [IntType.holds_u32]; omega),
    absYear_eq hA hcentury hdigits.cyear_range hjf, pure_bind,
    hA.fit_bind (by simp only [IntType.holds_u32]; omega),
    hA.fit_bind (by simp only [IntType.holds_u32]; omega),
    hA.fit_bind (by simp only [IntType.holds_u32]; omega),
    hA.fit_bind (by simp only [IntType.holds_u32]; omega),
    hA.fit_bind (by simp only [IntType.holds_u32]; omega),
    hA.fit_bind (by simp only [IntType.holds_u32]; omega)]
  simp only [Civil.ofTime, CivilTime.ofSeconds, hdate, hyear, hmonth, hday]
  congr 2 <;> omega

/-! ## `abs_days_year_yday` -/

/-- The leap flag of the split is the Gregorian rule. -/
theorem leapYear_digits (century : Int) {cyear : Int} (h : 0 ≤ cyear ∧ cyear ≤ 99) :
    leapYear (100 * century + cyear - absoluteYears) = true
      ↔ cyear % 4 = 0 ∧ (cyear ≠ 0 ∨ century % 4 = 0) := by
  have h₄ : (100 * century + cyear - absoluteYears) % 4 = cyear % 4 := by
    unfold absoluteYears
    omega
  have h₁₀₀ : (100 * century + cyear - absoluteYears) % 100 = cyear := by
    unfold absoluteYears
    omega
  have h₄₀₀ : (100 * century + cyear - absoluteYears) % 400 = 100 * (century % 4) + cyear := by
    unfold absoluteYears
    omega
  rw [leapYear_iff, h₄, h₁₀₀, h₄₀₀]
  omega

/-- `abs_days_year_yday` returns the year of a day and its position, from one. -/
theorem absDaysYearYday_eq (hA : A.Lawful) {n : Int} (h : -719468 ≤ n ∧ n ≤ 2 ^ 40) :
    absDaysYearYday A (n + 106751991073400)
      = pure ((dateOfDay n).year, ((dateOfDay n).yearDay + 1 : Int)) := by
  obtain ⟨century, cyear, ayday, hsplit, hcentury, hdigits⟩ := absDaysSplit_date hA h
  obtain ⟨d, hnumber, hyear, -, -⟩ := exists_date_of_digits hdigits
  have hdate : dateOfDay n = d := by
    rw [dateOfDay_eq_iff]
    omega
  have hjf := janFeb_range ayday
  have hayday := hdigits.ayday_range
  have hstart := marchStart_century century cyear hdigits.cyear_range
  have hdays := hdigits.days_eq
  have hleap := leapYear_digits century hdigits.cyear_range
  have hyearDay := d.dayNumber_eq_yearDay
  unfold absDaysYearYday
  rw [hsplit]
  simp only [pure_bind]
  rw [absYear_eq hA hcentury hdigits.cyear_range hjf, pure_bind,
    hA.fit_bind (by simp only [IntType.holds_i64]; omega),
    hA.fit_bind (by simp only [IntType.holds_i64]; split <;> (try split) <;> omega),
    hA.fit_bind (by simp only [IntType.holds_i64]; split <;> (try split) <;> omega), hdate, hyear]
  congr 2
  by_cases hlate : janFeb ayday = 0
  · rw [hlate, add_zero] at hyear
    rw [hyear, yearStart_eq_marchStart, hstart] at hyearDay
    rw [if_pos hlate, hlate]
    split <;> rename_i hflag
    · rw [if_pos (hleap.mpr hflag)] at hyearDay
      omega
    · rw [if_neg (mt hleap.mp hflag)] at hyearDay
      omega
  · have hone : janFeb ayday = 1 := by omega
    have hpred : 100 * century + cyear + 1 - absoluteYears - 1
        = 100 * century + cyear - absoluteYears := by omega
    have hyearStart := marchStart_pred (100 * century + cyear + 1 - absoluteYears)
    rw [hpred, hstart] at hyearStart
    rw [hyear, hone] at hyearDay
    rw [if_neg hlate, hone]
    omega

/-! ## `unix_from_civil_utc` -/

/-- `norm` carries by flooring. -/
theorem norm_eq (hA : A.Lawful) {hi lo base : Int} (hbase : 0 < base ∧ base ≤ 2 ^ 20)
    (hhi : -2 ^ 61 ≤ hi ∧ hi ≤ 2 ^ 61) (hlo : -2 ^ 61 ≤ lo ∧ lo ≤ 2 ^ 61) :
    norm A hi lo base = pure (hi + lo / base, lo % base) := by
  have hmod := Int.emod_nonneg lo (ne_of_gt hbase.1)
  have hmodlt := Int.emod_lt_of_pos lo hbase.1
  have hdivmod := Int.emod_add_mul_ediv lo base
  unfold norm
  by_cases hneg : lo < 0
  · -- The carry of a negative field rounds down.
    have hround : (-lo - 1).tdiv base = -(lo / base) - 1 := by
      rw [Int.tdiv_eq_ediv_of_nonneg (by omega)]
      refine (Int.ediv_emod_unique (r := base - 1 - lo % base) hbase.1).mpr ⟨?_, ?_, ?_⟩ |>.1
      · linear_combination -hdivmod
      · omega
      · omega
    have hquot : -2 ^ 61 ≤ lo / base := by
      rw [Int.le_ediv_iff_mul_le hbase.1]
      nlinarith
    have hquotneg : lo / base < 0 := Int.ediv_neg_of_neg_of_pos hneg hbase.1
    have hmul : (-(lo / base) - 1 + 1) * base = lo % base - lo := by
      linear_combination -hdivmod
    rw [if_pos hneg, hA.fit_bind (by simp only [IntType.holds_i64]; omega),
      hA.fit_bind (by simp only [IntType.holds_i64]; omega), hround,
      hA.fit_bind (by simp only [IntType.holds_i64]; omega),
      hA.fit_bind (by simp only [IntType.holds_i64]; omega), hmul,
      hA.fit_bind (by simp only [IntType.holds_i64]; omega),
      hA.fit_bind (by simp only [IntType.holds_i64]; omega)]
    simp only [pure_bind]
    rw [if_neg (by omega)]
    congr 2 <;> omega
  · have hround : lo.tdiv base = lo / base := Int.tdiv_eq_ediv_of_nonneg (by omega)
    have hquot : 0 ≤ lo / base := Int.ediv_nonneg (by omega) (by omega)
    have hquotle : lo / base ≤ lo := Int.ediv_le_self base (by omega)
    have hmul : lo / base * base = lo - lo % base := by
      linear_combination hdivmod
    rw [if_neg hneg, pure_bind]
    simp only [hround]
    by_cases hge : lo ≥ base
    · rw [if_pos hge, hA.fit_bind (by simp only [IntType.holds_i64]; omega), hmul,
        hA.fit_bind (by simp only [IntType.holds_i64]; omega),
        hA.fit_bind (by simp only [IntType.holds_i64]; omega)]
      congr 2
      omega
    · rw [if_neg hge, Int.ediv_eq_zero_of_lt (by omega) (by omega),
        Int.emod_eq_of_lt (by omega) (by omega), add_zero]

/-- `date_to_abs_days` up to its last sum: the days of the centuries before, up to
1 March, and the days of the century add up to the first of the month. -/
theorem dateToAbsDays_eq (hA : A.Lawful) (year : Int) {month : Nat} (day : Int)
    (hyear : 0 ≤ year ∧ year ≤ 2 ^ 30) (hmonth : 1 ≤ month ∧ month ≤ 12)
    (hearly : month < 3 → 1 ≤ year) :
    ∃ centurydays rest : Int, (0 ≤ centurydays ∧ centurydays ≤ 2 ^ 50)
      ∧ (0 ≤ rest ∧ rest ≤ 2 ^ 16)
      ∧ centurydays + rest
        = (Date.firstOf year month hmonth).dayNumber + 106751991073400
      ∧ centurydays
        = marchStart (100 * ((year - marchJanFeb month) / 100)) + 106751991073400
      ∧ dateToAbsDays A year month day = (do
          let days ← A.fit .i64 (rest + day)
          let days ← A.fit .i64 (days - 1)
          let days ← A.fit .u64 days
          A.fit .u64 (centurydays + days)) := by
  have hjf : (if (month : Int) < 3 then (1 : Int) else 0) = marchJanFeb month := rfl
  have hjfRange : 0 ≤ marchJanFeb month ∧ marchJanFeb month ≤ 1 := by
    unfold marchJanFeb
    split <;> omega
  have hpos : 0 ≤ year - marchJanFeb month := by
    unfold marchJanFeb
    split <;> omega
  obtain ⟨y, hy⟩ : ∃ y, y = year - marchJanFeb month + absoluteYears := ⟨_, rfl⟩
  have hyRange : 292277022400 ≤ y ∧ y ≤ 2 ^ 40 := by
    unfold absoluteYears at hy
    omega
  have hnumber := dayNumber_march (Date.firstOf year month hmonth)
  have hcentury := marchStart_century (y / 100) (y % 100) (by omega)
  have hyear' : 100 * (y / 100) + y % 100 - absoluteYears = year - marchJanFeb month := by omega
  rw [hyear'] at hcentury
  simp only [Date.firstOf] at hnumber
  refine ⟨146097 * (y / 100) / 4,
    1461 * (y % 100) / 4 + (979 * (month + 12 * marchJanFeb month) - 2919) / 32,
    by omega, by omega, ?_, ?_, ?_⟩
  · have hcenturies : 146097 * (y / 100) / 4 = 36524 * (y / 100) + y / 100 / 4 := by omega
    have hyears : 1461 * (y % 100) / 4 = 365 * (y % 100) + y % 100 / 4 := by omega
    simp only [Date.firstOf]
    rw [hnumber, hcentury, hcenturies, hyears]
    omega
  · have hstart := marchStart_century (y / 100) 0 (by omega)
    have hyear₀ : 100 * (y / 100) + 0 - absoluteYears
        = 100 * ((year - marchJanFeb month) / 100) := by
      unfold absoluteYears at hy ⊢
      omega
    rw [hyear₀] at hstart
    omega
  · unfold dateToAbsDays
    simp only [hjf]
    rw [hA.fit_bind (by simp only [IntType.holds_u32]; omega),
      hA.fit_bind (by simp only [IntType.holds_u32]; omega),
      hA.fit_bind (by simp only [IntType.holds_u64]; omega),
      hA.fit_bind (by simp only [IntType.holds_u64]; omega),
      hA.fit_bind (by simp only [IntType.holds_u64, ← hy]; omega),
      hA.fit_bind (by simp only [IntType.holds_u32]; omega),
      hA.fit_bind (by simp only [IntType.holds_u32]; omega), ← hy,
      hA.fit_bind (by simp only [IntType.holds_u32]; omega),
      hA.fit_bind (by simp only [IntType.holds_u64]; omega),
      hA.fit_bind (by simp only [IntType.holds_u32]; omega)]

/-- The instant of an absolute day and a clock, with the wrapping steps. -/
def unixFromAbsDays (days hour minute second : Int) : Int :=
  IntType.i64.wrap (IntType.i64.wrap (IntType.i64.wrap (IntType.i64.wrap days * secondsPerDay)
    + (hour * 3600 + minute * 60 + second)) + absoluteToUnix)

/-- The wrapping steps cancel: the result is exact whether or not the day count
itself was reduced. -/
theorem unixFromAbsDays_eq {n hour minute second : Int} (h : -2 ^ 46 ≤ n ∧ n ≤ 2 ^ 46)
    (hhour : 0 ≤ hour ∧ hour < 24) (hminute : 0 ≤ minute ∧ minute < 60)
    (hsecond : 0 ≤ second ∧ second < 60) :
    unixFromAbsDays (IntType.u64.wrap (n + 106751991073400)) hour minute second
      = n * 86400 + hour * 3600 + minute * 60 + second := by
  have hconst : absoluteToUnix = -9223372028741760000 := by decide
  have hdays : IntType.i64.wrap (IntType.u64.wrap (n + 106751991073400))
      = n + 106751991073400 := by
    rw [IntType.wrap_i64, IntType.wrap_u64]
    omega
  have htotal : (n + 106751991073400) * secondsPerDay = n * 86400 + 9223372028741760000 := by
    unfold secondsPerDay
    omega
  unfold unixFromAbsDays
  rw [hdays, htotal, hconst]
  simp only [IntType.wrap_i64]
  omega

/-- The fields are carried as in the calendar. -/
theorem unixFromCivilUtcIn_carry (hA : A.Lawful) (f : CivilFields)
    (hyear : -2 ^ 40 ≤ f.year ∧ f.year ≤ 2 ^ 40) (hmonth : 0 ≤ f.month ∧ f.month < 2 ^ 32)
    (hday : -2 ^ 50 ≤ f.day ∧ f.day ≤ 2 ^ 50) (hhour : -2 ^ 50 ≤ f.hour ∧ f.hour ≤ 2 ^ 50)
    (hminute : -2 ^ 50 ≤ f.minute ∧ f.minute ≤ 2 ^ 50)
    (hsecond : -2 ^ 50 ≤ f.second ∧ f.second ≤ 2 ^ 50) :
    unixFromCivilUtcIn A f.year f.month f.day f.hour f.minute f.second
      = (dateToAbsDays A f.carry.year f.carry.month f.carry.day >>= fun days =>
          pure (unixFromAbsDays days f.carry.hour f.carry.minute f.carry.second)) := by
  unfold unixFromCivilUtcIn
  rw [hA.fit_bind (by simp only [IntType.holds_i64]; omega),
    norm_eq hA (by decide) (by omega) (by omega)]
  simp only [pure_bind]
  rw [hA.fit_bind (by simp only [IntType.holds_u32]; omega),
    norm_eq hA (by decide) (by omega) (by omega)]
  simp only [pure_bind]
  rw [norm_eq hA (by decide) (by omega) (by omega)]
  simp only [pure_bind]
  rw [norm_eq hA (by decide) (by omega) (by omega)]
  simp only [pure_bind, CivilFields.carry]
  congr 1
  funext days
  rw [hA.turn_bind, hA.turn_bind, hA.fit_bind (by simp only [IntType.holds_i64]; omega),
    hA.fit_bind (by simp only [IntType.holds_i64]; omega),
    hA.fit_bind (by simp only [IntType.holds_i64]; omega),
    hA.fit_bind (by simp only [IntType.holds_i64]; omega), hA.turn_bind, hA.turn_eq]
  rfl

/-- The first of a month lies in the range of the absolute count. -/
theorem dayNumber_firstOf_bounds (year : Int) {month : Nat} (hyear : 0 ≤ year ∧ year ≤ 2 ^ 30)
    (hmonth : 1 ≤ month ∧ month ≤ 12) :
    -2 ^ 45 ≤ (Date.firstOf year month hmonth).dayNumber
      ∧ (Date.firstOf year month hmonth).dayNumber ≤ 2 ^ 45 := by
  have hnumber := (Date.firstOf year month hmonth).dayNumber_mem_year
  have hlength : yearLength (Date.firstOf year month hmonth).year ≤ 366 := by
    unfold yearLength
    split <;> omega
  have hstart : yearStart (Date.firstOf year month hmonth).year = yearStart year := rfl
  rw [hstart] at hnumber
  unfold yearStart at hnumber
  omega

/-- On fields that name a day of their month or a later one, no step overflows
and the result is the instant that the calendar gives. -/
theorem unixFromCivilUtcIn_eq (hA : A.Lawful) (f : CivilFields)
    (hyear : 1 ≤ f.year ∧ f.year ≤ 2 ^ 29) (hmonth : 1 ≤ f.month ∧ f.month ≤ 12)
    (hday : 1 ≤ f.day ∧ f.day ≤ 2 ^ 40) (hhour : 0 ≤ f.hour ∧ f.hour ≤ 2 ^ 40)
    (hminute : 0 ≤ f.minute ∧ f.minute ≤ 2 ^ 40)
    (hsecond : 0 ≤ f.second ∧ f.second ≤ 2 ^ 40) :
    unixFromCivilUtcIn A f.year f.month f.day f.hour f.minute f.second = pure f.seconds := by
  rw [unixFromCivilUtcIn_carry hA f (by omega) (by omega) (by omega) (by omega) (by omega)
    (by omega)]
  have hcarryYear : f.carry.year = f.year := by
    simp only [CivilFields.carry]
    omega
  have hcarryMonth : f.carry.month = (f.carry.month.toNat : Int) := by
    have := f.carry_month_range
    omega
  have hcarryDay : 1 ≤ f.carry.day ∧ f.carry.day ≤ 2 ^ 42 := by
    simp only [CivilFields.carry]
    omega
  obtain ⟨centurydays, rest, hcentury, hrest, hsum, -, heq⟩ :=
    dateToAbsDays_eq hA f.carry.year f.carry.day (by omega) f.carry_month_range (by omega)
  have hbounds := dayNumber_firstOf_bounds f.carry.year (by omega) f.carry_month_range
  rw [hcarryMonth, heq, hA.fit_bind (by simp only [IntType.holds_i64]; omega),
    hA.fit_bind (by simp only [IntType.holds_i64]; omega),
    hA.fit_bind (by simp only [IntType.holds_u64]; omega),
    hA.fit_bind (by simp only [IntType.holds_u64]; omega)]
  have hdays : centurydays + (rest + f.carry.day - 1)
      = IntType.u64.wrap ((Date.firstOf f.carry.year f.carry.month.toNat
        f.carry_month_range).dayNumber + (f.carry.day - 1) + 106751991073400) := by
    rw [IntType.wrap_of_holds (by simp only [IntType.holds_u64]; omega)]
    omega
  rw [hdays, unixFromAbsDays_eq (by omega) (by simp only [CivilFields.carry]; omega)
    (by simp only [CivilFields.carry]; omega) (by simp only [CivilFields.carry]; omega)]
  rfl

end Exact

/-- Fields that may be out of range on either side. -/
structure BoundedFields (f : CivilFields) : Prop where
  year : 1 ≤ f.year ∧ f.year ≤ 2 ^ 29
  month : 0 ≤ f.month ∧ f.month < 2 ^ 32
  day : -2 ^ 40 ≤ f.day ∧ f.day ≤ 2 ^ 40
  hour : -2 ^ 40 ≤ f.hour ∧ f.hour ≤ 2 ^ 40
  minute : -2 ^ 40 ≤ f.minute ∧ f.minute ≤ 2 ^ 40
  second : -2 ^ 40 ≤ f.second ∧ f.second ≤ 2 ^ 40

/-- What is left to carry into the day count. -/
theorem BoundedFields.carry {f : CivilFields} (h : BoundedFields f) :
    (0 ≤ f.carry.year ∧ f.carry.year ≤ 2 ^ 30) ∧
      (f.carry.month.toNat < 3 → 1 ≤ f.carry.year) ∧
      f.carry.month = (f.carry.month.toNat : Int) ∧
      (-2 ^ 42 ≤ f.carry.day ∧ f.carry.day ≤ 2 ^ 42) := by
  obtain ⟨hyear, hmonth, hday, hhour, hminute, hsecond⟩ := h
  have hrange := f.carry_month_range
  simp only [CivilFields.carry] at hrange ⊢
  omega

/-- Days from the first of March that starts the century to the carried day. -/
def centuryDay (f : CivilFields) : Int :=
  (Date.firstOf f.carry.year f.carry.month.toNat f.carry_month_range).dayNumber
    + (f.carry.day - 1) - marchStart (100 * ((f.carry.year - marchJanFeb f.carry.month) / 100))

/-- The day count of carried fields, up to the sum that may wrap. -/
theorem dateToAbsDays_bounded {m : Type → Type} [Monad m] [LawfulMonad m] {A : Arith m}
    (hA : A.Lawful) {f : CivilFields} (h : BoundedFields f) :
    ∃ centurydays : Int, (0 ≤ centurydays ∧ centurydays ≤ 2 ^ 50) ∧
      centurydays + centuryDay f
        = (Date.firstOf f.carry.year f.carry.month.toNat f.carry_month_range).dayNumber
          + (f.carry.day - 1) + 106751991073400 ∧
      (-2 ^ 43 ≤ centuryDay f ∧ centuryDay f ≤ 2 ^ 43) ∧
      dateToAbsDays A f.carry.year f.carry.month f.carry.day = (do
        let days ← A.fit .u64 (centuryDay f)
        A.fit .u64 (centurydays + days)) := by
  obtain ⟨hyear, hearly, hmonth, hday⟩ := h.carry
  obtain ⟨centurydays, rest, hcentury, hrest, hsum, hstart, heq⟩ :=
    dateToAbsDays_eq hA f.carry.year f.carry.day hyear f.carry_month_range hearly
  rw [← hmonth] at hstart heq
  have hcenturyDay : rest + f.carry.day - 1 = centuryDay f := by
    unfold centuryDay
    omega
  refine ⟨centurydays, hcentury, by omega, by omega, ?_⟩
  rw [heq, hA.fit_bind (by simp only [IntType.holds_i64]; omega),
    hA.fit_bind (by simp only [IntType.holds_i64]; omega), hcenturyDay]

/-- As the machine computes, every field may be out of range: a day before its
month wraps the day count, and the wrapping cancels. -/
theorem unixFromCivilUtc_eq {f : CivilFields} (h : BoundedFields f) :
    unixFromCivilUtc f.year f.month f.day f.hour f.minute f.second = f.seconds := by
  obtain ⟨hyear, hearly, hmonth, hday⟩ := h.carry
  obtain ⟨centurydays, hcentury, hsum, hrest, heq⟩ := dateToAbsDays_bounded Arith.lawful_wrapping h
  have hbounds := dayNumber_firstOf_bounds f.carry.year hyear f.carry_month_range
  have hdays : IntType.u64.wrap (centurydays + IntType.u64.wrap (centuryDay f))
      = IntType.u64.wrap ((Date.firstOf f.carry.year f.carry.month.toNat
        f.carry_month_range).dayNumber + (f.carry.day - 1) + 106751991073400) := by
    simp only [IntType.wrap_u64]
    omega
  have hresult : dateToAbsDays .wrapping f.carry.year f.carry.month f.carry.day
      = (pure (IntType.u64.wrap ((Date.firstOf f.carry.year f.carry.month.toNat
        f.carry_month_range).dayNumber + (f.carry.day - 1) + 106751991073400)) : Id Int) := by
    rw [← hdays]
    exact heq
  obtain ⟨hyear', hmonth', hday', hhour, hminute, hsecond⟩ := h
  unfold unixFromCivilUtc
  rw [unixFromCivilUtcIn_carry Arith.lawful_wrapping f (by omega) (by omega) (by omega)
    (by omega) (by omega) (by omega), hresult]
  exact unixFromAbsDays_eq (by omega) (by simp only [CivilFields.carry]; omega)
    (by simp only [CivilFields.carry]; omega) (by simp only [CivilFields.carry]; omega)

/-- That day count is the only step that overflows, and it does on a day before
the first of March that starts its century. -/
theorem unixFromCivilUtcIn_checked {f : CivilFields} (h : BoundedFields f) :
    unixFromCivilUtcIn .checked f.year f.month f.day f.hour f.minute f.second
      = if 0 ≤ centuryDay f then some f.seconds else none := by
  obtain ⟨hyear, hearly, hmonth, hday⟩ := h.carry
  obtain ⟨centurydays, hcentury, hsum, hrest, heq⟩ := dateToAbsDays_bounded Arith.lawful_checked h
  have hbounds := dayNumber_firstOf_bounds f.carry.year hyear f.carry_month_range
  obtain ⟨hyear', hmonth', hday', hhour, hminute, hsecond⟩ := h
  rw [unixFromCivilUtcIn_carry Arith.lawful_checked f (by omega) (by omega) (by omega)
    (by omega) (by omega) (by omega), heq]
  split <;> rename_i hcenturyDay
  · have hdays : centurydays + centuryDay f
        = IntType.u64.wrap ((Date.firstOf f.carry.year f.carry.month.toNat
          f.carry_month_range).dayNumber + (f.carry.day - 1) + 106751991073400) := by
      rw [IntType.wrap_of_holds (by simp only [IntType.holds_u64]; omega), hsum]
    rw [Arith.lawful_checked.fit_bind (by simp only [IntType.holds_u64]; omega),
      Arith.lawful_checked.fit_bind (by simp only [IntType.holds_u64]; omega), hdays,
      unixFromAbsDays_eq (by omega) (by simp only [CivilFields.carry]; omega)
        (by simp only [CivilFields.carry]; omega) (by simp only [CivilFields.carry]; omega)]
    rfl
  · have hfails : Arith.checked.fit .u64 (centuryDay f) = none :=
      if_neg (by simp only [IntType.holds_u64]; omega)
    rw [hfails]
    rfl

/-! ## The calendar over the timestamp domain -/

/-- An instant of the timestamp domain shifted by a zone offset. -/
def InLocalDomain (t : Int) : Prop :=
  ∃ now offset, validV2Timestamp now = true ∧ (-2147483648 ≤ offset ∧ offset ≤ 2147483647)
    ∧ t = now + offset

theorem InLocalDomain.bounds {t : Int} (h : InLocalDomain t) :
    -2147483648 ≤ t ∧ t ≤ 255549784446 := by
  obtain ⟨now, offset, hnow, hoffset, rfl⟩ := h
  rw [validV2Timestamp_iff, v2MaxTimestampSeconds] at hnow
  omega

/-- The fields that the callers of `unix_from_civil_utc` pass, and the valid
civil times: the day and the clock may run past their end, not before their
start. -/
structure ForwardFields (f : CivilFields) : Prop where
  year : 1 ≤ f.year ∧ f.year ≤ 2 ^ 29
  month : 1 ≤ f.month ∧ f.month ≤ 12
  day : 1 ≤ f.day ∧ f.day ≤ 2 ^ 40
  hour : 0 ≤ f.hour ∧ f.hour ≤ 2 ^ 40
  minute : 0 ≤ f.minute ∧ f.minute ≤ 2 ^ 40
  second : 0 ≤ f.second ∧ f.second ≤ 2 ^ 40

theorem forwardFields_ofCivilTime {c : CivilTime}
    (h : 1 ≤ c.date.year ∧ c.date.year ≤ 2 ^ 29) : ForwardFields (CivilFields.ofCivilTime c) := by
  have hmonth := c.date.month_range
  have hday := c.date.day_range
  have hlength := monthLength_bounds c.date.year c.date.month
  have hhour := c.hour_range
  have hminute := c.minute_range
  have hsecond := c.second_range
  constructor <;> simp only [CivilFields.ofCivilTime] <;> omega

/-- A reading of `unix_from_civil_utc` on the fields of a civil time. -/
theorem unixFromCivilUtcIn_ofTime {m : Type → Type} [Monad m] [LawfulMonad m] {A : Arith m}
    (hA : A.Lawful) {c : CivilTime} (h : 1 ≤ c.date.year ∧ c.date.year ≤ 2 ^ 29) :
    unixFromCivilUtcIn A c.date.year c.date.month c.date.day c.hour c.minute c.second
      = pure c.seconds := by
  obtain ⟨hyear, hmonth, hday, hhour, hminute, hsecond⟩ := forwardFields_ofCivilTime h
  rw [← CivilFields.seconds_ofCivilTime]
  exact unixFromCivilUtcIn_eq hA _ hyear hmonth hday hhour hminute hsecond

/-- The year of an instant of the domain. -/
theorem year_ofSeconds_range {t : Int} (h : -62000000000 ≤ t ∧ t ≤ 2 ^ 50) :
    1 ≤ (CivilTime.ofSeconds t).date.year ∧ (CivilTime.ofSeconds t).date.year ≤ 2 ^ 29 := by
  have hnumber : (CivilTime.ofSeconds t).date.dayNumber = t / 86400 := dayNumber_dateOfDay _
  have hmem := (CivilTime.ofSeconds t).date.dayNumber_mem_year
  have hlength : yearLength (CivilTime.ofSeconds t).date.year ≤ 366 := by
    unfold yearLength
    split <;> omega
  rw [hnumber] at hmem
  generalize (CivilTime.ofSeconds t).date.year = year at hmem hlength ⊢
  unfold yearStart at hmem
  omega

/-- Over the whole domain the calendar is exact, both ways and on fields out of
range.  Besides the steps of the absolute-second count only the day count of a
day before its century wraps, which the fields of the callers never name. -/
theorem civil_exact :
    (∀ t : Int, InLocalDomain t →
      civilFromUnix t = Civil.ofTime (CivilTime.ofSeconds t)
        ∧ civilFromUnixIn .checked t = some (civilFromUnix t)
        ∧ unixFromCivilUtc (civilFromUnix t).year (civilFromUnix t).month (civilFromUnix t).day
            (civilFromUnix t).hour (civilFromUnix t).minute (civilFromUnix t).second = t)
      ∧ (∀ f : CivilFields, BoundedFields f →
        unixFromCivilUtc f.year f.month f.day f.hour f.minute f.second = f.seconds
          ∧ unixFromCivilUtcIn .checked f.year f.month f.day f.hour f.minute f.second
            = if 0 ≤ centuryDay f then some f.seconds else none)
      ∧ ∀ f : CivilFields, ForwardFields f →
        unixFromCivilUtcIn .checked f.year f.month f.day f.hour f.minute f.second
          = some f.seconds := by
  refine ⟨fun t ht => ?_, fun f hf => ?_, fun f hf => ?_⟩
  · have hbounds := ht.bounds
    have hwrap : civilFromUnix t = Civil.ofTime (CivilTime.ofSeconds t) :=
      civilFromUnixIn_eq Arith.lawful_wrapping (by omega)
    refine ⟨hwrap, ?_, ?_⟩
    · rw [hwrap]
      exact civilFromUnixIn_eq Arith.lawful_checked (by omega)
    · rw [hwrap]
      have hinverse := unixFromCivilUtcIn_ofTime Arith.lawful_wrapping
        (year_ofSeconds_range (t := t) (by omega))
      rw [CivilTime.seconds_ofSeconds] at hinverse
      exact hinverse
  · exact ⟨unixFromCivilUtc_eq hf, unixFromCivilUtcIn_checked hf⟩
  · exact unixFromCivilUtcIn_eq Arith.lawful_checked f hf.year hf.month hf.day hf.hour hf.minute
      hf.second

/-- The last instant of the domain, and a day before its month. -/
theorem civil_exact_lastInstant :
    civilFromUnix 253402300799 = Civil.ofTime (CivilTime.ofSeconds 253402300799)
      ∧ unixFromCivilUtc 2000 0 (-30) (-5) 1440 (-7)
        = (CivilFields.mk 2000 0 (-30) (-5) 1440 (-7)).seconds
      ∧ unixFromCivilUtcIn .checked 9999 12 31 0 1440 0
        = some (CivilFields.mk 9999 12 31 0 1440 0).seconds :=
  ⟨(civil_exact.1 _ ⟨253402300799, 0, by decide, by decide, rfl⟩).1,
    (civil_exact.2.1 ⟨2000, 0, -30, -5, 1440, -7⟩
      ⟨by decide, by decide, by decide, by decide, by decide, by decide⟩).1,
    civil_exact.2.2 ⟨9999, 12, 31, 0, 1440, 0⟩
      ⟨by decide, by decide, by decide, by decide, by decide, by decide⟩⟩

/-- At the last instant of the domain the sum into the absolute seconds
overflows, and so does the day count of the day before 1 March 2000. -/
theorem civilFromUnixIn_overflows :
    validV2Timestamp 253402300799 = true ∧ InLocalDomain 253402300799
      ∧ civilFromUnixIn .strict 253402300799 = none
      ∧ unixFromCivilUtcIn .checked 2000 3 0 0 0 0 = none :=
  ⟨by decide, ⟨253402300799, 0, by decide, by decide, rfl⟩, by decide, by decide⟩

end RatifyProtocol.V2
