import RatifyProtocol.V2.CivilExact
import RatifyProtocol.V2.Footer
set_option autoImplicit false

/-!
# V2: the days and the periods of a footer

What a rule of a POSIX TZ footer says in terms of the calendar, and that
`tzrule_time` computes it.  From the two rules of a year follows the offset of
every instant of that year, and how long it lasts.
-/

namespace RatifyProtocol.V2

open Foundation

/-! ## The day a rule names -/

/-- The day that a rule names in a year.  `Jn` counts the days of a year without
29 February, for which 2001 stands; `n` counts from the first of January;
`Mm.w.d` is the `w`-th day `d` of the week in month `m`, the last one when `w` is
five. -/
def Rule.NamesDay (r : Rule) (year : Int) (d : Date) : Prop :=
  match r.kind with
  | .julian => d.year = year ∧ d.day ≤ monthLength 2001 d.month
      ∧ ((daysBeforeMonth 2001 d.month + d.day : Nat) : Int) = r.day
  | .doy => d.dayNumber = yearStart year + r.day
  | .monthWeekDay => d.year = year ∧ (d.month : Int) = r.mon ∧ (d.weekday : Int) = r.day
      ∧ if r.week = 5 then monthLength d.year d.month < d.day + 7
        else ((d.day - 1) / 7 + 1 : Int) = r.week

/-- The ranges that the footer reader checks. -/
structure Rule.Valid (r : Rule) : Prop where
  julian : r.kind = .julian → 1 ≤ r.day ∧ r.day ≤ 365
  doy : r.kind = .doy → 0 ≤ r.day ∧ r.day ≤ 365
  monthWeekDay : r.kind = .monthWeekDay →
    (1 ≤ r.mon ∧ r.mon ≤ 12) ∧ (1 ≤ r.week ∧ r.week ≤ 5) ∧ (0 ≤ r.day ∧ r.day ≤ 6)
  time : -608399 ≤ r.time ∧ r.time ≤ 608399

/-- A rule names at most one day of a year. -/
theorem Rule.NamesDay.unique {r : Rule} {year : Int} {d e : Date} (hd : r.NamesDay year d)
    (he : r.NamesDay year e) : d = e := by
  cases hkind : r.kind with
  | julian =>
    simp only [Rule.NamesDay, hkind] at hd he
    -- The two dates agree in the year that stands for the common years.
    obtain ⟨hyear, hlength, hcount⟩ := hd
    obtain ⟨hyear', hlength', hcount'⟩ := he
    have hsame : (⟨2001, d.month, d.day, d.month_range, d.day_range.1, hlength⟩ : Date)
        = ⟨2001, e.month, e.day, e.month_range, e.day_range.1, hlength'⟩ := by
      apply Date.dayNumber_injective
      simp only [Date.dayNumber]
      omega
    simp only [Date.mk.injEq, true_and] at hsame
    exact Date.ext (hyear.trans hyear'.symm) hsame.1 hsame.2
  | doy =>
    simp only [Rule.NamesDay, hkind] at hd he
    exact Date.dayNumber_injective (hd.trans he.symm)
  | monthWeekDay =>
    simp only [Rule.NamesDay, hkind] at hd he
    obtain ⟨hyear, hmonth, hweekday, hweek⟩ := hd
    obtain ⟨hyear', hmonth', hweekday', hweek'⟩ := he
    obtain ⟨y, m, a, hm, ha⟩ := d
    obtain ⟨y', m', b, hm', hb⟩ := e
    simp only at hyear hmonth hweek hyear' hmonth' hweek'
    obtain rfl : y = y' := hyear.trans hyear'.symm
    obtain rfl : m = m' := by omega
    simp only [Date.weekday, Date.dayNumber] at hweekday hweekday'
    have hlength := monthLength_bounds y m
    simp only [Date.mk.injEq, true_and]
    split at hweek
    · rename_i hfive
      rw [if_pos hfive] at hweek'
      omega
    · rename_i hfive
      rw [if_neg hfive] at hweek'
      omega

/-! ## The calendar functions of the evaluator -/

theorem isLeap_eq (year : Int) : isLeap year = leapYear year := by
  have htmod : year.tmod 25 = 0 ↔ year % 25 = 0 := by
    rw [← Int.dvd_iff_tmod_eq_zero, Int.dvd_iff_emod_eq_zero]
  unfold isLeap
  rw [Bool.eq_iff_iff, leapYear_iff]
  split
  · rename_i h
    rw [ne_eq, htmod] at h
    simp only [beq_iff_eq]
    omega
  · rename_i h
    rw [ne_eq, htmod, not_not] at h
    simp only [beq_iff_eq]
    omega

theorem daysIn_eq (year : Int) {month : Nat} (h : 1 ≤ month ∧ month ≤ 12) :
    daysIn month year = monthLength year month := by
  obtain ⟨h₁, h₂⟩ := h
  unfold daysIn monthLength
  rw [isLeap_eq]
  cases leapYear year <;> interval_cases month <;> decide

theorem daysBefore_eq (year : Int) {month : Nat} (h : 1 ≤ month ∧ month ≤ 12) :
    daysBefore month + (if leapYear year = true ∧ 2 < month then 1 else 0)
      = daysBeforeMonth year month := by
  rw [daysBeforeMonth_eq year h]
  obtain ⟨h₁, h₂⟩ := h
  unfold daysBefore
  cases leapYear year <;> interval_cases month <;> decide

/-- A truncated remainder by seven, made positive. -/
theorem tmod_seven (n : Int) :
    (if n.tmod 7 < 0 then n.tmod 7 + 7 else n.tmod 7) = n % 7 := by
  have hsplit := Int.tmod_add_mul_tdiv n 7
  have hbound : -7 < n.tmod 7 ∧ n.tmod 7 < 7 :=
    ⟨Int.lt_tmod_of_pos n (by decide), Int.tmod_lt_of_pos n (by decide)⟩
  split <;> omega

/-- Values of the size of a year do not wrap. -/
theorem wrap_small {n : Int} (h : -2 ^ 50 ≤ n ∧ n ≤ 2 ^ 50) : IntType.i64.wrap n = n := by
  apply IntType.wrap_of_holds
  simp only [IntType.holds_i64]
  omega

/-- Zeller's congruence gives the weekday of the first of a month. -/
theorem firstWeekday_eq {year : Int} (hyear : 1 ≤ year ∧ year ≤ 2 ^ 29) {month : Nat}
    (h : 1 ≤ month ∧ month ≤ 12) :
    firstWeekday year month = (Date.firstOf year month h).weekday := by
  have hnumber := dayNumber_march (Date.firstOf year month h)
  have hjf : 0 ≤ marchJanFeb month ∧ marchJanFeb month ≤ 1 := by
    unfold marchJanFeb
    split <;> omega
  have hyy0 : (if (month : Int) ≤ 2 then IntType.i64.wrap (year - 1) else year)
      = year - marchJanFeb month := by
    unfold marchJanFeb
    split
    · rw [wrap_small (by omega), if_pos (by omega)]
    · rw [if_neg (by omega), sub_zero]
  have hm1 : ∃ m1 : Int, (1 ≤ m1 ∧ m1 ≤ 12)
      ∧ ((month : Int) + 9).tmod 12 + 1 = m1 ∧ m1 + 2 = month + 12 * marchJanFeb month := by
    refine ⟨month + 12 * marchJanFeb month - 2, ?_, ?_, by omega⟩
    · unfold marchJanFeb
      split <;> omega
    · rw [Int.tmod_eq_emod_of_nonneg (by omega)]
      unfold marchJanFeb
      split <;> omega
  obtain ⟨m1, hm1range, hm1, hamonth⟩ := hm1
  obtain ⟨y, hy⟩ : ∃ y, y = year - marchJanFeb month := ⟨_, rfl⟩
  simp only [Date.firstOf] at hnumber
  rw [← hamonth, ← hy] at hnumber
  unfold firstWeekday
  simp only [hyy0, hm1, ← hy]
  rw [Int.tdiv_eq_ediv_of_nonneg (a := y) (by omega), Int.tmod_eq_emod_of_nonneg (a := y) (by omega),
    Int.tdiv_eq_ediv_of_nonneg (a := y % 100) (by omega),
    Int.tdiv_eq_ediv_of_nonneg (a := y / 100) (by omega),
    Int.tdiv_eq_ediv_of_nonneg (a := 26 * m1 - 2) (by omega)]
  rw [wrap_small (n := (26 * m1 - 2) / 10 + 1 + y % 100) (by omega)]
  rw [wrap_small (n := (26 * m1 - 2) / 10 + 1 + y % 100 + y % 100 / 4) (by omega)]
  rw [wrap_small (n := (26 * m1 - 2) / 10 + 1 + y % 100 + y % 100 / 4 + y / 100 / 4) (by omega)]
  rw [wrap_small (n := y / 100 * 2) (by omega)]
  rw [wrap_small (n := (26 * m1 - 2) / 10 + 1 + y % 100 + y % 100 / 4 + y / 100 / 4
    - y / 100 * 2) (by omega), tmod_seven]
  simp only [Date.weekday, Date.firstOf, hnumber, marchStart]
  -- Both sides agree modulo seven in each of the twelve months.
  have h₄ : y / 4 = 25 * (y / 100) + y % 100 / 4 := by omega
  have h₄₀₀ : y / 400 = y / 100 / 4 := by omega
  rw [h₄, h₄₀₀]
  obtain ⟨hlow, hhigh⟩ := hm1range
  interval_cases m1 <;> omega

/-- The weeks added to the first weekday of a month stop at the last one. -/
theorem addWeeks_eq (length first : Int) (n k : Nat) (hk : first + 7 * k < length) :
    ∃ j : Nat, k ≤ j ∧ j ≤ k + n ∧ addWeeks length n (first + 7 * k) = first + 7 * j
      ∧ first + 7 * j < length ∧ (j = k + n ∨ length ≤ first + 7 * j + 7) := by
  induction n generalizing k with
  | zero => exact ⟨k, le_refl k, le_refl k, rfl, hk, Or.inl rfl⟩
  | succ n ih =>
    unfold addWeeks
    split
    · rename_i hlast
      exact ⟨k, le_refl k, by omega, rfl, hk, Or.inr (by omega)⟩
    · rename_i hmore
      have hstep : first + 7 * (k : Int) + 7 = first + 7 * ((k + 1 : Nat) : Int) := by
        push_cast
        omega
      rw [hstep]
      obtain ⟨j, hkj, hjn, heq, hlt, hend⟩ := ih (k + 1) (by omega)
      exact ⟨j, by omega, by omega, heq, hlt, by omega⟩

/-- Seconds from the start of a UTC year to a rule, given the day it names: its
time of day is local, under the offset in effect before it. -/
def Rule.seconds (r : Rule) (year off : Int) (d : Date) : Int :=
  (d.dayNumber - yearStart year) * 86400 + r.time - off

/-- The `n`-th day of a year without leap day. -/
theorem exists_commonDay {n : Int} (h : 1 ≤ n ∧ n ≤ 365) :
    ∃ d : Date, d.year = 2001 ∧ ((daysBeforeMonth 2001 d.month + d.day : Nat) : Int) = n := by
  have hyear : (dateOfDay (yearStart 2001 + (n - 1))).year = 2001 := by
    apply Date.year_eq_of_mem
    rw [dayNumber_dateOfDay]
    have hlength : yearLength 2001 = 365 := by decide
    rw [hlength]
    omega
  refine ⟨dateOfDay (yearStart 2001 + (n - 1)), hyear, ?_⟩
  have hnumber := dayNumber_dateOfDay (yearStart 2001 + (n - 1))
  unfold Date.dayNumber at hnumber
  rw [hyear] at hnumber
  omega

/-- Every month is at least as long as in a year without leap day. -/
theorem monthLength_common_le (year : Int) (month : Nat) :
    monthLength 2001 month ≤ monthLength year month := by
  unfold monthLength
  have hcommon : leapYear 2001 = false := by decide
  rw [hcommon]
  split
  · rw [if_neg (by decide)]
    split <;> omega
  · exact le_refl _

/-- `tzrule_time` is the time of the day that the rule names. -/
theorem tzruleTime_eq {r : Rule} (hr : r.Valid) (year off : Int)
    (hyear : 1 ≤ year ∧ year ≤ 2 ^ 29) (hoff : -2 ^ 33 ≤ off ∧ off ≤ 2 ^ 33) :
    ∃ d, r.NamesDay year d ∧ tzruleTime year r off = r.seconds year off d := by
  have htime := hr.time
  cases hkind : r.kind with
  | julian =>
    have hday := hr.julian hkind
    obtain ⟨c, hc, hcount⟩ := exists_commonDay hday
    have hcday := c.day_range
    rw [hc] at hcday
    have hbefore := daysBefore_eq year c.month_range
    have hbeforeCommon := daysBefore_eq 2001 c.month_range
    have hcommon : leapYear 2001 = false := by decide
    have hsixty : r.day ≥ 60 ↔ 2 < c.month := by
      have hfeb : ∀ m : Nat, 1 ≤ m ∧ m ≤ 12 → m ≤ 2 →
          daysBeforeMonth 2001 m + monthLength 2001 m ≤ 59 := by
        intro m hm h
        obtain ⟨h₁, -⟩ := hm
        interval_cases m <;> decide
      have hmar : ∀ m : Nat, 1 ≤ m ∧ m ≤ 12 → 2 < m → 59 ≤ daysBeforeMonth 2001 m := by
        intro m hm h
        obtain ⟨-, h₂⟩ := hm
        interval_cases m <;> decide
      constructor
      · intro h
        by_contra hle
        have := hfeb c.month c.month_range (by omega)
        omega
      · intro h
        have := hmar c.month c.month_range h
        omega
    refine ⟨⟨year, c.month, c.day, c.month_range, hcday.1,
      hcday.2.trans (monthLength_common_le year c.month)⟩, ?_, ?_⟩
    · simp only [Rule.NamesDay, hkind]
      exact ⟨trivial, hcday.2, hcount⟩
    · simp only [hcommon, Bool.false_eq_true, false_and, if_false, add_zero] at hbeforeCommon
      simp only [tzruleTime, hkind, isLeap_eq, Rule.seconds, Date.dayNumber, secondsPerDay,
        Bool.and_eq_true, decide_eq_true_eq, hsixty]
      split at hbefore <;> rename_i hleap
      · rw [if_pos hleap]
        simp (disch := omega) only [wrap_small]
        omega
      · rw [if_neg hleap]
        simp (disch := omega) only [wrap_small]
        omega
  | doy =>
    have hday := hr.doy hkind
    refine ⟨dateOfDay (yearStart year + r.day), ?_, ?_⟩
    · simp only [Rule.NamesDay, hkind, dayNumber_dateOfDay]
    · simp only [tzruleTime, hkind, Rule.seconds, dayNumber_dateOfDay, secondsPerDay]
      simp (disch := omega) only [wrap_small]
      omega
  | monthWeekDay =>
    obtain ⟨hmon, hweek, hday⟩ := hr.monthWeekDay hkind
    obtain ⟨month, hmonth⟩ : ∃ month : Nat, r.mon = month := ⟨r.mon.toNat, by omega⟩
    have hm : 1 ≤ month ∧ month ≤ 12 := by omega
    have hlength := monthLength_bounds year month
    have hbefore := daysBefore_eq year hm
    have hbound := (Date.firstOf year month hm).yearDay_lt
    simp only [Date.yearDay, Date.firstOf, Nat.sub_self, add_zero] at hbound
    have hdow : ((Date.firstOf year month hm).weekday : Int) ≤ 6 := by
      unfold Date.weekday
      omega
    -- The first such weekday of the month, counted from zero.
    obtain ⟨first, hfirst, hfirstRange, hfirstMod⟩ : ∃ first : Int,
        (if r.day - firstWeekday year month < 0 then r.day - firstWeekday year month + 7
          else r.day - firstWeekday year month) = first ∧ (0 ≤ first ∧ first ≤ 6)
        ∧ ((Date.firstOf year month hm).weekday + first) % 7 = r.day := by
      rw [firstWeekday_eq hyear hm]
      exact ⟨_, rfl, by split <;> omega, by split <;> omega⟩
    obtain ⟨j, -, hjn, hadd, hlt, hend⟩ :=
      addWeeks_eq (monthLength year month) first (r.week - 1).toNat 0 (by omega)
    have hj : first + 7 * ((0 : Nat) : Int) = first := by omega
    rw [hj] at hadd
    obtain ⟨day, hdayEq⟩ : ∃ day : Nat, (day : Int) = first + 7 * j + 1 :=
      ⟨(first + 7 * j + 1).toNat, by omega⟩
    refine ⟨⟨year, month, day, hm, by omega, by omega⟩, ?_, ?_⟩
    · simp only [Rule.NamesDay, hkind]
      refine ⟨trivial, hmonth.symm, ?_, ?_⟩
      · unfold Date.weekday at hfirstMod ⊢
        simp only [Date.dayNumber, Date.firstOf] at hfirstMod ⊢
        omega
      · split
        · omega
        · omega
    · simp only [tzruleTime, hkind, isLeap_eq, Rule.seconds, Date.dayNumber, secondsPerDay,
        hmonth, hfirst, daysIn_eq year hm, hadd, Bool.and_eq_true, decide_eq_true_eq,
        gt_iff_lt, Nat.ofNat_lt_cast]
      split at hbefore <;> rename_i hleap
      · rw [if_pos hleap]
        simp (disch := omega) only [wrap_small]
        omega
      · rw [if_neg hleap]
        simp (disch := omega) only [wrap_small]
        omega

/-! ## The UTC year of an instant -/

/-- The UTC year that an instant lies in. -/
def utcYear (t : Int) : Int := (dateOfDay (t / 86400)).year

/-- Seconds from the epoch to the start of a UTC year. -/
def yearSeconds (year : Int) : Int := yearStart year * 86400

theorem yearSeconds_succ (year : Int) :
    yearSeconds (year + 1) = yearSeconds year + yearLength year * 86400 := by
  unfold yearSeconds
  rw [yearStart_succ]
  omega

theorem yearLength_cases (year : Int) : yearLength year = 365 ∨ yearLength year = 366 := by
  unfold yearLength
  split
  · exact Or.inr rfl
  · exact Or.inl rfl

theorem utcYear_mem (t : Int) :
    yearSeconds (utcYear t) ≤ t ∧ t < yearSeconds (utcYear t) + yearLength (utcYear t) * 86400 := by
  have hmem := (dateOfDay (t / 86400)).dayNumber_mem_year
  rw [dayNumber_dateOfDay] at hmem
  unfold yearSeconds utcYear
  omega

theorem utcYear_eq {t year : Int}
    (h : yearSeconds year ≤ t ∧ t < yearSeconds year + yearLength year * 86400) :
    utcYear t = year := by
  apply Date.year_eq_of_mem
  rw [dayNumber_dateOfDay]
  unfold yearSeconds at h
  omega

/-- The years of the timestamp domain. -/
theorem utcYear_range {t : Int} (h : 0 ≤ t ∧ t ≤ 253402300799) :
    1970 ≤ utcYear t ∧ utcYear t ≤ 9999 := by
  have hmem := utcYear_mem t
  unfold yearSeconds at hmem
  have hfirst : yearStart 1970 = 0 := by decide
  have hlast : yearStart 9999 = 2932532 ∧ yearLength 9999 = 365 := by decide
  constructor
  · by_contra hlt
    have hgap := yearStart_mono (not_le.mp hlt)
    omega
  · by_contra hgt
    have hgap := yearStart_mono (not_le.mp hgt)
    omega

/-- The year and the second of the year that `tzset` computes. -/
theorem yearOf_eq {t : Int} (h : 0 ≤ t ∧ t ≤ 253402300799) :
    yearOf t = (utcYear t, t - yearSeconds (utcYear t)) := by
  have habs : IntType.u64.wrap (IntType.i64.wrap (t + unixToAbsolute)) / secondsPerDay
      = t / 86400 + 106751991073400 := by
    rw [wrap_absolute (by omega)]
    unfold secondsPerDay
    omega
  have hsplit := absDaysYearYday_eq Arith.lawful_wrapping (n := t / 86400) (by omega)
  have hnumber := (dateOfDay (t / 86400)).dayNumber_eq_yearDay
  rw [dayNumber_dateOfDay] at hnumber
  have hlt := (dateOfDay (t / 86400)).yearDay_lt
  have hpair : absDaysYearYday Arith.wrapping (t / 86400 + 106751991073400)
      = ((dateOfDay (t / 86400)).year, ((dateOfDay (t / 86400)).yearDay + 1 : Int)) := hsplit
  have hrem : t.tmod secondsPerDay = t % 86400 := Int.tmod_eq_emod_of_nonneg h.1
  unfold yearOf
  simp only [habs, hpair, hrem]
  simp only [secondsPerDay, utcYear, yearSeconds]
  simp (disch := omega) only [wrap_small]
  congr 1
  omega

/-! ## The periods of a year -/

/-- Daylight saving time is in effect at second `y` of a year whose rules take
effect at seconds `s` and `e`: between them, or outside where it spans the end of
the year. -/
def dstInEffect (s e y : Int) : Prop := if s ≤ e then s ≤ y ∧ y < e else y < e ∨ s ≤ y

instance (s e y : Int) : Decidable (dstInEffect s e y) := by
  unfold dstInEffect
  split <;> infer_instance

/-- The end of the period around second `y`, as `tzset` reports it. -/
def periodEnd (s e y : Int) : Int :=
  if y < Min.min s e then Min.min s e
  else if y < Max.max s e then Max.max s e
  else 365 * 86400

theorem dstInEffect_periodEnd {s e y z : Int} (hyz : y ≤ z) (hz : z < periodEnd s e y) :
    dstInEffect s e z ↔ dstInEffect s e y := by
  unfold periodEnd at hz
  unfold dstInEffect
  split <;> split at hz <;> (try split at hz) <;> omega

/-- After both rules of a year nothing changes until it ends. -/
theorem dstInEffect_of_periodEnd_le {s e y z : Int} (h : periodEnd s e y ≤ y) (hyz : y ≤ z) :
    dstInEffect s e z ↔ dstInEffect s e y := by
  unfold periodEnd at h
  unfold dstInEffect
  split <;> split at h <;> (try split at h) <;> omega

namespace Footer

/-- What the footer reader guarantees. -/
def Valid : Footer → Prop
  | standard _ offset => -608399 ≤ offset ∧ offset ≤ 608399
  | seasonal _ stdOffset _ dstOffset startRule endRule =>
    (-608399 ≤ stdOffset ∧ stdOffset ≤ 608399) ∧ (-611999 ≤ dstOffset ∧ dstOffset ≤ 611999)
      ∧ startRule.Valid ∧ endRule.Valid

/-- Both rules of every year of the timestamp domain take effect within that UTC
year. -/
def WithinYear : Footer → Prop
  | standard _ _ => True
  | seasonal _ stdOffset _ dstOffset startRule endRule =>
    ∀ year : Int, 1970 ≤ year → year ≤ 9999 → ∀ d : Date,
      (startRule.NamesDay year d → 0 ≤ startRule.seconds year stdOffset d
        ∧ startRule.seconds year stdOffset d < yearLength year * 86400)
      ∧ (endRule.NamesDay year d → 0 ≤ endRule.seconds year dstOffset d
        ∧ endRule.seconds year dstOffset d < yearLength year * 86400)

/-- The offset that the footer defines at an instant: the rules of its UTC year
name two days, and daylight saving time is in effect from the one to the other. -/
def OffsetAt (footer : Footer) (t offset : Int) : Prop :=
  match footer with
  | standard _ o => offset = o
  | seasonal _ stdOffset _ dstOffset startRule endRule =>
    ∃ ds de : Date, startRule.NamesDay (utcYear t) ds ∧ endRule.NamesDay (utcYear t) de
      ∧ offset = if dstInEffect (startRule.seconds (utcYear t) stdOffset ds)
            (endRule.seconds (utcYear t) dstOffset de) (t - yearSeconds (utcYear t))
          then dstOffset else stdOffset

/-- The footer defines one offset. -/
theorem OffsetAt.unique {footer : Footer} {t a b : Int} (ha : footer.OffsetAt t a)
    (hb : footer.OffsetAt t b) : a = b := by
  cases footer with
  | standard name o => exact Eq.trans ha (Eq.symm hb)
  | seasonal stdName stdOffset dstName dstOffset startRule endRule =>
    obtain ⟨ds, de, hds, hde, rfl⟩ := ha
    obtain ⟨ds', de', hds', hde', rfl⟩ := hb
    rw [hds.unique hds', hde.unique hde']

end Footer

/-- A seasonal lookup in terms of the seconds of the two rules. -/
theorem seasonal_lookup (stdName dstName : Bytes) (lastTxSec : Int)
    {stdOffset dstOffset t s e : Int} {startRule endRule : Rule} (ht : 0 ≤ t ∧ t ≤ 253402300799)
    (hs : tzruleTime (utcYear t) startRule stdOffset = s)
    (he : tzruleTime (utcYear t) endRule dstOffset = e)
    (hsRange : 0 ≤ s ∧ s < yearLength (utcYear t) * 86400)
    (heRange : 0 ≤ e ∧ e < yearLength (utcYear t) * 86400) :
    ((Footer.seasonal stdName stdOffset dstName dstOffset startRule endRule).lookup lastTxSec
        t).offset
        = (if dstInEffect s e (t - yearSeconds (utcYear t)) then dstOffset else stdOffset)
      ∧ ((Footer.seasonal stdName stdOffset dstName dstOffset startRule endRule).lookup lastTxSec
        t).stop = yearSeconds (utcYear t) + periodEnd s e (t - yearSeconds (utcYear t)) := by
  have hmem := utcYear_mem t
  have hlength := yearLength_cases (utcYear t)
  have hstart : IntType.i64.wrap (t - (t - yearSeconds (utcYear t))) = yearSeconds (utcYear t) := by
    rw [wrap_small (by omega)]
    omega
  simp only [Footer.lookup, yearOf_eq ht, hs, he, hstart, secondsPerDay]
  generalize hy : t - yearSeconds (utcYear t) = y
  generalize yearSeconds (utcYear t) = ystart at hy hmem
  by_cases hflip : e < s
  · simp only [if_pos hflip, dstInEffect, periodEnd, if_neg (not_le.mpr hflip),
      min_eq_right hflip.le, max_eq_left hflip.le]
    split
    · rename_i hlow
      dsimp only
      rw [if_pos (Or.inl hlow), wrap_small (by omega)]
      exact ⟨rfl, by omega⟩
    · rename_i hlow
      split
      · rename_i hhigh
        dsimp only
        rw [if_pos (Or.inr hhigh), wrap_small (by omega), if_neg (not_lt.mpr hhigh)]
        exact ⟨rfl, rfl⟩
      · rename_i hhigh
        dsimp only
        rw [if_neg (by omega), if_pos (not_le.mp hhigh), wrap_small (by omega)]
        exact ⟨rfl, by omega⟩
  · have hle : s ≤ e := not_lt.mp hflip
    simp only [if_neg hflip, dstInEffect, periodEnd, if_pos hle, min_eq_left hle, max_eq_right hle]
    split
    · rename_i hlow
      dsimp only
      rw [if_neg (by omega), wrap_small (by omega)]
      exact ⟨rfl, by omega⟩
    · rename_i hlow
      split
      · rename_i hhigh
        dsimp only
        rw [if_neg (by omega), wrap_small (by omega), if_neg (not_lt.mpr hhigh)]
        exact ⟨rfl, rfl⟩
      · rename_i hhigh
        dsimp only
        rw [if_pos (by omega), if_pos (not_le.mp hhigh), wrap_small (by omega)]
        exact ⟨rfl, by omega⟩

namespace Footer

/-- The seconds of the two rules of the year of an instant. -/
theorem exists_seasonal {stdName dstName : Bytes} {stdOffset dstOffset : Int}
    {startRule endRule : Rule}
    (hvalid : (seasonal stdName stdOffset dstName dstOffset startRule endRule).Valid)
    (hwithin : (seasonal stdName stdOffset dstName dstOffset startRule endRule).WithinYear)
    {year : Int} (hyear : 1970 ≤ year ∧ year ≤ 9999) :
    ∃ ds de : Date, startRule.NamesDay year ds ∧ endRule.NamesDay year de
      ∧ tzruleTime year startRule stdOffset = startRule.seconds year stdOffset ds
      ∧ tzruleTime year endRule dstOffset = endRule.seconds year dstOffset de
      ∧ (0 ≤ startRule.seconds year stdOffset ds
        ∧ startRule.seconds year stdOffset ds < yearLength year * 86400)
      ∧ (0 ≤ endRule.seconds year dstOffset de
        ∧ endRule.seconds year dstOffset de < yearLength year * 86400) := by
  obtain ⟨hstd, hdst, hstart, hend⟩ := hvalid
  obtain ⟨ds, hds, hs⟩ := tzruleTime_eq hstart year stdOffset (by omega)
    (by omega)
  obtain ⟨de, hde, he⟩ := tzruleTime_eq hend year dstOffset (by omega)
    (by omega)
  exact ⟨ds, de, hds, hde, hs, he, (hwithin year hyear.1 hyear.2 ds).1 hds,
    (hwithin year hyear.1 hyear.2 de).2 hde⟩

variable {footer : Footer} {t : Int}

/-- A lookup reports the offset that the footer defines. -/
theorem offsetAt_lookup (hvalid : footer.Valid) (hwithin : footer.WithinYear)
    (ht : 0 ≤ t ∧ t ≤ 253402300799) (lastTxSec : Int) :
    footer.OffsetAt t (footer.lookup lastTxSec t).offset := by
  cases footer with
  | standard name offset => exact rfl
  | seasonal stdName stdOffset dstName dstOffset startRule endRule =>
    obtain ⟨ds, de, hds, hde, hs, he, hsRange, heRange⟩ :=
      exists_seasonal hvalid hwithin (utcYear_range ht)
    exact ⟨ds, de, hds, hde, (seasonal_lookup _ _ _ ht hs he hsRange heRange).1⟩

/-- Up to the end that it reports, a lookup answers for every instant. -/
theorem lookup_until_stop (hvalid : footer.Valid) (hwithin : footer.WithinYear)
    (ht : 0 ≤ t ∧ t ≤ 253402300799) (lastTxSec : Int) {u : Int} (htu : t ≤ u)
    (hu : u < (footer.lookup lastTxSec t).stop) :
    (footer.lookup lastTxSec u).offset = (footer.lookup lastTxSec t).offset := by
  cases footer with
  | standard name offset => rfl
  | seasonal stdName stdOffset dstName dstOffset startRule endRule =>
    obtain ⟨ds, de, hds, hde, hs, he, hsRange, heRange⟩ :=
      exists_seasonal hvalid hwithin (utcYear_range ht)
    obtain ⟨hoffset, hstop⟩ := seasonal_lookup stdName dstName lastTxSec ht hs he hsRange
      heRange
    rw [hstop] at hu
    have hmem := utcYear_mem t
    have hlength := yearLength_cases (utcYear t)
    -- No period ends after its year.
    have hend : periodEnd (startRule.seconds (utcYear t) stdOffset ds)
        (endRule.seconds (utcYear t) dstOffset de) (t - yearSeconds (utcYear t))
        ≤ yearLength (utcYear t) * 86400 := by
      unfold periodEnd
      split
      · omega
      · split <;> omega
    have hyear : utcYear u = utcYear t := utcYear_eq (by omega)
    have hlast : yearSeconds (utcYear t) + yearLength (utcYear t) * 86400 ≤ 253402300800 := by
      rw [← yearSeconds_succ]
      have hrange := utcYear_range ht
      have hfinal : yearSeconds 10000 = 253402300800 := by decide
      rw [← hfinal]
      unfold yearSeconds
      obtain heq | hlt := eq_or_lt_of_le hrange.2
      · rw [heq]
        decide
      · have hgap := yearStart_mono (show utcYear t + 1 < 10000 by omega)
        omega
    rw [← hyear] at hs he hsRange heRange
    have hlater := seasonal_lookup stdName dstName lastTxSec (t := u) (by omega) hs he
      hsRange heRange
    have hsame := dstInEffect_periodEnd (z := u - yearSeconds (utcYear t))
      (s := startRule.seconds (utcYear t) stdOffset ds)
      (e := endRule.seconds (utcYear t) dstOffset de) (y := t - yearSeconds (utcYear t))
      (by omega) (by omega)
    rw [hlater.1, hoffset, hyear]
    simp only [hsame]

/-- A lookup that reports an end it has reached answers for the rest of the year. -/
theorem lookup_until_year (hvalid : footer.Valid) (hwithin : footer.WithinYear)
    (ht : 0 ≤ t ∧ t ≤ 253402300799) (lastTxSec : Int)
    (hstop : (footer.lookup lastTxSec t).stop ≤ t) {u : Int} (htu : t ≤ u)
    (hu : u < yearSeconds (utcYear t + 1)) (hlast : u ≤ 253402300799) :
    (footer.lookup lastTxSec u).offset = (footer.lookup lastTxSec t).offset := by
  cases footer with
  | standard name offset => rfl
  | seasonal stdName stdOffset dstName dstOffset startRule endRule =>
    obtain ⟨ds, de, hds, hde, hs, he, hsRange, heRange⟩ :=
      exists_seasonal hvalid hwithin (utcYear_range ht)
    obtain ⟨hoffset, hend⟩ := seasonal_lookup stdName dstName lastTxSec ht hs he hsRange
      heRange
    rw [hend] at hstop
    rw [yearSeconds_succ] at hu
    have hmem := utcYear_mem t
    have hyear : utcYear u = utcYear t := utcYear_eq (by omega)
    rw [← hyear] at hs he hsRange heRange
    have hlater := seasonal_lookup stdName dstName lastTxSec (t := u) (by omega) hs he
      hsRange heRange
    have hsame := dstInEffect_of_periodEnd_le (z := u - yearSeconds (utcYear t))
      (s := startRule.seconds (utcYear t) stdOffset ds)
      (e := endRule.seconds (utcYear t) dstOffset de) (y := t - yearSeconds (utcYear t))
      (by omega) (by omega)
    rw [hlater.1, hoffset, hyear]
    simp only [hsame]

end Footer

end RatifyProtocol.V2
