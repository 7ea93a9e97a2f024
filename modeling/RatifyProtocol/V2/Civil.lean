import RatifyProtocol.Foundation.Arithmetic
import RatifyProtocol.Foundation.Calendar
set_option autoImplicit false

/-!
# V2: civil time

The calendar part of `v2/tzdb.rs`: Go's absolute-day algorithms.  Days are
counted in a `u64` from 1 March of a year far in the past, and split into
century, year of the century and day of the year by a multiplication and a
shift.  The functions are written over `Arith`, so that one definition is read
as the wrapping program and as the program that fails on overflow.
-/

namespace RatifyProtocol.V2

open Foundation

def secondsPerDay : Int := 86400
def marchThruDecember : Int := 306
def absoluteYears : Int := 292277022400
def absoluteToInternal : Int := -((absoluteYears / 400 * 146097 + marchThruDecember) * secondsPerDay)
def internalToAbsolute : Int := -absoluteToInternal
def unixToInternal : Int := (1969 * 365 + 1969 / 4 - 1969 / 100 + 1969 / 400) * secondsPerDay
def internalToUnix : Int := -unixToInternal
def absoluteToUnix : Int := absoluteToInternal + internalToUnix
def unixToAbsolute : Int := unixToInternal + internalToAbsolute

/-- The fields of a civil time, as machine integers. -/
structure Civil where
  year : Int
  month : Int
  day : Int
  hour : Int
  minute : Int
  second : Int
  deriving DecidableEq, Repr

section Functions

variable {m : Type → Type} [Monad m] (A : Arith m)

/-- `abs_days_split`.  `>> 32` and `as u32` are the quotient and the remainder
by 2^32. -/
def absDaysSplit (days : Int) : m (Int × Int × Int) := do
  let quadrupled ← A.fit .u64 (days * 4)
  let d ← A.fit .u64 (quadrupled + 3)
  let century := d / 146097
  let cd : Int := ((d % 146097).toNat ||| 3 : Nat)
  let prod ← A.fit .u64 (2939745 * cd)
  let cyear := prod / 4294967296
  let lo := prod % 4294967296
  let ayday := lo / 2939745 / 4
  pure (century, cyear, ayday)

/-- `abs_year`. -/
def absYear (century cyear janFeb : Int) : m Int := do
  let years ← A.fit .u64 (century * 100)
  let years ← A.fit .u64 (years - absoluteYears)
  let years ← A.fit .i64 years
  let year ← A.fit .i64 (years + cyear)
  A.fit .i64 (year + janFeb)

/-- `jan_feb`: whether a day of the year that starts in March is in January or
February. -/
def janFeb (ayday : Int) : Int := if ayday ≥ marchThruDecember then 1 else 0

/-- `abs_days_year_yday`; `leap & !jf` is `leap` outside January and February. -/
def absDaysYearYday (days : Int) : m (Int × Int) := do
  let (century, cyear, ayday) ← absDaysSplit A days
  let jf := janFeb ayday
  let year ← absYear A century cyear jf
  let leap : Int := if cyear % 4 = 0 ∧ (cyear ≠ 0 ∨ century % 4 = 0) then 1 else 0
  let base ← A.fit .i64 (ayday + (1 + 31 + 28))
  let base ← A.fit .i64 (base + if jf = 0 then leap else 0)
  let yday ← A.fit .i64 (base - 365 * jf)
  pure (year, yday)

/-- `civil_from_unix`; `>> 16` and `& 0xFFFF` are the quotient and the remainder
by 2^16. -/
def civilFromUnixIn (localSeconds : Int) : m Civil := do
  let abs ← A.turn .i64 (localSeconds + unixToAbsolute)
  let abs ← A.turn .u64 abs
  let (century, cyear, ayday) ← absDaysSplit A (abs / secondsPerDay)
  let d ← A.fit .u32 (2141 * ayday)
  let d ← A.fit .u32 (d + 197913)
  let amonth := d / 65536
  let day ← A.fit .u32 (1 + d % 65536 / 2141)
  let jf := janFeb ayday
  let year ← absYear A century cyear jf
  let months ← A.fit .u32 (jf * 12)
  let month ← A.fit .u32 (amonth - months)
  let clock := abs % secondsPerDay
  let hour := clock / 3600
  let hours ← A.fit .u32 (hour * 3600)
  let rem ← A.fit .u32 (clock - hours)
  let minute := rem / 60
  let minutes ← A.fit .u32 (minute * 60)
  let second ← A.fit .u32 (rem - minutes)
  pure { year, month, day, hour, minute, second }

/-- `norm`. -/
def norm (hi lo base : Int) : m (Int × Int) := do
  let (hi, lo) ← if lo < 0 then do
      let negated ← A.fit .i64 (-lo)
      let negated ← A.fit .i64 (negated - 1)
      let n ← A.fit .i64 (negated.tdiv base + 1)
      let hi ← A.fit .i64 (hi - n)
      let carried ← A.fit .i64 (n * base)
      let lo ← A.fit .i64 (lo + carried)
      pure (hi, lo)
    else pure (hi, lo)
  if lo ≥ base then do
    let n := lo.tdiv base
    let hi ← A.fit .i64 (hi + n)
    let carried ← A.fit .i64 (n * base)
    let lo ← A.fit .i64 (lo - carried)
    pure (hi, lo)
  else pure (hi, lo)

/-- `date_to_abs_days`, the month already normalized. -/
def dateToAbsDays (year month day : Int) : m Int := do
  let jf : Int := if month < 3 then 1 else 0
  let months ← A.fit .u32 (12 * jf)
  let amonth ← A.fit .u32 (month + months)
  let y ← A.fit .u64 year
  let y ← A.fit .u64 (y - jf)
  let y ← A.fit .u64 (y + absoluteYears)
  let scaled ← A.fit .u32 (979 * amonth)
  let scaled ← A.fit .u32 (scaled - 2919)
  let ayday := scaled / 32
  let century := y / 100
  let cyear := y % 100
  let scaled ← A.fit .u32 (1461 * cyear)
  let cday := scaled / 4
  let scaled ← A.fit .u64 (146097 * century)
  let centurydays := scaled / 4
  let days ← A.fit .u32 (cday + ayday)
  let days ← A.fit .i64 (days + day)
  let days ← A.fit .i64 (days - 1)
  let days ← A.fit .u64 days
  A.fit .u64 (centurydays + days)

/-- `unix_from_civil_utc`. -/
def unixFromCivilUtcIn (year month day hour minute second : Int) : m Int := do
  let m0 ← A.fit .i64 (month - 1)
  let (year, m0) ← norm A year m0 12
  let month ← A.fit .u32 (m0 + 1)
  let (min, sec) ← norm A minute second 60
  let (hour, min) ← norm A hour min 60
  let (day, hour) ← norm A day hour 24
  let days ← dateToAbsDays A year month day
  let days ← A.turn .i64 days
  let abs ← A.turn .i64 (days * secondsPerDay)
  let hours ← A.fit .i64 (hour * 3600)
  let minutes ← A.fit .i64 (min * 60)
  let clock ← A.fit .i64 (hours + minutes)
  let clock ← A.fit .i64 (clock + sec)
  let abs ← A.turn .i64 (abs + clock)
  A.turn .i64 (abs + absoluteToUnix)

end Functions

/-- `civil_from_unix` as the machine computes it. -/
def civilFromUnix (localSeconds : Int) : Civil := civilFromUnixIn .wrapping localSeconds

/-- `unix_from_civil_utc` as the machine computes it. -/
def unixFromCivilUtc (year month day hour minute second : Int) : Int :=
  unixFromCivilUtcIn .wrapping year month day hour minute second

end RatifyProtocol.V2
