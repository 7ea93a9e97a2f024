import RatifyProtocol.V2.Civil
import RatifyProtocol.V2.Delegation.Constraint
set_option autoImplicit false

/-!
# V2: the POSIX TZ footer

`tzset` and its helpers of `v2/tzdb.rs`: the rule at the end of a TZif file that
recurs every year after the last explicit transition.  Names are kept as the
bytes of the text.
-/

namespace RatifyProtocol.V2

open Foundation

/-- `b'c'`. -/
def ascii (c : Char) : UInt8 := UInt8.ofNat c.toNat

/-- Go's `alpha`, `i64::MIN`. -/
def alpha : Int := -9223372036854775808

/-- Go's `omega`, `i64::MAX`. -/
def omegaTime : Int := 9223372036854775807

/-- `RawLookup`. -/
structure RawLookup where
  name : Bytes
  offset : Int
  start : Int
  stop : Int
  isDst : Bool
  deriving DecidableEq, Repr

inductive RuleKind where
  | julian
  | doy
  | monthWeekDay
  deriving DecidableEq, Repr

/-- The day and the time of day at which a rule takes effect. -/
structure Rule where
  kind : RuleKind
  day : Int
  week : Int
  mon : Int
  time : Int
  deriving DecidableEq, Repr

/-! ## Reading the text -/

/-- Bytes that end a name without brackets. -/
def endsName (c : UInt8) : Bool :=
  isAsciiDigit c || c == ascii ',' || c == ascii '-' || c == ascii '+'

/-- `tzset_name`. -/
def tzsetName (s : Bytes) : Option (Bytes × Bytes) := do
  let first ← s.head?
  if first ≠ ascii '<' then
    let name := s.takeWhile fun c => !endsName c
    if name.length < 3 then none else some (name, s.drop name.length)
  else
    let i ← s.findIdx? (· == ascii '>')
    some ((s.take i).drop 1, s.drop (i + 1))

/-- The loop of `tzset_num`, from a byte that is the first one or not. -/
def tzsetNumFrom (min max : Int) : Bool → Int → Bytes → Option (Int × Bytes)
  | _, num, [] => if num < min then none else some (num, [])
  | isFirst, num, c :: s =>
    if !isAsciiDigit c then
      if isFirst || num < min then none else some (num, c :: s)
    else
      let num := num * 10 + (c.toNat - 48)
      if num > max then none else tzsetNumFrom min max false num s

/-- `tzset_num`. -/
def tzsetNum (s : Bytes) (min max : Int) : Option (Int × Bytes) :=
  if s = [] then none else tzsetNumFrom min max true 0 s

/-- `tzset_offset`. -/
def tzsetOffset (s : Bytes) : Option (Int × Bytes) := do
  let first ← s.head?
  let (neg, s) :=
    if first = ascii '+' then (false, s.tail)
    else if first = ascii '-' then (true, s.tail)
    else (false, s)
  let finish := fun (off : Int) (rest : Bytes) => some (if neg then -off else off, rest)
  let (hours, s) ← tzsetNum s 0 (24 * 7)
  let off := hours * 3600
  if s.head? ≠ some (ascii ':') then finish off s
  else do
    let (mins, s) ← tzsetNum s.tail 0 59
    let off := off + mins * 60
    if s.head? ≠ some (ascii ':') then finish off s
    else do
      let (secs, s) ← tzsetNum s.tail 0 59
      finish (off + secs) s

/-- The day part of `tzset_rule`; `J`, `M` and a digit tell the forms apart. -/
def tzsetRuleDay (s : Bytes) : Option (Rule × Bytes) := do
  let first ← s.head?
  if first = ascii 'J' then
    let (jday, rest) ← tzsetNum s.tail 1 365
    some ({ kind := .julian, day := jday, week := 0, mon := 0, time := 0 }, rest)
  else if first = ascii 'M' then
    let (mon, rest) ← tzsetNum s.tail 1 12
    if rest.head? ≠ some (ascii '.') then none
    else
      let (week, rest) ← tzsetNum rest.tail 1 5
      if rest.head? ≠ some (ascii '.') then none
      else
        let (day, rest) ← tzsetNum rest.tail 0 6
        some ({ kind := .monthWeekDay, day, week, mon, time := 0 }, rest)
  else
    let (day, rest) ← tzsetNum s 0 365
    some ({ kind := .doy, day, week := 0, mon := 0, time := 0 }, rest)

/-- `tzset_rule`; 2am is the default time. -/
def tzsetRule (s : Bytes) : Option (Rule × Bytes) := do
  let (r, s) ← tzsetRuleDay s
  if s.head? ≠ some (ascii '/') then some ({ r with time := 2 * 3600 }, s)
  else
    let (offset, rest) ← tzsetOffset s.tail
    some ({ r with time := offset }, rest)

/-- What a footer says: one offset, or two and the rules that switch them. -/
inductive Footer where
  | standard (name : Bytes) (offset : Int)
  | seasonal (stdName : Bytes) (stdOffset : Int) (dstName : Bytes) (dstOffset : Int)
      (startRule endRule : Rule)
  deriving DecidableEq, Repr

def defaultRules : Bytes := utf8 ",M3.2.0,M11.1.0"

/-- The daylight offset, one hour ahead when none is given. -/
def tzsetDstOffset (stdOffset : Int) (s : Bytes) : Option (Int × Bytes) :=
  if s = [] ∨ s.head? = some (ascii ',') then some (IntType.i64.wrap (stdOffset + 3600), s)
  else do
    let (o, rest) ← tzsetOffset s
    some (IntType.i64.wrap (-o), rest)

/-- The two rules up to the end of the text; tzcode accepts `;` before them. -/
def tzsetRules (s : Bytes) : Option (Rule × Rule) :=
  if s.head? ≠ some (ascii ',') ∧ s.head? ≠ some (ascii ';') then none
  else do
    let (startRule, s) ← tzsetRule s.tail
    if s.head? ≠ some (ascii ',') then none
    else do
      let (endRule, s) ← tzsetRule s.tail
      if s ≠ [] then none else some (startRule, endRule)

/-- The part of `tzset` before the year is known. -/
def tzsetFooter (s : Bytes) : Option Footer := do
  let (stdName, s) ← tzsetName s
  let (stdOffset, s) ← tzsetOffset s
  -- TZ offsets are added to local time to get UTC; ours go the other way.
  let stdOffset := IntType.i64.wrap (-stdOffset)
  if s = [] ∨ s.head? = some (ascii ',') then some (.standard stdName stdOffset)
  else do
    let (dstName, s) ← tzsetName s
    let (dstOffset, s) ← tzsetDstOffset stdOffset s
    let (startRule, endRule) ← tzsetRules (if s = [] then defaultRules else s)
    some (.seasonal stdName stdOffset dstName dstOffset startRule endRule)

/-! ## Rule times -/

/-- `is_leap`; a mask of low bits is a remainder by a power of two. -/
def isLeap (year : Int) : Bool := (if year.tmod 25 ≠ 0 then year % 4 else year % 16) == 0

/-- `days_before`. -/
def daysBefore (m : Int) : Int := (214 * m - 211).tdiv 7 + if m ≥ 3 then -2 else 0

/-- `days_in`. -/
def daysIn (m year : Int) : Int :=
  if m = 2 then if isLeap year then 29 else 28
  else 30 + (m + m / 8) % 2

/-- The loop of `tzrule_time` over the weeks of a month. -/
def addWeeks (length : Int) : Nat → Int → Int
  | 0, d => d
  | n + 1, d => if d + 7 ≥ length then d else addWeeks length n (d + 7)

/-- The day of the week of the first day of a month, by Zeller's congruence. -/
def firstWeekday (year mon : Int) : Int :=
  let m1 := (mon + 9).tmod 12 + 1
  let yy0 := if mon ≤ 2 then IntType.i64.wrap (year - 1) else year
  let yy1 := yy0.tdiv 100
  let yy2 := yy0.tmod 100
  let sum := IntType.i64.wrap ((26 * m1 - 2).tdiv 10 + 1 + yy2)
  let sum := IntType.i64.wrap (sum + yy2.tdiv 4)
  let sum := IntType.i64.wrap (sum + yy1.tdiv 4)
  let sum := IntType.i64.wrap (sum - IntType.i64.wrap (yy1 * 2))
  let dow := sum.tmod 7
  if dow < 0 then dow + 7 else dow

/-- `tzrule_time`: seconds from the start of the UTC year to the rule. -/
def tzruleTime (year : Int) (r : Rule) (off : Int) : Int :=
  let s := match r.kind with
    | .julian =>
      (r.day - 1) * secondsPerDay + if isLeap year && decide (r.day ≥ 60) then secondsPerDay else 0
    | .doy => r.day * secondsPerDay
    | .monthWeekDay =>
      let d := r.day - firstWeekday year r.mon
      let d := if d < 0 then d + 7 else d
      let d := addWeeks (daysIn r.mon year) (r.week - 1).toNat d
      let d := d + daysBefore r.mon
      let d := if isLeap year && decide (r.mon > 2) then d + 1 else d
      d * secondsPerDay
  IntType.i64.wrap (IntType.i64.wrap (s + r.time) - off)

/-! ## Evaluation -/

/-- Start of the UTC year of an instant, and the year. -/
def yearOf (sec : Int) : Int × Int :=
  let abs := IntType.u64.wrap (IntType.i64.wrap (sec + unixToAbsolute))
  let (year, yday) := absDaysYearYday Arith.wrapping (abs / secondsPerDay)
  let days := IntType.i64.wrap (IntType.i64.wrap (yday - 1) * secondsPerDay)
  let ysec := IntType.i64.wrap (days + sec.tmod secondsPerDay)
  (year, ysec)

/-- The part of `tzset` after the footer is read: the period around an instant. -/
def Footer.lookup (footer : Footer) (lastTxSec sec : Int) : RawLookup :=
  match footer with
  | .standard name offset =>
    { name, offset, start := lastTxSec, stop := omegaTime, isDst := false }
  | .seasonal stdName stdOffset dstName dstOffset startRule endRule =>
    let (year, ysec) := yearOf sec
    let ystart := IntType.i64.wrap (sec - ysec)
    let startSec := tzruleTime year startRule stdOffset
    let endSec := tzruleTime year endRule dstOffset
    -- Southern hemisphere: flip DST and STD while retaining the labels.
    let (startSec, endSec, stdName, dstName, stdOffset, dstOffset, stdIsDst, dstIsDst) :=
      if endSec < startSec then
        (endSec, startSec, dstName, stdName, dstOffset, stdOffset, true, false)
      else (startSec, endSec, stdName, dstName, stdOffset, dstOffset, false, true)
    if ysec < startSec then
      { name := stdName, offset := stdOffset, start := ystart
        stop := IntType.i64.wrap (startSec + ystart), isDst := stdIsDst }
    else if ysec ≥ endSec then
      { name := stdName, offset := stdOffset, start := IntType.i64.wrap (endSec + ystart)
        stop := IntType.i64.wrap (ystart + 365 * secondsPerDay), isDst := stdIsDst }
    else
      { name := dstName, offset := dstOffset, start := IntType.i64.wrap (startSec + ystart)
        stop := IntType.i64.wrap (endSec + ystart), isDst := dstIsDst }

/-- `tzset`. -/
def tzset (s : Bytes) (lastTxSec sec : Int) : Option RawLookup := do
  let footer ← tzsetFooter s
  some (footer.lookup lastTxSec sec)

end RatifyProtocol.V2
