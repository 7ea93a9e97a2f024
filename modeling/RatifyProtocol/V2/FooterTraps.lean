import RatifyProtocol.Foundation.Traps
import RatifyProtocol.V2.FooterText
set_option autoImplicit false

/-!
# V2: the footer functions step by step

`tzset` and its helpers with every step that may trap: each sum, difference and
product names the type that must hold it, each division and each `split_at` its
demand.  The steps that the source writes as wrapping ones are held to the same
standard, so that none of them wraps either; only the shift to absolute seconds
turns on purpose.  A difference of bytes is exact unless it is negative.

Every lawful reading of these functions computes what the functions without
steps compute.
-/

namespace RatifyProtocol.V2

open Foundation

section Functions

variable {m : Type → Type} [Monad m] (M : Machine m)

/-! ## Reading the text -/

/-- `tzset_name`. -/
def tzsetNameIn (s : Bytes) : m (Option (Bytes × Bytes)) :=
  tryOption (pure s.head?) fun first =>
    if first ≠ ascii '<' then
      match s.findIdx? endsName with
      | none => pure (if s.length < 3 then none else some (s, []))
      | some i =>
        if i < 3 then pure none
        else do
          let (name, rest) ← M.splitAt s i
          pure (some (name, rest))
    else
      tryOption (pure (s.findIdx? (· == ascii '>'))) fun i => do
        let next ← M.fit M.usize (i + 1)
        pure (some ((s.take i).drop 1, s.drop next.toNat))

/-- The loop of `tzset_num`. -/
def tzsetNumFromIn (min max : Int) : Bool → Int → Bytes → m (Option (Int × Bytes))
  | _, num, [] => pure (if num < min then none else some (num, []))
  | isFirst, num, c :: s =>
    if !isAsciiDigit c then
      pure (if isFirst || num < min then none else some (num, c :: s))
    else do
      let num ← M.fit .i64 (num * 10)
      let digit ← M.fit .u32 (c.toNat - 48)
      let num ← M.fit .i64 (num + digit)
      if num > max then pure none else tzsetNumFromIn min max false num s

/-- `tzset_num`. -/
def tzsetNumIn (s : Bytes) (min max : Int) : m (Option (Int × Bytes)) :=
  if s = [] then pure none else tzsetNumFromIn M min max true 0 s

/-- `finish` of `tzset_offset`. -/
def finishOffsetIn (neg : Bool) (off : Int) (rest : Bytes) : m (Option (Int × Bytes)) := do
  let off ← (if neg then M.fit .i64 (-off) else pure off)
  pure (some (off, rest))

/-- The part of `tzset_offset` after the sign. -/
def tzsetClockIn (neg : Bool) (s : Bytes) : m (Option (Int × Bytes)) :=
  tryOption (tzsetNumIn M s 0 (24 * 7)) fun (hours, s) => do
    let off ← M.fit .i64 (hours * 3600)
    if s.head? ≠ some (ascii ':') then finishOffsetIn M neg off s
    else tryOption (tzsetNumIn M s.tail 0 59) fun (mins, s) => do
      let minutes ← M.fit .i64 (mins * 60)
      let off ← M.fit .i64 (off + minutes)
      if s.head? ≠ some (ascii ':') then finishOffsetIn M neg off s
      else tryOption (tzsetNumIn M s.tail 0 59) fun (secs, s) => do
        let off ← M.fit .i64 (off + secs)
        finishOffsetIn M neg off s

/-- `tzset_offset`. -/
def tzsetOffsetIn (s : Bytes) : m (Option (Int × Bytes)) :=
  tryOption (pure s.head?) fun first =>
    if first = ascii '+' then tzsetClockIn M false s.tail
    else if first = ascii '-' then tzsetClockIn M true s.tail
    else tzsetClockIn M false s

/-- The day part of `tzset_rule`. -/
def tzsetRuleDayIn (s : Bytes) : m (Option (Rule × Bytes)) :=
  tryOption (pure s.head?) fun first =>
    if first = ascii 'J' then
      tryOption (tzsetNumIn M s.tail 1 365) fun (jday, rest) =>
        pure (some ({ kind := .julian, day := jday, week := 0, mon := 0, time := 0 }, rest))
    else if first = ascii 'M' then
      tryOption (tzsetNumIn M s.tail 1 12) fun (mon, rest) =>
        if rest.head? ≠ some (ascii '.') then pure none
        else tryOption (tzsetNumIn M rest.tail 1 5) fun (week, rest) =>
          if rest.head? ≠ some (ascii '.') then pure none
          else tryOption (tzsetNumIn M rest.tail 0 6) fun (day, rest) =>
            pure (some ({ kind := .monthWeekDay, day, week, mon, time := 0 }, rest))
    else
      tryOption (tzsetNumIn M s 0 365) fun (day, rest) =>
        pure (some ({ kind := .doy, day, week := 0, mon := 0, time := 0 }, rest))

/-- `tzset_rule`. -/
def tzsetRuleIn (s : Bytes) : m (Option (Rule × Bytes)) :=
  tryOption (tzsetRuleDayIn M s) fun (r, s) =>
    if s.head? ≠ some (ascii '/') then do
      let time ← M.fit .i64 (2 * 3600)
      pure (some ({ r with time }, s))
    else tryOption (tzsetOffsetIn M s.tail) fun (offset, rest) =>
      pure (some ({ r with time := offset }, rest))

/-- The daylight offset of `tzset`. -/
def tzsetDstOffsetIn (stdOffset : Int) (s : Bytes) : m (Option (Int × Bytes)) :=
  if s = [] ∨ s.head? = some (ascii ',') then do
    let dstOffset ← M.fit .i64 (stdOffset + 3600)
    pure (some (dstOffset, s))
  else tryOption (tzsetOffsetIn M s) fun (o, rest) => do
    let dstOffset ← M.fit .i64 (-o)
    pure (some (dstOffset, rest))

/-- The two rules of `tzset`. -/
def tzsetRulesIn (s : Bytes) : m (Option (Rule × Rule)) :=
  if s.head? ≠ some (ascii ',') ∧ s.head? ≠ some (ascii ';') then pure none
  else tryOption (tzsetRuleIn M s.tail) fun (startRule, s) =>
    if s.head? ≠ some (ascii ',') then pure none
    else tryOption (tzsetRuleIn M s.tail) fun (endRule, s) =>
      pure (if s ≠ [] then none else some (startRule, endRule))

/-- The part of `tzset` before the year is known. -/
def tzsetFooterIn (s : Bytes) : m (Option Footer) :=
  tryOption (tzsetNameIn M s) fun (stdName, s) =>
    tryOption (tzsetOffsetIn M s) fun (stdOffset, s) => do
      let stdOffset ← M.fit .i64 (-stdOffset)
      if s = [] ∨ s.head? = some (ascii ',') then pure (some (.standard stdName stdOffset))
      else tryOption (tzsetNameIn M s) fun (dstName, s) =>
        tryOption (tzsetDstOffsetIn M stdOffset s) fun (dstOffset, s) =>
          tryOption (tzsetRulesIn M (if s = [] then defaultRules else s)) fun (startRule, endRule) =>
            pure (some (.seasonal stdName stdOffset dstName dstOffset startRule endRule))

/-! ## Rule times -/

/-- `is_leap`. -/
def isLeapIn (year : Int) : m Bool := do
  let r ← M.rem .i64 year 25
  pure ((if r ≠ 0 then year % 4 else year % 16) == 0)

/-- `days_before`. -/
def daysBeforeIn (mon : Int) : m Int := do
  let scaled ← M.fit .i64 (214 * mon)
  let scaled ← M.fit .i64 (scaled - 211)
  let days ← M.quot .i64 scaled 7
  M.fit .i64 (days + if mon ≥ 3 then -2 else 0)

/-- `days_in`. -/
def daysInIn (mon year : Int) : m Int :=
  if mon = 2 then do
    let leap ← isLeapIn M year
    pure (if leap then 29 else 28)
  else do
    let sum ← M.fit .i64 (mon + mon / 8)
    M.fit .i64 (30 + sum % 2)

/-- The loop of `tzrule_time` over the weeks of a month. -/
def addWeeksIn (mon year : Int) : Nat → Int → m Int
  | 0, d => pure d
  | n + 1, d => do
    let next ← M.fit .i64 (d + 7)
    let length ← daysInIn M mon year
    if next ≥ length then pure d
    else do
      let d ← M.fit .i64 (d + 7)
      addWeeksIn mon year n d

/-- The day of the week of the first day of a month. -/
def firstWeekdayIn (year mon : Int) : m Int := do
  let shifted ← M.fit .i64 (mon + 9)
  let shifted ← M.rem .i64 shifted 12
  let m1 ← M.fit .i64 (shifted + 1)
  let yy0 ← (if mon ≤ 2 then M.fit .i64 (year - 1) else pure year)
  let yy1 ← M.quot .i64 yy0 100
  let yy2 ← M.rem .i64 yy0 100
  let scaled ← M.fit .i64 (26 * m1)
  let scaled ← M.fit .i64 (scaled - 2)
  let sum ← M.quot .i64 scaled 10
  let sum ← M.fit .i64 (sum + 1)
  let sum ← M.fit .i64 (sum + yy2)
  let leaps ← M.quot .i64 yy2 4
  let sum ← M.fit .i64 (sum + leaps)
  let leaps ← M.quot .i64 yy1 4
  let sum ← M.fit .i64 (sum + leaps)
  let twice ← M.fit .i64 (yy1 * 2)
  let sum ← M.fit .i64 (sum - twice)
  let dow ← M.rem .i64 sum 7
  if dow < 0 then M.fit .i64 (dow + 7) else pure dow

/-- The day of the year, from zero, of the weekday in a week of a month. -/
def monthWeekDayIn (year : Int) (r : Rule) : m Int := do
  let dow ← firstWeekdayIn M year r.mon
  let d ← M.fit .i64 (r.day - dow)
  let d ← (if d < 0 then M.fit .i64 (d + 7) else pure d)
  let d ← addWeeksIn M r.mon year (r.week - 1).toNat d
  let before ← daysBeforeIn M r.mon
  let d ← M.fit .i64 (d + before)
  let leap ← isLeapIn M year
  (if leap && decide (r.mon > 2) then M.fit .i64 (d + 1) else pure d)

/-- The start of the day a rule names, in seconds of the year. -/
def ruleDayIn (year : Int) (r : Rule) : m Int :=
  match r.kind with
  | .julian => do
    let days ← M.fit .i64 (r.day - 1)
    let s ← M.fit .i64 (days * secondsPerDay)
    let leap ← isLeapIn M year
    (if leap && decide (r.day ≥ 60) then M.fit .i64 (s + secondsPerDay) else pure s)
  | .doy => M.fit .i64 (r.day * secondsPerDay)
  | .monthWeekDay => do
    let d ← monthWeekDayIn M year r
    M.fit .i64 (d * secondsPerDay)

/-- `tzrule_time`. -/
def tzruleTimeIn (year : Int) (r : Rule) (off : Int) : m Int := do
  let s ← ruleDayIn M year r
  let s ← M.fit .i64 (s + r.time)
  M.fit .i64 (s - off)

/-! ## Evaluation -/

/-- Start of the UTC year of an instant, and the year. -/
def yearOfIn (sec : Int) : m (Int × Int) := do
  let abs ← M.turn .i64 (sec + unixToAbsolute)
  let abs ← M.turn .u64 abs
  let days ← M.quot .u64 abs secondsPerDay
  let (year, yday) ← absDaysYearYday M.toArith days
  let days ← M.fit .i64 (yday - 1)
  let days ← M.fit .i64 (days * secondsPerDay)
  let rest ← M.rem .i64 sec secondsPerDay
  let ysec ← M.fit .i64 (days + rest)
  pure (year, ysec)

/-- The part of `tzset` after the footer is read. -/
def lookupFooterIn (footer : Footer) (lastTxSec sec : Int) : m RawLookup :=
  match footer with
  | .standard name offset =>
    pure { name, offset, start := lastTxSec, stop := omegaTime, isDst := false }
  | .seasonal stdName stdOffset dstName dstOffset startRule endRule => do
    let (year, ysec) ← yearOfIn M sec
    let ystart ← M.fit .i64 (sec - ysec)
    let startSec ← tzruleTimeIn M year startRule stdOffset
    let endSec ← tzruleTimeIn M year endRule dstOffset
    let (startSec, endSec, stdName, dstName, stdOffset, dstOffset, stdIsDst, dstIsDst) :=
      if endSec < startSec then
        (endSec, startSec, dstName, stdName, dstOffset, stdOffset, true, false)
      else (startSec, endSec, stdName, dstName, stdOffset, dstOffset, false, true)
    if ysec < startSec then do
      let stop ← M.fit .i64 (startSec + ystart)
      pure { name := stdName, offset := stdOffset, start := ystart, stop, isDst := stdIsDst }
    else if ysec ≥ endSec then do
      let start ← M.fit .i64 (endSec + ystart)
      let stop ← M.fit .i64 (ystart + 365 * secondsPerDay)
      pure { name := stdName, offset := stdOffset, start, stop, isDst := stdIsDst }
    else do
      let start ← M.fit .i64 (startSec + ystart)
      let stop ← M.fit .i64 (endSec + ystart)
      pure { name := dstName, offset := dstOffset, start, stop, isDst := dstIsDst }

/-- `tzset`. -/
def tzsetIn (s : Bytes) (lastTxSec sec : Int) : m (Option RawLookup) :=
  tryOption (tzsetFooterIn M s) fun footer => do
    let r ← lookupFooterIn M footer lastTxSec sec
    pure (some r)

end Functions

section Readings

variable {m : Type → Type} [Monad m] [LawfulMonad m] {M : Machine m}

/-! ## The readers -/

theorem tzsetNameIn_eq (hM : M.Lawful) {s : Bytes} (hs : M.Addressable s) :
    tzsetNameIn M s = pure (tzsetName s) := by
  unfold tzsetNameIn tzsetName
  apply tryOption_eq rfl
  intro first hfirst
  split
  · rw [List.takeWhile_eq_take_findIdx_not]
    simp only [Bool.not_not]
    cases hend : s.findIdx? endsName with
    | none =>
      rw [List.findIdx?_eq_none_iff_findIdx_eq.mp hend, List.take_length]
      simp
    | some i =>
      obtain ⟨hlt, -⟩ := List.findIdx?_eq_some_iff_getElem.mp hend
      have hidx := (List.findIdx?_eq_some_iff_findIdx_eq.mp hend).2
      have hlen : (s.take i).length = i := by
        rw [List.length_take]
        omega
      dsimp only
      rw [hidx, hlen, hM.splitAt_eq hlt.le, pure_bind]
      split
      · rfl
      · rfl
  · apply tryOption_eq rfl
    intro i hi
    obtain ⟨hlt, -⟩ := List.findIdx?_eq_some_iff_getElem.mp hi
    have hnext : M.usize.Holds ((i : Int) + 1) := by
      have hfit := hs.holds hM (n := i + 1) (by omega)
      rwa [Nat.cast_add, Nat.cast_one] at hfit
    rw [hM.fit_bind hnext]
    rfl

/-- A digit is between `'0'` and `'9'`. -/
theorem digit_range {c : UInt8} (h : isAsciiDigit c = true) : 48 ≤ c.toNat ∧ c.toNat ≤ 57 := by
  simp only [isAsciiDigit, Bool.and_eq_true, decide_eq_true_eq, UInt8.le_iff_toNat_le] at h
  exact h

theorem tzsetNumFromIn_eq (hM : M.Lawful) {min max : Int} (hmax : max ≤ 1000000)
    {isFirst : Bool} {num : Int} (hnum : 0 ≤ num ∧ num ≤ max) (s : Bytes) :
    tzsetNumFromIn M min max isFirst num s = pure (tzsetNumFrom min max isFirst num s) := by
  induction s generalizing isFirst num with
  | nil => rfl
  | cons c s ih =>
    unfold tzsetNumFromIn tzsetNumFrom
    split
    · rfl
    · rename_i hdigit
      have hc := digit_range (by simpa using hdigit)
      rw [hM.fit_bind (by simp only [IntType.holds_i64]; omega),
        hM.fit_bind (by simp only [IntType.holds_u32]; omega),
        hM.fit_bind (by simp only [IntType.holds_i64]; omega)]
      dsimp only
      split
      · rfl
      · exact ih (by omega)

theorem tzsetNumIn_eq (hM : M.Lawful) {min max : Int} (hmax : 0 ≤ max ∧ max ≤ 1000000)
    (s : Bytes) : tzsetNumIn M s min max = pure (tzsetNum s min max) := by
  unfold tzsetNumIn tzsetNum
  split
  · rfl
  · exact tzsetNumFromIn_eq hM hmax.2 ⟨le_refl 0, hmax.1⟩ s

theorem tzsetNum_range {min max n : Int} {s rest : Bytes} (hmax : 0 ≤ max)
    (h : tzsetNum s min max = some (n, rest)) : min ≤ n ∧ n ≤ max := by
  obtain ⟨text, -, htext⟩ := tzsetNum_sound hmax h
  exact htext.range

theorem finishOffsetIn_eq (hM : M.Lawful) (neg : Bool) {off : Int}
    (hoff : -1000000 ≤ off ∧ off ≤ 1000000) (rest : Bytes) :
    finishOffsetIn M neg off rest = pure (some (if neg then -off else off, rest)) := by
  cases neg with
  | false => exact pure_bind _ _
  | true =>
    have hneg : IntType.i64.Holds (-off) := by
      simp only [IntType.holds_i64]
      omega
    exact hM.fit_bind hneg _

theorem tzsetClockIn_eq (hM : M.Lawful) (neg : Bool) (s : Bytes) :
    tzsetClockIn M neg s = pure (do
      let (hours, s) ← tzsetNum s 0 (24 * 7)
      if s.head? ≠ some (ascii ':') then some (if neg then -(hours * 3600) else hours * 3600, s)
      else do
        let (mins, s) ← tzsetNum s.tail 0 59
        if s.head? ≠ some (ascii ':') then
          some (if neg then -(hours * 3600 + mins * 60) else hours * 3600 + mins * 60, s)
        else do
          let (secs, s) ← tzsetNum s.tail 0 59
          some (if neg then -(hours * 3600 + mins * 60 + secs)
            else hours * 3600 + mins * 60 + secs, s)) := by
  apply tryOption_eq (tzsetNumIn_eq hM (by decide) s)
  rintro ⟨hours, s₁⟩ hh
  have hhours := tzsetNum_range (by decide) hh
  dsimp only
  rw [hM.fit_bind (by simp only [IntType.holds_i64]; omega)]
  split
  · exact finishOffsetIn_eq hM neg (by omega) s₁
  apply tryOption_eq (tzsetNumIn_eq hM (by decide) s₁.tail)
  rintro ⟨mins, s₂⟩ hm
  have hmins := tzsetNum_range (by decide) hm
  dsimp only
  rw [hM.fit_bind (by simp only [IntType.holds_i64]; omega),
    hM.fit_bind (by simp only [IntType.holds_i64]; omega)]
  split
  · exact finishOffsetIn_eq hM neg (by omega) s₂
  apply tryOption_eq (tzsetNumIn_eq hM (by decide) s₂.tail)
  rintro ⟨secs, s₃⟩ hs
  have hsecs := tzsetNum_range (by decide) hs
  dsimp only
  rw [hM.fit_bind (by simp only [IntType.holds_i64]; omega)]
  exact finishOffsetIn_eq hM neg (by omega) s₃

theorem tzsetOffsetIn_eq (hM : M.Lawful) (s : Bytes) :
    tzsetOffsetIn M s = pure (tzsetOffset s) := by
  unfold tzsetOffset
  apply tryOption_eq rfl
  intro first _
  by_cases hplus : first = ascii '+'
  · simp only [if_pos hplus]
    exact tzsetClockIn_eq hM false s.tail
  · simp only [if_neg hplus]
    by_cases hminus : first = ascii '-'
    · simp only [if_pos hminus]
      exact tzsetClockIn_eq hM true s.tail
    · simp only [if_neg hminus]
      exact tzsetClockIn_eq hM false s

theorem tzsetRuleDayIn_eq (hM : M.Lawful) (s : Bytes) :
    tzsetRuleDayIn M s = pure (tzsetRuleDay s) := by
  unfold tzsetRuleDayIn tzsetRuleDay
  apply tryOption_eq rfl
  intro first hfirst
  split
  · apply tryOption_eq (tzsetNumIn_eq hM (by decide) s.tail)
    intro _ _
    rfl
  split
  · apply tryOption_eq (tzsetNumIn_eq hM (by decide) s.tail)
    rintro ⟨mon, s₁⟩ -
    dsimp only
    split
    · rfl
    apply tryOption_eq (tzsetNumIn_eq hM (by decide) s₁.tail)
    rintro ⟨week, s₂⟩ -
    dsimp only
    split
    · rfl
    apply tryOption_eq (tzsetNumIn_eq hM (by decide) s₂.tail)
    intro _ _
    rfl
  · apply tryOption_eq (tzsetNumIn_eq hM (by decide) s)
    intro _ _
    rfl

theorem tzsetRuleIn_eq (hM : M.Lawful) (s : Bytes) :
    tzsetRuleIn M s = pure (tzsetRule s) := by
  unfold tzsetRuleIn tzsetRule
  apply tryOption_eq (tzsetRuleDayIn_eq hM s)
  rintro ⟨r, s₁⟩ -
  dsimp only
  split
  · rw [hM.fit_bind (by decide)]
  · apply tryOption_eq (tzsetOffsetIn_eq hM s₁.tail)
    intro _ _
    rfl

theorem tzsetOffset_range {n : Int} {s rest : Bytes} (h : tzsetOffset s = some (n, rest)) :
    -608399 ≤ n ∧ n ≤ 608399 := by
  obtain ⟨text, -, htext⟩ := tzsetOffset_sound h
  exact htext.range

theorem tzsetDstOffsetIn_eq (hM : M.Lawful) {stdOffset : Int}
    (hstd : -608399 ≤ stdOffset ∧ stdOffset ≤ 608399) (s : Bytes) :
    tzsetDstOffsetIn M stdOffset s = pure (tzsetDstOffset stdOffset s) := by
  unfold tzsetDstOffsetIn tzsetDstOffset
  split
  · rw [hM.fit_bind (by simp only [IntType.holds_i64]; omega), wrap_small (by omega)]
  · apply tryOption_eq (tzsetOffsetIn_eq hM s)
    rintro ⟨o, rest⟩ ho
    have hrange := tzsetOffset_range ho
    dsimp only
    rw [hM.fit_bind (by simp only [IntType.holds_i64]; omega), wrap_small (by omega)]

theorem tzsetRulesIn_eq (hM : M.Lawful) (s : Bytes) :
    tzsetRulesIn M s = pure (tzsetRules s) := by
  unfold tzsetRulesIn tzsetRules
  split
  · rfl
  apply tryOption_eq (tzsetRuleIn_eq hM s.tail)
  rintro ⟨startRule, s₁⟩ -
  dsimp only
  split
  · rfl
  apply tryOption_eq (tzsetRuleIn_eq hM s₁.tail)
  intro _ _
  rfl

theorem tzsetFooterIn_eq (hM : M.Lawful) {s : Bytes} (hs : M.Addressable s) :
    tzsetFooterIn M s = pure (tzsetFooter s) := by
  unfold tzsetFooterIn tzsetFooter
  apply tryOption_eq (tzsetNameIn_eq hM hs)
  rintro ⟨stdName, s₁⟩ hname
  obtain ⟨a, rfl, -⟩ := tzsetName_sound hname
  apply tryOption_eq (tzsetOffsetIn_eq hM s₁)
  rintro ⟨off, s₂⟩ hoff
  have hrange := tzsetOffset_range hoff
  obtain ⟨b, rfl, -⟩ := tzsetOffset_sound hoff
  dsimp only
  rw [hM.fit_bind (by simp only [IntType.holds_i64]; omega), wrap_small (by omega)]
  split
  · rfl
  have hs₂ : M.Addressable s₂ := by
    unfold Machine.Addressable at hs ⊢
    simp only [List.length_append] at hs
    omega
  apply tryOption_eq (tzsetNameIn_eq hM hs₂)
  rintro ⟨dstName, s₃⟩ -
  apply tryOption_eq (tzsetDstOffsetIn_eq hM (by omega) s₃)
  rintro ⟨dstOffset, s₄⟩ -
  apply tryOption_eq (tzsetRulesIn_eq hM _)
  intro _ _
  rfl

/-! ## Rule times -/

omit [LawfulMonad m] in
/-- Numbers of the size of a year are exact. -/
theorem fit_small (hM : M.Lawful) {n : Int} (h : -2 ^ 50 ≤ n ∧ n ≤ 2 ^ 50) :
    M.fit .i64 n = pure n := by
  apply hM.fit_of_holds
  simp only [IntType.holds_i64]
  omega

/-- A truncated quotient is no larger than the dividend. -/
theorem tdiv_bounds {a k : Int} (b : Int) (h : -k ≤ a ∧ a ≤ k) :
    -k ≤ a.tdiv b ∧ a.tdiv b ≤ k := by
  have habs := Int.natAbs_tdiv_le_natAbs a b
  omega

theorem tmod_bounds (a : Int) {b : Int} (hb : 0 < b) : -b < a.tmod b ∧ a.tmod b < b :=
  ⟨Int.lt_tmod_of_pos a hb, Int.tmod_lt_of_pos a hb⟩

theorem quot_small (hM : M.Lawful) {a b : Int} (hb : b ≠ 0) (h : -2 ^ 50 ≤ a ∧ a ≤ 2 ^ 50) :
    M.quot .i64 a b = pure (a.tdiv b) := by
  have hbounds := tdiv_bounds b h
  apply hM.quot_eq hb
  simp only [IntType.holds_i64]
  omega

theorem rem_small (hM : M.Lawful) {a b : Int} (hb : b ≠ 0) (h : -2 ^ 50 ≤ a ∧ a ≤ 2 ^ 50) :
    M.rem .i64 a b = pure (a.tmod b) := by
  have hbounds := tdiv_bounds b h
  apply hM.rem_eq hb
  simp only [IntType.holds_i64]
  omega

theorem isLeapIn_eq (hM : M.Lawful) {year : Int} (h : -2 ^ 50 ≤ year ∧ year ≤ 2 ^ 50) :
    isLeapIn M year = pure (isLeap year) := by
  unfold isLeapIn
  rw [rem_small hM (by decide) h, pure_bind]
  rfl

theorem daysBeforeIn_eq (hM : M.Lawful) {mon : Int} (h : 1 ≤ mon ∧ mon ≤ 12) :
    daysBeforeIn M mon = pure (daysBefore mon) := by
  have hdays := tdiv_bounds (a := 214 * mon - 211) (k := 10000) 7 (by omega)
  unfold daysBeforeIn daysBefore
  rw [fit_small hM (by omega), pure_bind, fit_small hM (by omega), pure_bind,
    quot_small hM (by decide) (by omega), pure_bind, fit_small hM (by split <;> omega)]

theorem daysInIn_eq (hM : M.Lawful) {mon year : Int} (hmon : 1 ≤ mon ∧ mon ≤ 12)
    (hyear : -2 ^ 50 ≤ year ∧ year ≤ 2 ^ 50) : daysInIn M mon year = pure (daysIn mon year) := by
  unfold daysInIn daysIn
  split
  · rw [isLeapIn_eq hM hyear, pure_bind]
  · rw [fit_small hM (by omega), pure_bind, fit_small hM (by omega)]

theorem addWeeksIn_eq (hM : M.Lawful) {mon year : Int} (hmon : 1 ≤ mon ∧ mon ≤ 12)
    (hyear : -2 ^ 50 ≤ year ∧ year ≤ 2 ^ 50) (n : Nat) {d : Int}
    (hd : -100 ≤ d ∧ d + 7 * n ≤ 100) :
    addWeeksIn M mon year n d = pure (addWeeks (daysIn mon year) n d) := by
  induction n generalizing d with
  | zero => rfl
  | succ n ih =>
    unfold addWeeksIn addWeeks
    rw [fit_small hM (by omega), pure_bind, daysInIn_eq hM hmon hyear, pure_bind]
    split
    · rfl
    · rw [pure_bind]
      exact ih (by omega)

/-- The loop adds whole weeks. -/
theorem addWeeks_range (length : Int) (n : Nat) (d : Int) :
    d ≤ addWeeks length n d ∧ addWeeks length n d ≤ d + 7 * n := by
  induction n generalizing d with
  | zero =>
    unfold addWeeks
    omega
  | succ n ih =>
    unfold addWeeks
    split
    · omega
    · have hnext := ih (d + 7)
      omega

theorem weekday_small (n : Int) : -2 ^ 50 ≤ n.tmod 7 + 7 ∧ n.tmod 7 + 7 ≤ 2 ^ 50 := by
  have hbounds := tmod_bounds n (b := 7) (by decide)
  omega

theorem firstWeekdayIn_eq (hM : M.Lawful) {year mon : Int} (hyear : 1 ≤ year ∧ year ≤ 2 ^ 29)
    (hmon : 1 ≤ mon ∧ mon ≤ 12) :
    firstWeekdayIn M year mon = pure (firstWeekday year mon) := by
  have hshifted := tmod_bounds (mon + 9) (b := 12) (by decide)
  obtain ⟨y, hy, hyrange⟩ : ∃ y, (if mon ≤ 2 then year - 1 else year) = y
      ∧ (0 ≤ y ∧ y ≤ 2 ^ 29) := ⟨_, rfl, by split <;> omega⟩
  have hyy0 : (if mon ≤ 2 then IntType.i64.wrap (year - 1) else year) = y := by
    rw [wrap_small (by omega), hy]
  have hyy1 := tdiv_bounds (a := y) (k := 2 ^ 29) 100 (by omega)
  have hyy2 := tmod_bounds y (b := 100) (by decide)
  have hleaps₁ := tdiv_bounds (a := y.tdiv 100) (k := 2 ^ 29) 4 hyy1
  have hleaps₂ := tdiv_bounds (a := y.tmod 100) (k := 100) 4 (by omega)
  have hsum := tdiv_bounds (a := 26 * ((mon + 9).tmod 12 + 1) - 2) (k := 1000) 10 (by omega)
  unfold firstWeekdayIn firstWeekday
  simp only [hyy0]
  simp (disch := omega) only [fit_small hM, quot_small hM, rem_small hM, wrap_small, pure_bind,
    ← apply_ite (pure : Int → m Int), hy]
  split
  · rw [fit_small hM (weekday_small _)]
  · rfl

theorem firstWeekday_range {year mon : Int} (hyear : 1 ≤ year ∧ year ≤ 2 ^ 29)
    (hmon : 1 ≤ mon ∧ mon ≤ 12) :
    0 ≤ firstWeekday year mon ∧ firstWeekday year mon ≤ 6 := by
  obtain ⟨month, rfl⟩ : ∃ month : Nat, mon = month := ⟨mon.toNat, by omega⟩
  rw [firstWeekday_eq hyear (by omega)]
  unfold Date.weekday
  omega

/-- The day of the year that `tzrule_time` computes for a weekday of a month. -/
def monthWeekDay (year : Int) (r : Rule) : Int :=
  let d := r.day - firstWeekday year r.mon
  let d := if d < 0 then d + 7 else d
  let d := addWeeks (daysIn r.mon year) (r.week - 1).toNat d
  let d := d + daysBefore r.mon
  if isLeap year && decide (r.mon > 2) then d + 1 else d

/-- The start of the day that `tzrule_time` computes. -/
def ruleDay (year : Int) (r : Rule) : Int :=
  match r.kind with
  | .julian =>
    (r.day - 1) * secondsPerDay + if isLeap year && decide (r.day ≥ 60) then secondsPerDay else 0
  | .doy => r.day * secondsPerDay
  | .monthWeekDay => monthWeekDay year r * secondsPerDay

theorem tzruleTime_eq_ruleDay (year : Int) (r : Rule) (off : Int) :
    tzruleTime year r off
      = IntType.i64.wrap (IntType.i64.wrap (ruleDay year r + r.time) - off) := by
  unfold tzruleTime ruleDay
  cases r.kind <;> rfl

theorem monthWeekDayIn_eq (hM : M.Lawful) {r : Rule} {year : Int}
    (hr : (1 ≤ r.mon ∧ r.mon ≤ 12) ∧ (1 ≤ r.week ∧ r.week ≤ 5) ∧ (0 ≤ r.day ∧ r.day ≤ 6))
    (hyear : 1 ≤ year ∧ year ≤ 2 ^ 29) :
    monthWeekDayIn M year r = pure (monthWeekDay year r)
      ∧ (-10000 ≤ monthWeekDay year r ∧ monthWeekDay year r ≤ 10000) := by
  obtain ⟨hmon, hweek, hday⟩ := hr
  have hdow := firstWeekday_range hyear hmon
  obtain ⟨first, hfirst, hrange⟩ : ∃ first, (if r.day - firstWeekday year r.mon < 0
      then r.day - firstWeekday year r.mon + 7 else r.day - firstWeekday year r.mon) = first
      ∧ (-7 ≤ first ∧ first ≤ 14) := ⟨_, rfl, by split <;> omega⟩
  have hweeks := addWeeks_range (daysIn r.mon year) (r.week - 1).toNat first
  have hbefore : -5000 ≤ daysBefore r.mon ∧ daysBefore r.mon ≤ 5000 := by
    have hquot := tdiv_bounds (a := 214 * r.mon - 211) (k := 3000) 7 (by omega)
    unfold daysBefore
    split <;> omega
  unfold monthWeekDayIn monthWeekDay
  simp only [hfirst]
  constructor
  · rw [firstWeekdayIn_eq hM hyear hmon, pure_bind]
    simp (disch := omega) only [fit_small hM, pure_bind, ← apply_ite (pure : Int → m Int), hfirst,
      addWeeksIn_eq hM, daysBeforeIn_eq hM, isLeapIn_eq hM]
  · split <;> omega

theorem ruleDayIn_eq (hM : M.Lawful) {r : Rule} (hr : r.Valid) {year : Int}
    (hyear : 1 ≤ year ∧ year ≤ 2 ^ 29) :
    ruleDayIn M year r = pure (ruleDay year r)
      ∧ (-2 ^ 40 ≤ ruleDay year r ∧ ruleDay year r ≤ 2 ^ 40) := by
  unfold ruleDayIn ruleDay secondsPerDay
  cases hkind : r.kind with
  | julian =>
    have hday := hr.julian hkind
    dsimp only
    constructor
    · simp (disch := omega) only [fit_small hM, pure_bind, ← apply_ite (pure : Int → m Int),
        isLeapIn_eq hM]
      split
      · rfl
      · rw [add_zero]
    · split <;> omega
  | doy =>
    have hday := hr.doy hkind
    dsimp only
    exact ⟨fit_small hM (by omega), by omega⟩
  | monthWeekDay =>
    obtain ⟨heq, hrange⟩ := monthWeekDayIn_eq hM (hr.monthWeekDay hkind) hyear
    dsimp only
    refine ⟨?_, by omega⟩
    rw [heq, pure_bind]
    exact fit_small hM (by omega)

theorem tzruleTimeIn_eq (hM : M.Lawful) {r : Rule} (hr : r.Valid) {year off : Int}
    (hyear : 1 ≤ year ∧ year ≤ 2 ^ 29) (hoff : -2 ^ 33 ≤ off ∧ off ≤ 2 ^ 33) :
    tzruleTimeIn M year r off = pure (tzruleTime year r off)
      ∧ (-2 ^ 42 ≤ tzruleTime year r off ∧ tzruleTime year r off ≤ 2 ^ 42) := by
  obtain ⟨heq, hrange⟩ := ruleDayIn_eq hM hr hyear
  have htime := hr.time
  rw [tzruleTime_eq_ruleDay]
  unfold tzruleTimeIn
  rw [heq, pure_bind, wrap_small (n := ruleDay year r + r.time) (by omega), wrap_small (by omega),
    fit_small hM (by omega), pure_bind, fit_small hM (by omega)]
  exact ⟨rfl, by omega⟩

/-! ## Evaluation -/

theorem yearOfIn_eq (hM : M.Lawful) {t : Int} (h : 0 ≤ t ∧ t ≤ 253402300799) :
    yearOfIn M t = pure (yearOf t) := by
  have habs : IntType.u64.wrap (IntType.i64.wrap (t + unixToAbsolute))
      = t + 9223372028741760000 := wrap_absolute (by omega)
  have hdiv : (t + 9223372028741760000) / secondsPerDay = t / 86400 + 106751991073400 := by
    unfold secondsPerDay
    omega
  have hdays : (t + 9223372028741760000).tdiv secondsPerDay = t / 86400 + 106751991073400 := by
    rw [Int.tdiv_eq_ediv_of_nonneg (by omega), hdiv]
  have hsplit := absDaysYearYday_eq hM.toLawful (n := t / 86400) (by omega)
  have hpair : absDaysYearYday Arith.wrapping (t / 86400 + 106751991073400)
      = ((dateOfDay (t / 86400)).year, ((dateOfDay (t / 86400)).yearDay + 1 : Int)) :=
    absDaysYearYday_eq Arith.lawful_wrapping (by omega)
  have hlt := (dateOfDay (t / 86400)).yearDay_lt
  have hrem := tmod_bounds t (b := secondsPerDay) (by decide)
  unfold yearOfIn yearOf
  rw [hM.turn_bind, hM.turn_bind, habs, hM.quot_eq (by decide)
    (by rw [hdays]; simp only [IntType.holds_u64]; omega), pure_bind, hdays, hsplit, pure_bind]
  simp only [hdiv, hpair]
  unfold secondsPerDay at hrem ⊢
  simp (disch := omega) only [fit_small hM, rem_small hM, wrap_small, pure_bind]

theorem lookupFooterIn_eq (hM : M.Lawful) {footer : Footer} (hvalid : footer.Valid)
    (lastTxSec : Int) {t : Int} (ht : 0 ≤ t ∧ t ≤ 253402300799) :
    lookupFooterIn M footer lastTxSec t = pure (footer.lookup lastTxSec t) := by
  cases footer with
  | standard name offset => rfl
  | seasonal stdName stdOffset dstName dstOffset startRule endRule =>
    obtain ⟨hstd, hdst, hstart, hend⟩ := hvalid
    have hyear := utcYear_range ht
    have hmem := utcYear_mem t
    have hlength := yearLength_cases (utcYear t)
    have hyears : 1 ≤ utcYear t ∧ utcYear t ≤ 2 ^ 29 := by omega
    have hstdRange : -2 ^ 33 ≤ stdOffset ∧ stdOffset ≤ 2 ^ 33 := by omega
    have hdstRange : -2 ^ 33 ≤ dstOffset ∧ dstOffset ≤ 2 ^ 33 := by omega
    obtain ⟨hs, hsrange⟩ := tzruleTimeIn_eq hM hstart hyears hstdRange
    obtain ⟨he, herange⟩ := tzruleTimeIn_eq hM hend hyears hdstRange
    unfold lookupFooterIn Footer.lookup
    simp only [yearOfIn_eq hM ht, yearOf_eq ht, pure_bind, hs, he]
    generalize tzruleTime (utcYear t) startRule stdOffset = startSec at hsrange ⊢
    generalize tzruleTime (utcYear t) endRule dstOffset = endSec at herange ⊢
    unfold yearSeconds at hmem ⊢
    unfold secondsPerDay
    by_cases hflip : endSec < startSec
    · simp only [if_pos hflip]
      simp (disch := omega) only [fit_small hM, wrap_small, pure_bind,
        ← apply_ite (pure : RawLookup → m RawLookup)]
    · simp only [if_neg hflip]
      simp (disch := omega) only [fit_small hM, wrap_small, pure_bind,
        ← apply_ite (pure : RawLookup → m RawLookup)]

/-- `tzset` neither overflows nor indexes past the text nor divides by zero. -/
theorem tzsetIn_eq (hM : M.Lawful) {s : Bytes} (hs : M.Addressable s) (lastTxSec : Int) {t : Int}
    (ht : 0 ≤ t ∧ t ≤ 253402300799) : tzsetIn M s lastTxSec t = pure (tzset s lastTxSec t) := by
  unfold tzsetIn tzset
  apply tryOption_eq (tzsetFooterIn_eq hM hs)
  intro footer hfooter
  rw [lookupFooterIn_eq hM (tzsetFooter_sound hfooter).valid lastTxSec ht, pure_bind]

end Readings

end RatifyProtocol.V2
