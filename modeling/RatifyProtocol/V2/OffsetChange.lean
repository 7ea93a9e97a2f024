import Mathlib.Order.Bounds.Basic
import RatifyProtocol.V2.ZoneLookup
set_option autoImplicit false

/-!
# V2: the next change of a UTC offset

`next_utc_offset_change_v2` of `v2/authorization.rs`: a walk over lookup periods
to the first instant whose offset is another one.  Every round moves forward, so
the walk ends; in a zone with increasing transition times no period hides a
change, so it ends at the least one.
-/

namespace RatifyProtocol.V2

open Foundation

/-- The loop of `next_utc_offset_change_v2` from a candidate on, for so many
rounds; the outer `none` says that they were not enough. -/
def nextUtcOffsetChangeFrom (z : Zone) (offset : Int) : Nat → Int → Option (Option Int)
  | 0, _ => none
  | rounds + 1, candidate =>
    if candidate ≤ v2MaxTimestampSeconds then
      match (z.lookup candidate).stop with
      | none => some none
      | some stop =>
        -- The leap-year bound can equal the instant it was computed from; resume at the
        -- next UTC year.
        let stop :=
          if stop ≤ candidate then
            unixFromCivilUtc ((civilFromUnix candidate).year + 1) 1 1 0 0 0
          else stop
        if (z.lookup stop).offsetSeconds ≠ offset then some (some stop)
        else nextUtcOffsetChangeFrom z offset rounds stop
    else some none

/-- `next_utc_offset_change_v2`. -/
def nextUtcOffsetChangeV2 (z : Zone) (now : Int) (rounds : Nat) : Option (Option Int) :=
  nextUtcOffsetChangeFrom z (z.lookup now).offsetSeconds rounds now

/-! ## Progress -/

/-- The start of the UTC year after an instant. -/
theorem nextYear_eq {t : Int} (ht : 0 ≤ t ∧ t ≤ 253402300799) :
    unixFromCivilUtc ((civilFromUnix t).year + 1) 1 1 0 0 0 = yearSeconds (utcYear t + 1) := by
  have hcivil : civilFromUnix t = Civil.ofTime (CivilTime.ofSeconds t) :=
    civilFromUnixIn_eq Arith.lawful_wrapping (by omega)
  have hyear : (civilFromUnix t).year = utcYear t := by
    rw [hcivil]
    rfl
  have hrange := utcYear_range ht
  let start : CivilTime :=
    ⟨Date.firstOf (utcYear t + 1) 1 (by decide), 0, 0, 0, by decide, by decide, by decide⟩
  have hstart := unixFromCivilUtcIn_ofTime Arith.lawful_wrapping (c := start)
    (show 1 ≤ utcYear t + 1 ∧ utcYear t + 1 ≤ 2 ^ 29 by omega)
  rw [hyear]
  refine Eq.trans hstart ?_
  show start.seconds = _
  simp only [start, CivilTime.seconds, Date.dayNumber, Date.firstOf, daysBeforeMonth_one,
    yearSeconds]
  omega

theorem lt_nextYear (t : Int) : t < yearSeconds (utcYear t + 1) := by
  rw [yearSeconds_succ]
  exact (utcYear_mem t).2

/-- The instant at which a round of the loop arrives. -/
def roundEnd (stop candidate : Int) : Int :=
  if stop ≤ candidate then yearSeconds (utcYear candidate + 1) else stop

theorem lt_roundEnd (stop candidate : Int) : candidate < roundEnd stop candidate := by
  unfold roundEnd
  split
  · exact lt_nextYear candidate
  · rename_i h
    exact not_le.mp h

/-- One round of the loop. -/
theorem nextUtcOffsetChangeFrom_succ {z : Zone} {offset candidate : Int} {rounds : Nat}
    (h : 0 ≤ candidate ∧ candidate ≤ 253402300799) :
    nextUtcOffsetChangeFrom z offset (rounds + 1) candidate
      = if (z.lookupRaw candidate).stop = omegaTime then some none
        else
          let next := roundEnd (z.lookupRaw candidate).stop candidate
          if (z.lookupRaw next).offset ≠ offset then some (some next)
          else nextUtcOffsetChangeFrom z offset rounds next := by
  rw [nextUtcOffsetChangeFrom, if_pos (show candidate ≤ v2MaxTimestampSeconds from h.2)]
  simp only [Zone.lookup, nextYear_eq h, roundEnd]
  by_cases hstop : (z.lookupRaw candidate).stop = omegaTime
  · rw [if_neg (not_not.mpr hstop), if_pos hstop]
  · rw [if_pos hstop, if_neg hstop]
    rfl

theorem nextUtcOffsetChangeFrom_late {z : Zone} {offset candidate : Int} {rounds : Nat}
    (h : 253402300799 < candidate) :
    nextUtcOffsetChangeFrom z offset (rounds + 1) candidate = some none := by
  unfold nextUtcOffsetChangeFrom
  exact if_neg (not_le.mpr h)

/-- The loop ends, and further rounds do not change its result: the candidate
grows by at least a second in each. -/
theorem nextUtcOffsetChangeFrom_terminates (z : Zone) (offset : Int) (rounds : Nat)
    {candidate : Int} (hpos : 0 ≤ candidate) (h : 253402300800 - candidate < rounds)
    (hrounds : 0 < rounds) :
    ∃ r, ∀ more, nextUtcOffsetChangeFrom z offset (rounds + more) candidate = some r := by
  induction rounds generalizing candidate with
  | zero => omega
  | succ rounds ih =>
    by_cases hlate : 253402300799 < candidate
    · refine ⟨none, fun more => ?_⟩
      rw [Nat.succ_add_eq_add_succ]
      exact nextUtcOffsetChangeFrom_late hlate
    · have hrange : 0 ≤ candidate ∧ candidate ≤ 253402300799 := ⟨hpos, not_lt.mp hlate⟩
      have hgrow := lt_roundEnd (z.lookupRaw candidate).stop candidate
      by_cases hstop : (z.lookupRaw candidate).stop = omegaTime
      · refine ⟨none, fun more => ?_⟩
        rw [Nat.add_right_comm, nextUtcOffsetChangeFrom_succ hrange, if_pos hstop]
      by_cases hchange : (z.lookupRaw (roundEnd (z.lookupRaw candidate).stop candidate)).offset
          ≠ offset
      · refine ⟨some (roundEnd (z.lookupRaw candidate).stop candidate), fun more => ?_⟩
        rw [Nat.add_right_comm, nextUtcOffsetChangeFrom_succ hrange, if_neg hstop]
        exact if_pos hchange
      · obtain ⟨r, hr⟩ := @ih (roundEnd (z.lookupRaw candidate).stop candidate)
          (by omega) (by omega) (by omega)
        refine ⟨r, fun more => ?_⟩
        rw [Nat.add_right_comm, nextUtcOffsetChangeFrom_succ hrange, if_neg hstop]
        exact (if_neg hchange).trans (hr more)

/-! ## Leastness -/

namespace Zone

variable {z : Zone} {t : Int}

/-- Only a footer reports an end that it has reached, and then the rest of the
year looks up to the same offset. -/
theorem lookupRaw_until_year (hz : z.WellFormed) (hs : z.Sorted) (hy : z.FooterWithinYear)
    (ht : 0 ≤ t ∧ t ≤ 253402300799) (hstop : (z.lookupRaw t).stop ≤ t) {u : Int} (htu : t ≤ u)
    (hu : u < yearSeconds (utcYear t + 1)) (hlast : u ≤ 253402300799) :
    (z.lookupRaw u).offset = (z.lookupRaw t).offset := by
  cases z.lookupCase hz t with
  | beforeTable zone e he hlt hzone heq =>
    rw [heq] at hstop
    exact absurd hlt (not_lt.mpr hstop)
  | table k e e' zone he he' hzone heq =>
    rw [heq] at hstop
    exact absurd (he.2.2 e' he') (not_lt.mpr hstop)
  | lastEntry k e zone he hlast hnone hzone heq =>
    rw [heq] at hstop
    simp only [RawLookup.fromZone, omegaTime] at hstop
    omega
  | footer k e f he hfinal hext hf heq =>
    rw [heq] at hstop ⊢
    have hnext : ∀ x, z.tx[k + 1]? = some x → u < x.at_ := by
      intro x hx
      have hbound := (List.getElem?_eq_some_iff.mp hx).1
      omega
    obtain ⟨zone', -, hnone, -⟩ | ⟨f', -, -, hf', heq'⟩ :=
      lookupRaw_of_entryAt hz hs he htu hnext
    · obtain hnone | hnone := hnone hfinal
      · exact absurd hnone hext
      · rw [hf] at hnone
        cases hnone
    · rw [hf] at hf'
      obtain rfl := Option.some.inj hf'
      rw [heq']
      exact Footer.lookup_until_year (tzsetFooter_sound hf).valid (hy f hf) ht e.at_ hstop htu hu
        hlast

/-- A round of the loop passes over no change. -/
theorem lookupRaw_until_roundEnd (hz : z.WellFormed) (hs : z.Sorted) (hy : z.FooterWithinYear)
    (ht : 0 ≤ t ∧ t ≤ 253402300799) {u : Int} (htu : t ≤ u)
    (hu : u < roundEnd (z.lookupRaw t).stop t) (hlast : u ≤ 253402300799) :
    (z.lookupRaw u).offset = (z.lookupRaw t).offset := by
  unfold roundEnd at hu
  split at hu
  · rename_i hstop
    exact lookupRaw_until_year hz hs hy ht hstop htu hu hlast
  · exact lookupRaw_until_stop hz hs hy ht htu hu

end Zone

/-- What the loop finds: the first change after `now`, or none. -/
def FindsChange (z : Zone) (now : Int) : Option Int → Prop
  | some s => now < s ∧ (z.lookupRaw s).offset ≠ (z.lookupRaw now).offset
      ∧ ∀ u, now ≤ u → u < s → u ≤ 253402300799 →
        (z.lookupRaw u).offset = (z.lookupRaw now).offset
  | none => ∀ u, now ≤ u → u ≤ 253402300799 →
      (z.lookupRaw u).offset = (z.lookupRaw now).offset

/-- The loop started anywhere before the first change finds it. -/
theorem nextUtcOffsetChangeFrom_finds {z : Zone} (hz : z.WellFormed) (hs : z.Sorted)
    (hy : z.FooterWithinYear) {now : Int} (hnow : 0 ≤ now) {rounds : Nat} {candidate : Int}
    {r : Option Int} (hle : now ≤ candidate)
    (hsame : ∀ u, now ≤ u → u ≤ candidate → u ≤ 253402300799 →
      (z.lookupRaw u).offset = (z.lookupRaw now).offset)
    (h : nextUtcOffsetChangeFrom z (z.lookupRaw now).offset rounds candidate = some r) :
    FindsChange z now r := by
  induction rounds generalizing candidate with
  | zero => cases h
  | succ rounds ih =>
    by_cases hlate : 253402300799 < candidate
    · rw [nextUtcOffsetChangeFrom_late hlate] at h
      obtain rfl := Option.some.inj h
      exact fun u hu hlast => hsame u hu (by omega) hlast
    have hrange : 0 ≤ candidate ∧ candidate ≤ 253402300799 := by omega
    have hcandidate := hsame candidate hle (le_refl _) hrange.2
    have hgrow := lt_roundEnd (z.lookupRaw candidate).stop candidate
    rw [nextUtcOffsetChangeFrom_succ hrange] at h
    split at h
    · -- No end is reported: the offset never changes again.
      rename_i hstop
      obtain rfl := Option.some.inj h
      intro u hu hlast
      by_cases huc : u ≤ candidate
      · exact hsame u hu huc hlast
      · rw [← hcandidate]
        refine Zone.lookupRaw_until_stop hz hs hy hrange (by omega) ?_
        rw [hstop, omegaTime]
        omega
    · have hround : ∀ u, now ≤ u → u < roundEnd (z.lookupRaw candidate).stop candidate →
          u ≤ 253402300799 → (z.lookupRaw u).offset = (z.lookupRaw now).offset := by
        intro u hu hend hlast
        by_cases huc : u ≤ candidate
        · exact hsame u hu huc hlast
        · rw [← hcandidate]
          exact Zone.lookupRaw_until_roundEnd hz hs hy hrange (by omega) hend hlast
      dsimp only at h
      split at h
      · rename_i hchange
        obtain rfl := Option.some.inj h
        exact ⟨by omega, hchange, hround⟩
      · rename_i hkeep
        refine ih (by omega) (fun u hu hend hlast => ?_) h
        obtain hlt | rfl := lt_or_eq_of_le hend
        · exact hround u hu hlt hlast
        · exact not_not.mp hkeep

/-- The instants of the domain after `now` at which the offset is another one. -/
def OffsetChanges (z : Zone) (now : Int) : Set Int :=
  { t | now < t ∧ validV2Timestamp t = true
    ∧ (z.lookup t).offsetSeconds ≠ (z.lookup now).offsetSeconds }

/-- The loop returns for every parsed zone.  Where the transition times increase
and the footer rules stay within their UTC year it returns the least change in
the domain, if there is one, and otherwise none or an instant beyond the
domain. -/
theorem nextUtcOffsetChange_least {name : String} {data : Bytes} {z : Zone} {now : Int}
    (hparse : parseTzif name data = .ok z) (hnow : validV2Timestamp now = true) :
    ∃ r, (∃ enough, ∀ rounds ≥ enough, nextUtcOffsetChangeV2 z now rounds = some r)
      ∧ (z.Sorted → z.FooterWithinYear →
        ((OffsetChanges z now).Nonempty → ∃ s, r = some s ∧ IsLeast (OffsetChanges z now) s)
          ∧ (¬ (OffsetChanges z now).Nonempty →
            r = none ∨ ∃ s, r = some s ∧ v2MaxTimestampSeconds < s)) := by
  have hz := parseTzif_wellFormed hparse
  rw [validV2Timestamp_iff, v2MaxTimestampSeconds] at hnow
  obtain ⟨r, hr⟩ := nextUtcOffsetChangeFrom_terminates z (z.lookup now).offsetSeconds
    ((253402300799 - now).toNat + 2) hnow.1 (by omega) (by omega)
  refine ⟨r, ⟨(253402300799 - now).toNat + 2, fun rounds hrounds => ?_⟩, fun hs hy => ?_⟩
  · obtain ⟨more, rfl⟩ := Nat.exists_eq_add_of_le hrounds
    exact hr more
  have hfinds : FindsChange z now r :=
    nextUtcOffsetChangeFrom_finds hz hs hy hnow.1 (le_refl now)
      (fun u hu hle _ => by rw [le_antisymm hle hu]) (hr 0)
  constructor
  · rintro ⟨u, hnu, huValid, huChange⟩
    rw [validV2Timestamp_iff, v2MaxTimestampSeconds] at huValid
    cases r with
    | none => exact absurd (hfinds u hnu.le huValid.2) huChange
    | some s =>
      obtain ⟨hlt, hchange, hbefore⟩ := hfinds
      have hsu : s ≤ u := by
        by_contra hus
        exact huChange (hbefore u hnu.le (not_le.mp hus) huValid.2)
      refine ⟨s, rfl, ⟨hlt, ?_, hchange⟩, fun v hv => ?_⟩
      · rw [validV2Timestamp_iff, v2MaxTimestampSeconds]
        omega
      · obtain ⟨hnv, hvValid, hvChange⟩ := hv
        rw [validV2Timestamp_iff, v2MaxTimestampSeconds] at hvValid
        by_contra hvs
        exact hvChange (hbefore v hnv.le (not_le.mp hvs) hvValid.2)
  · intro hempty
    cases r with
    | none => exact Or.inl rfl
    | some s =>
      obtain ⟨hlt, hchange, -⟩ := hfinds
      refine Or.inr ⟨s, rfl, ?_⟩
      by_contra hwithin
      refine hempty ⟨s, hlt, ?_, hchange⟩
      rw [validV2Timestamp_iff]
      exact ⟨by omega, not_lt.mp hwithin⟩

/-- In the southern zone the loop returns from January 2024, and what it returns is
the least change. -/
theorem nextUtcOffsetChange_least_southern :
    ∃ r, (∃ enough, ∀ rounds ≥ enough,
        nextUtcOffsetChangeV2 southernZone 1704067200 rounds = some r)
      ∧ ((OffsetChanges southernZone 1704067200).Nonempty →
        ∃ s, r = some s ∧ IsLeast (OffsetChanges southernZone 1704067200) s) := by
  obtain ⟨r, hr, hleast⟩ :=
    @nextUtcOffsetChange_least "South" southernData southernZone 1704067200
      parseTzif_southernData (by decide)
  exact ⟨r, hr, (hleast (List.pairwise_singleton _ _) southernZone_withinYear).1⟩

/-! ## A table that is not in order -/

/-- Version 1: transitions at 0, 100, 50 and 200; the two in the middle go to an
offset of one hour. -/
def unsortedData : Bytes :=
  utf8 "TZif" ++ List.replicate 16 0
    ++ u32Bytes 0 ++ u32Bytes 0 ++ u32Bytes 0 ++ u32Bytes 4 ++ u32Bytes 2 ++ u32Bytes 2
    ++ u32Bytes 0 ++ u32Bytes 100 ++ u32Bytes 50 ++ u32Bytes 200 ++ [0, 1, 1, 0]
    ++ (u32Bytes 0 ++ [0, 0]) ++ ([0, 0, 14, 16] ++ [1, 0]) ++ utf8 "A\x00"

def unsortedZone : Zone :=
  { name := "Unsorted"
    zones := [{ name := utf8 "A", offset := 0, isDst := false },
      { name := utf8 "A", offset := 3600, isDst := true }]
    tx := [{ at_ := 0, index := 0 }, { at_ := 100, index := 1 }, { at_ := 50, index := 1 },
      { at_ := 200, index := 0 }]
    extend := [] }

/-- At 10 the loop returns 100, but the offset is another one from 50 on. -/
theorem nextUtcOffsetChange_unsorted :
    parseTzif "Unsorted" unsortedData = .ok unsortedZone ∧ unsortedZone.FooterWithinYear
      ∧ nextUtcOffsetChangeV2 unsortedZone 10 1 = some (some 100)
      ∧ (50 : Int) ∈ OffsetChanges unsortedZone 10
      ∧ ¬ IsLeast (OffsetChanges unsortedZone 10) 100 := by
  have hchange : (50 : Int) ∈ OffsetChanges unsortedZone 10 :=
    ⟨by decide, by decide, by decide⟩
  refine ⟨by decide +kernel, ?_, by decide, hchange, fun hleast => ?_⟩
  · intro footer hfooter
    have hnone : tzsetFooter unsortedZone.extend = none := rfl
    rw [hnone] at hfooter
    cases hfooter
  · exact absurd (hleast.2 hchange) (by decide)

end RatifyProtocol.V2
