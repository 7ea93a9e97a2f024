import RatifyProtocol.Foundation.Horizon
import RatifyProtocol.V2.Delegation.Bundle
import RatifyProtocol.V2.Delegation.Evaluate
import RatifyProtocol.V2.OffsetChange
set_option autoImplicit false

/-!
# V2: how long the time windows hold

`local_time_window_valid_until_v2` of `v2/authorization.rs`.  While the offset
of a zone stays, its local time runs with the clock, so a window that holds now
holds to the end of its last minute on the local day where it ends; the horizon
stops at the next change of the offset if that comes first.
-/

namespace RatifyProtocol.V2

open Foundation

/-! ## The horizon -/

/-- Rounds that the search for the next change never uses up. -/
def offsetChangeRounds (now : Int) : Nat := (v2MaxTimestampSeconds - now).toNat + 2

/-- `next_utc_offset_change_v2`, run to its end. -/
def nextUtcOffsetChange (z : Zone) (now : Int) : Option Int :=
  (nextUtcOffsetChangeV2 z now (offsetChangeRounds now)).join

/-- The instant after the last minute of a window, at the offset of `now`. -/
def windowEnd (local_ : LocalTime) (start end_ : Int) : Int :=
  let dayOffset : Int := if start > end_ ∧ local_.minuteOfDay ≥ start then 1 else 0
  IntType.i64.wrap
    (unixFromCivilUtc local_.year local_.month (local_.day + dayOffset) 0 (end_ + 1) 0
      - local_.offset)

/-- The end of a window or the next change of the offset, whichever is first. -/
def windowUntil (z : Zone) (start end_ now : Int) : Int :=
  match nextUtcOffsetChange z now with
  | some change => min change (windowEnd (localTime z now) start end_)
  | none => windowEnd (localTime z now) start end_

/-- What one window adds to the horizon. -/
def windowContribution (archive : ZoneArchive) (tzdbVersion : String) (now : Int)
    (c : ConstraintV2) : V2Result Int := do
  let zone ← (loadV2TimeZone archive tzdbVersion c.tz).mapError V2Error.plain
  let start ← parseHhmmV2 c.start
  let end_ ← parseHhmmV2 c.end_
  if ¬ InsideWindow start end_ (localTime zone now).minuteOfDay then
    plain "time window is no longer current"
  else if windowUntil zone start end_ now ≤ now then
    plain "time window has no valid terminal horizon"
  -- A horizon past the timestamp domain is clamped to its upper bound.
  else .ok (min (windowUntil zone start end_ now) v2MaxTimestampSeconds)

/-- The loop over the constraints, with the horizon so far. -/
def localTimeWindowValidUntilFrom (archive : ZoneArchive) (tzdbVersion : String) (now : Int) :
    Int → List ConstraintV2 → V2Result Int
  | horizon, [] => .ok horizon
  | horizon, c :: cs =>
    if c.kind ≠ constraintTimeWindow then
      localTimeWindowValidUntilFrom archive tzdbVersion now horizon cs
    else do
      let contribution ← windowContribution archive tzdbVersion now c
      localTimeWindowValidUntilFrom archive tzdbVersion now (tighten horizon contribution) cs

/-- The constraints of a bundle, certificate by certificate. -/
def ProofBundleV2.constraints (b : ProofBundleV2) : List ConstraintV2 :=
  b.delegations.flatMap DelegationCertV2.constraints

/-- `local_time_window_valid_until_v2`. -/
def localTimeWindowValidUntilV2 (archive : ZoneArchive) (b : ProofBundleV2)
    (tzdbVersion : String) (now : Int) : V2Result Int :=
  localTimeWindowValidUntilFrom archive tzdbVersion now 0 b.constraints

/-- The loop gathers the contributions of the windows and folds them. -/
theorem localTimeWindowValidUntilFrom_eq (archive : ZoneArchive) (tzdbVersion : String)
    (now horizon : Int) (cs : List ConstraintV2) :
    localTimeWindowValidUntilFrom archive tzdbVersion now horizon cs
      = ((cs.filter fun c => c.kind = constraintTimeWindow).mapM
          (windowContribution archive tzdbVersion now)).map fun xs => xs.foldl tighten horizon := by
  induction cs generalizing horizon with
  | nil => rfl
  | cons c cs ih =>
    rw [localTimeWindowValidUntilFrom]
    by_cases hkind : c.kind = constraintTimeWindow
    · rw [if_neg (not_not.mpr hkind), List.filter_cons_of_pos (by simpa using hkind),
        List.mapM_cons]
      cases windowContribution archive tzdbVersion now c with
      | error e => rfl
      | ok x =>
        show localTimeWindowValidUntilFrom archive tzdbVersion now (tighten horizon x) cs = _
        rw [ih]
        cases (cs.filter fun c => c.kind = constraintTimeWindow).mapM
          (windowContribution archive tzdbVersion now) <;> rfl
    · rw [if_pos hkind, List.filter_cons_of_neg (by simpa using hkind), ih]

/-! ## Local time -/

namespace Zone

variable {z : Zone} {t : Int}

theorem offset_range (hz : z.WellFormed) (hy : z.FooterWithinYear)
    (ht : 0 ≤ t ∧ t ≤ 253402300799) :
    -2147483648 ≤ (z.lookupRaw t).offset ∧ (z.lookupRaw t).offset ≤ 2147483647 := by
  cases z.lookupCase hz t with
  | beforeTable zone e he hlt hzone heq =>
    rw [heq]
    exact hz.offset_range zone (List.mem_of_getElem? hzone)
  | table k e e' zone he he' hzone heq =>
    rw [heq]
    exact hz.offset_range zone (List.mem_of_getElem? hzone)
  | lastEntry k e zone he hlast hnone hzone heq =>
    rw [heq]
    exact hz.offset_range zone (List.mem_of_getElem? hzone)
  | footer k e f he hlast hext hf heq =>
    rw [heq]
    have hvalid := (tzsetFooter_sound hf).valid
    have hoffset := Footer.offsetAt_lookup hvalid (hy f hf) ht e.at_
    cases f with
    | standard name offset =>
      obtain ⟨hlow, hhigh⟩ := hvalid
      simp only [Footer.OffsetAt] at hoffset
      omega
    | seasonal stdName stdOffset dstName dstOffset startRule endRule =>
      obtain ⟨hstd, hdst, -, -⟩ := hvalid
      obtain ⟨ds, de, -, -, hoffset⟩ := hoffset
      rw [hoffset]
      split <;> omega

end Zone

/-- The local time of an instant is the civil time of the shifted second count. -/
theorem localTime_eq {z : Zone} (hz : z.WellFormed) (hy : z.FooterWithinYear) {t : Int}
    (ht : 0 ≤ t ∧ t ≤ 253402300799) :
    localTime z t =
      { offset := (z.lookupRaw t).offset
        year := (dateOfDay ((t + (z.lookupRaw t).offset) / 86400)).year
        month := (dateOfDay ((t + (z.lookupRaw t).offset) / 86400)).month
        day := (dateOfDay ((t + (z.lookupRaw t).offset) / 86400)).day
        minuteOfDay := (t + (z.lookupRaw t).offset) % 86400 / 60 } := by
  have hoffset := Zone.offset_range hz hy ht
  have hlookup : (z.lookup t).offsetSeconds = (z.lookupRaw t).offset := rfl
  have hcivil : civilFromUnix (t + (z.lookupRaw t).offset)
      = Civil.ofTime (CivilTime.ofSeconds (t + (z.lookupRaw t).offset)) :=
    civilFromUnixIn_eq Arith.lawful_wrapping (by omega)
  simp only [localTime, hlookup, wrap_small (show -2 ^ 50 ≤ t + (z.lookupRaw t).offset
    ∧ t + (z.lookupRaw t).offset ≤ 2 ^ 50 by omega), hcivil, Civil.ofTime, CivilTime.ofSeconds,
    LocalTime.mk.injEq, true_and]
  omega

/-! ## Windows in local seconds -/

/-- Days from the local day `l / 86400` to the day where the window ends. -/
def daysToEnd (start end_ l : Int) : Int :=
  if start > end_ ∧ l % 86400 / 60 ≥ start then 1 else 0

/-- The local second after the last minute of the window. -/
def localEnd (start end_ l : Int) : Int :=
  (l / 86400 + daysToEnd start end_ l) * 86400 + (end_ + 1) * 60

/-- A window that holds is not over. -/
theorem lt_localEnd {start end_ l : Int} (h : InsideWindow start end_ (l % 86400 / 60))
    (hend : 0 ≤ end_) : l < localEnd start end_ l := by
  unfold InsideWindow at h
  unfold localEnd daysToEnd
  split at h <;> split <;> omega

/-- A window that holds keeps holding up to its end. -/
theorem insideWindow_of_lt_localEnd {start end_ l u : Int}
    (hend : 0 ≤ end_ ∧ end_ ≤ 1439) (h : InsideWindow start end_ (l % 86400 / 60)) (hlu : l ≤ u)
    (hu : u < localEnd start end_ l) : InsideWindow start end_ (u % 86400 / 60) := by
  unfold InsideWindow at h ⊢
  unfold localEnd daysToEnd at hu
  by_cases hwrap : start ≤ end_
  · rw [if_pos hwrap] at h ⊢
    rw [if_neg (by omega)] at hu
    omega
  · rw [if_neg hwrap] at h ⊢
    split at hu <;> omega

theorem parseHhmmV2_range {s : String} {n : Int} (h : parseHhmmV2 s = .ok n) :
    0 ≤ n ∧ n ≤ 1439 := by
  unfold parseHhmmV2 at h
  split at h
  · simp only [refuseIf_bind_eq_ok_iff, Except.ok.injEq, decide_eq_false_iff_not] at h
    obtain ⟨hdigits, hrange, rfl⟩ := h
    simp only [List.all_cons, List.all_nil, isAsciiDigit, Bool.and_true, Bool.or_eq_false_iff,
      Bool.not_eq_false', Bool.and_eq_true, decide_eq_true_eq, UInt8.le_iff_toNat_le, UInt8.reduceToNat] at hdigits
    omega
  · simp at h

/-- The end of a window, counted from the local second of `t`. -/
theorem windowEnd_eq {z : Zone} (hz : z.WellFormed) (hy : z.FooterWithinYear) {t : Int}
    (ht : 0 ≤ t ∧ t ≤ 253402300799) (start : Int) {end_ : Int} (hend : 0 ≤ end_ ∧ end_ ≤ 1439) :
    windowEnd (localTime z t) start end_
      = localEnd start end_ (t + (z.lookupRaw t).offset) - (z.lookupRaw t).offset := by
  have hoffset := Zone.offset_range hz hy ht
  rw [localTime_eq hz hy ht]
  generalize (z.lookupRaw t).offset = offset at hoffset ⊢
  have hyear := year_ofSeconds_range (show -62000000000 ≤ t + offset ∧ t + offset ≤ 2 ^ 50 by omega)
  have hnumber : (dateOfDay ((t + offset) / 86400)).dayNumber = (t + offset) / 86400 :=
    dayNumber_dateOfDay _
  simp only [CivilTime.ofSeconds] at hyear
  generalize dateOfDay ((t + offset) / 86400) = date at hyear hnumber ⊢
  have hmonth := date.month_range
  have hday := date.day_range
  have hlength := monthLength_bounds date.year date.month
  have hdays : 0 ≤ daysToEnd start end_ (t + offset) ∧ daysToEnd start end_ (t + offset) ≤ 1 := by
    unfold daysToEnd
    split <;> omega
  have hseconds : unixFromCivilUtc date.year date.month
        (date.day + daysToEnd start end_ (t + offset)) 0 (end_ + 1) 0
      = localEnd start end_ (t + offset) := by
    have hexact := unixFromCivilUtc_eq
      (f := ⟨date.year, date.month, date.day + daysToEnd start end_ (t + offset), 0, end_ + 1, 0⟩)
      ⟨hyear, by dsimp only; omega, by dsimp only; omega, by dsimp only; omega,
        by dsimp only; omega, by dsimp only; omega⟩
    refine hexact.trans ?_
    rw [CivilFields.seconds_of_month (by dsimp only; omega) (by dsimp only; omega)]
    unfold localEnd
    rw [← hnumber]
    simp only [Date.dayNumber, Date.firstOf, Int.toNat_natCast]
    omega
  have hrange : -2 ^ 50 ≤ localEnd start end_ (t + offset) - offset
      ∧ localEnd start end_ (t + offset) - offset ≤ 2 ^ 50 := by
    unfold localEnd
    omega
  refine Eq.trans ?_ (wrap_small hrange)
  rw [← hseconds]
  rfl

/-- The search for the next change ends, and finds it. -/
theorem nextUtcOffsetChange_finds {z : Zone} (hz : z.WellFormed) (hs : z.Sorted)
    (hy : z.FooterWithinYear) {now : Int} (hnow : 0 ≤ now) :
    nextUtcOffsetChangeV2 z now (offsetChangeRounds now) = some (nextUtcOffsetChange z now)
      ∧ FindsChange z now (nextUtcOffsetChange z now) := by
  obtain ⟨r, hr⟩ := nextUtcOffsetChangeFrom_terminates z (z.lookup now).offsetSeconds
    (offsetChangeRounds now) hnow (by
      unfold offsetChangeRounds v2MaxTimestampSeconds
      omega)
    (Nat.succ_pos _)
  have hrun : nextUtcOffsetChangeV2 z now (offsetChangeRounds now) = some r := hr 0
  have hjoin : nextUtcOffsetChange z now = r := by
    unfold nextUtcOffsetChange
    rw [hrun]
    rfl
  rw [hjoin]
  exact ⟨hrun, nextUtcOffsetChangeFrom_finds hz hs hy hnow (le_refl now)
    (fun u hu hle _ => by rw [le_antisymm hle hu]) hrun⟩

/-- Up to `windowUntil` the offset stays, and the window does not end. -/
theorem windowUntil_spec {z : Zone} (hz : z.WellFormed) (hs : z.Sorted)
    (hy : z.FooterWithinYear) {now : Int} (hnow : 0 ≤ now ∧ now ≤ 253402300799)
    (start end_ : Int) :
    (∀ t, now ≤ t → t < windowUntil z start end_ now → t ≤ 253402300799 →
        (z.lookupRaw t).offset = (z.lookupRaw now).offset)
      ∧ windowUntil z start end_ now ≤ windowEnd (localTime z now) start end_
      ∧ (now < windowEnd (localTime z now) start end_ → now < windowUntil z start end_ now) := by
  have hfinds := (nextUtcOffsetChange_finds hz hs hy hnow.1).2
  unfold windowUntil
  cases hchange : nextUtcOffsetChange z now with
  | none =>
    rw [hchange] at hfinds
    exact ⟨fun t hle _ hlast => hfinds t hle hlast, le_refl _, id⟩
  | some change =>
    rw [hchange] at hfinds
    obtain ⟨hlt, -, hbefore⟩ := hfinds
    exact ⟨fun t hle hu hlast => hbefore t hle (lt_of_lt_of_le hu (min_le_left _ _)) hlast,
      min_le_right _ _, fun hend => lt_min hlt hend⟩

/-- A window that holds now holds up to `windowUntil`. -/
theorem insideWindow_until {z : Zone} (hz : z.WellFormed) (hs : z.Sorted)
    (hy : z.FooterWithinYear) {now : Int} (hnow : 0 ≤ now ∧ now ≤ 253402300799)
    {start end_ : Int} (hend : 0 ≤ end_ ∧ end_ ≤ 1439)
    (hin : InsideWindow start end_ (localTime z now).minuteOfDay) :
    now < windowUntil z start end_ now
      ∧ ∀ t, now ≤ t → t < windowUntil z start end_ now → t ≤ 253402300799 →
        InsideWindow start end_ (localTime z t).minuteOfDay := by
  obtain ⟨hsame, hle, hlt⟩ := windowUntil_spec hz hs hy hnow start end_
  rw [windowEnd_eq hz hy hnow start hend] at hle hlt
  rw [localTime_eq hz hy hnow] at hin
  have hstart := lt_localEnd hin hend.1
  refine ⟨hlt (by omega), fun t hnt htu hlast => ?_⟩
  rw [localTime_eq hz hy ⟨by omega, hlast⟩]
  dsimp only
  rw [hsame t hnt htu hlast]
  exact insideWindow_of_lt_localEnd hend hin (by omega) (by omega)

/-! ## Every window -/

/-- Increasing transition times, and footer rules that take effect within their
UTC year: so is every zone of the pinned database. -/
def Zone.Regular (z : Zone) : Prop := z.Sorted ∧ z.FooterWithinYear

variable {archive : ZoneArchive} {tzdbVersion : String}

theorem loadZone_wellFormed {name : String} {z : Zone} (h : loadZone archive name = .ok z) :
    z.WellFormed := by
  unfold loadZone at h
  obtain ⟨index, -, h⟩ := bind_eq_ok_iff.mp h
  split at h
  · cases h
  · obtain ⟨data, -, h⟩ := bind_eq_ok_iff.mp h
    exact parseTzif_wellFormed (mapError_eq_ok_iff.mp h)

theorem loadZone_eq_ok {index : String → Option (Except String Bytes)} {name : String}
    {data : Bytes} {z : Zone} (hname : ¬ (name = "" ∨ name = "Local"))
    (hentry : index name = some (.ok data)) (hparse : parseTzif name data = .ok z) :
    loadZone (.ok index) name = .ok z := by
  have hparsed : ∀ f : String → String, (parseTzif name data).mapError f = .ok z := by
    intro f
    exact mapError_eq_ok_iff.mpr hparse
  refine bind_eq_ok_iff.mpr ⟨index, rfl, ?_⟩
  rw [if_neg hname, hentry]
  exact bind_eq_ok_iff.mpr ⟨data, rfl, hparsed _⟩

theorem loadV2TimeZone_eq_ok {tz : String} {z : Zone}
    (h : loadV2TimeZone archive tzdbVersion tz = .ok z) : loadZone archive tz = .ok z := by
  unfold loadV2TimeZone at h
  split at h
  · cases h
  · split at h
    · cases h
    · exact h

/-- When a time window passes. -/
theorem evaluateTimeWindow_eq_ok_iff {c : ConstraintV2} {now : Int} :
    evaluateTimeWindow archive c tzdbVersion now = .ok () ↔
      ∃ z start end_, loadV2TimeZone archive tzdbVersion c.tz = .ok z
        ∧ parseHhmmV2 c.start = .ok start ∧ parseHhmmV2 c.end_ = .ok end_
        ∧ InsideWindow start end_ (localTime z now).minuteOfDay := by
  unfold evaluateTimeWindow
  simp only [bind_eq_ok_iff, mapError_eq_ok_iff]
  constructor
  · rintro ⟨z, hz, start, hstart, end_, hend, h⟩
    refine ⟨z, start, end_, hz, hstart, hend, ?_⟩
    by_contra hout
    rw [if_neg hout] at h
    cases h
  · rintro ⟨z, start, end_, hz, hstart, hend, hin⟩
    exact ⟨z, hz, start, hstart, end_, hend, if_pos hin⟩

theorem evaluateConstraintV2_timeWindow {c : ConstraintV2} (h : c.kind = constraintTimeWindow)
    (ctx : ConstraintContextV2) (now : Int) :
    evaluateConstraintV2 archive c ctx tzdbVersion now
      = evaluateTimeWindow archive c tzdbVersion now := by
  have hne : constraintTimeWindow ≠ constraintResourcePath := by decide
  unfold evaluateConstraintV2
  rw [h, if_neg hne, if_pos rfl]

/-- The window passes from `now` on to before `k`, which is ahead unless the
timestamp domain ends there. -/
structure PassesUntil (archive : ZoneArchive) (tzdbVersion : String) (now : Int) (c : ConstraintV2)
    (k : Int) : Prop where
  pos : 0 < k
  ahead : now < k ∨ k = v2MaxTimestampSeconds
  passes : ∀ t, now ≤ t → t < k → evaluateTimeWindow archive c tzdbVersion t = .ok ()

/-- A window that passes adds an instant up to which it passes. -/
theorem windowContribution_of_passes {c : ConstraintV2} {now : Int}
    (hzone : ∀ z, loadZone archive c.tz = .ok z → z.Regular)
    (hnow : 0 ≤ now ∧ now ≤ 253402300799)
    (h : evaluateTimeWindow archive c tzdbVersion now = .ok ()) :
    ∃ k, windowContribution archive tzdbVersion now c = .ok k
      ∧ PassesUntil archive tzdbVersion now c k := by
  obtain ⟨z, start, end_, hload, hstart, hend, hin⟩ := evaluateTimeWindow_eq_ok_iff.mp h
  have hz := loadV2TimeZone_eq_ok hload
  obtain ⟨hs, hy⟩ := hzone z hz
  obtain ⟨hlt, hholds⟩ := insideWindow_until (loadZone_wellFormed hz) hs hy hnow
    (parseHhmmV2_range hend) hin
  have hmax : v2MaxTimestampSeconds = 253402300799 := rfl
  refine ⟨min (windowUntil z start end_ now) v2MaxTimestampSeconds, ?_, ?_, ?_,
    fun t hnt htk => ?_⟩
  · simp only [windowContribution, bind_eq_ok_iff, mapError_eq_ok_iff]
    refine ⟨z, hload, start, hstart, end_, hend, ?_⟩
    rw [if_neg (not_not.mpr hin), if_neg (not_le.mpr hlt)]
  · omega
  · omega
  · exact evaluateTimeWindow_eq_ok_iff.mpr
      ⟨z, start, end_, hload, hstart, hend, hholds t hnt (by omega) (by omega)⟩

/-- When every time window of a bundle passes and its zones are regular, a horizon
is returned.  If there is a window, it is ahead of `now` or at the end of the
timestamp domain, and every window passes at every instant before it. -/
theorem localTimeWindowValidUntilV2_sound (b : ProofBundleV2) (ctx : ConstraintContextV2)
    {now : Int} (hnow : validV2Timestamp now = true)
    (hzones : ∀ c ∈ b.constraints, c.kind = constraintTimeWindow →
      ∀ z, loadZone archive c.tz = .ok z → z.Regular)
    (hpass : ∀ c ∈ b.constraints, c.kind = constraintTimeWindow →
      evaluateConstraintV2 archive c ctx tzdbVersion now = .ok ()) :
    ∃ h, localTimeWindowValidUntilV2 archive b tzdbVersion now = .ok h
      ∧ (h = 0 ↔ ∀ c ∈ b.constraints, c.kind ≠ constraintTimeWindow)
      ∧ (0 < h → (now < h ∨ h = v2MaxTimestampSeconds)
        ∧ ∀ t, now ≤ t → t < h → ∀ c ∈ b.constraints, c.kind = constraintTimeWindow →
          evaluateConstraintV2 archive c ctx tzdbVersion t = .ok ()) := by
  rw [validV2Timestamp_iff, v2MaxTimestampSeconds] at hnow
  have hmem : ∀ c, (c ∈ b.constraints.filter fun c => c.kind = constraintTimeWindow)
      ↔ c ∈ b.constraints ∧ c.kind = constraintTimeWindow := by
    intro c
    simp only [List.mem_filter, decide_eq_true_eq]
  have hwindow : ∀ c ∈ b.constraints.filter fun c => c.kind = constraintTimeWindow,
      ∃ k, windowContribution archive tzdbVersion now c = .ok k
        ∧ PassesUntil archive tzdbVersion now c k := by
    intro c hc
    obtain ⟨hmemc, hkind⟩ := (hmem c).mp hc
    have h := hpass c hmemc hkind
    rw [evaluateConstraintV2_timeWindow hkind] at h
    exact windowContribution_of_passes (hzones c hmemc hkind) hnow h
  obtain ⟨xs, hxs, hto, hfrom⟩ := exists_mapM_eq_ok hwindow
  refine ⟨xs.foldl tighten 0, ?_, ?_⟩
  · unfold localTimeWindowValidUntilV2
    rw [localTimeWindowValidUntilFrom_eq, hxs]
    rfl
  have hpos : ∀ x ∈ xs, 0 < x := by
    intro x hx
    obtain ⟨c, -, hc⟩ := hfrom x hx
    exact hc.pos
  by_cases hne : xs = []
  · -- No window adds anything.
    obtain rfl := hne
    refine ⟨⟨fun _ c hc hkind => ?_, fun _ => rfl⟩, fun h => absurd h (lt_irrefl 0)⟩
    obtain ⟨k, hk, -⟩ := hto c ((hmem c).mpr ⟨hc, hkind⟩)
    cases hk
  · obtain ⟨hleast, hle⟩ := foldl_tighten_isLeast hne hpos
    obtain ⟨c, hc, hfirst⟩ := hfrom _ hleast
    obtain ⟨hcmem, hckind⟩ := (hmem c).mp hc
    refine ⟨⟨fun h => absurd h hfirst.pos.ne', fun h => absurd hckind (h c hcmem)⟩,
      fun _ => ⟨hfirst.ahead, fun t hnt hth d hd hkind => ?_⟩⟩
    obtain ⟨k, hk, hpasses⟩ := hto d ((hmem d).mpr ⟨hd, hkind⟩)
    rw [evaluateConstraintV2_timeWindow hkind]
    exact hpasses.passes t hnt (lt_of_lt_of_le hth (hle hk))

/-! ## A window over midnight -/

/-- An archive with the southern zone. -/
def southernArchive : ZoneArchive :=
  .ok fun name => if name = "South" then some (.ok southernData) else none

/-- A bundle whose one certificate allows the night. -/
def nightBundle : ProofBundleV2 where
  version := 2
  verifierId := ""
  agentId := ""
  agentPubKey := ⟨[], []⟩
  delegations :=
    [{ version := 2, certId := "night", issuerId := "", issuerPubKey := ⟨[], []⟩, subjectId := ""
       subjectPubKey := ⟨[], []⟩, scope := []
       constraints := [{ ConstraintV2.ofKind constraintTimeWindow with
         start := "22:00", end_ := "06:00", tz := "South" }]
       issuedAt := 0, expiresAt := 253402300799, signature := ⟨[], []⟩ }]
  delegationDigest := []
  challenge := []
  challengeAt := 0
  challengeSig := ⟨[], []⟩
  sessionContext := none
  streamId := none
  streamSeq := none

def emptyContext : ConstraintContextV2 :=
  { requestedAmountMicros := 0, requestedCurrency := "", hasAmount := false
    requestedResourceId := "", requestedPath := "", hasResource := false
    extensionCounts := .empty, extensionValues := .empty }

/-- At one in the night of 1 January 2024, local summer time. -/
theorem localTimeWindowValidUntilV2_sound_night :
    ∃ h, localTimeWindowValidUntilV2 southernArchive nightBundle "2025c" 1704067200 = .ok h
      ∧ (0 < h → 1704067200 < h ∨ h = v2MaxTimestampSeconds) := by
  have hload : loadZone southernArchive "South" = .ok southernZone :=
    loadZone_eq_ok (by decide) (if_pos rfl) parseTzif_southernData
  obtain ⟨h, hrun, -, hsound⟩ := @localTimeWindowValidUntilV2_sound southernArchive "2025c"
    nightBundle emptyContext 1704067200 (by decide)
    (by
      intro c hc _ z hz
      obtain rfl := List.mem_singleton.mp hc
      obtain rfl := Except.ok.inj (hload.symm.trans hz)
      exact ⟨List.pairwise_singleton _ _, southernZone_withinYear⟩)
    (by
      intro c hc hkind
      obtain rfl := List.mem_singleton.mp hc
      rw [evaluateConstraintV2_timeWindow hkind]
      exact evaluateTimeWindow_eq_ok_iff.mpr
        ⟨southernZone, 1320, 360, hload, by decide, by decide, by decide +kernel⟩)
  exact ⟨h, hrun, fun hpos => (hsound hpos).1⟩

end RatifyProtocol.V2
