import RatifyProtocol.Foundation.SameWords
import RatifyProtocol.V1.SignedBytes
import RatifyProtocol.V1.Verify
set_option autoImplicit false

/-!
# V1: the signed bytes decide the checks of a certificate

Certificates with one signature preimage agree in every signed member, floats up
to the sign of a zero.  Each check of a certificate reads signed members only, and
a zero's sign changes at most how a message prints the number: the scope, the
validity, the links of the chain and every constraint come out alike.
-/

namespace RatifyProtocol.V1

open Foundation
open V2 (validateScopes)

/-! ## Failures with the same words -/

/-- Both pass, or both fail with the same words. -/
inductive SameFailure : Except String Unit → Except String Unit → Prop
  | passes : SameFailure (.ok ()) (.ok ())
  | fails {s t : String} (h : SameWords decimalChar s t) : SameFailure (.error s) (.error t)

theorem SameFailure.refl (r : Except String Unit) : SameFailure r r := by
  cases r with
  | ok u => exact .passes
  | error s => exact .fails (.refl s)

theorem SameFailure.bind {α : Type} (x : Except String α) {f g : α → Except String Unit}
    (h : ∀ a, SameFailure (f a) (g a)) : SameFailure (x >>= f) (x >>= g) := by
  cases x with
  | error e => exact .fails (.refl e)
  | ok a => exact h a

theorem SameFailure.andThen {x y x' y' : Except String Unit} (hx : SameFailure x x')
    (hy : SameFailure y y') : SameFailure (x >>= fun _ => y) (x' >>= fun _ => y') := by
  cases hx with
  | passes => exact hy
  | fails hwords => exact .fails hwords

section Platforms

variable {P : Platform} (hP : P.Documented)
include hP

theorem sameWords_fixed (n : Nat) {x y : Binary64} (h : Binary64.SameValue x y) :
    SameWords decimalChar (P.fixed n x) (P.fixed n y) := by
  cases h with
  | refl => exact .refl _
  | zeros hx hy =>
    obtain ⟨s, rfl⟩ := Binary64.isZero_iff.mp hx
    obtain ⟨t, rfl⟩ := Binary64.isZero_iff.mp hy
    exact .number (hP.fixed_zero n s) (hP.fixed_zero n t)

/-! ## Geometry -/

theorem haversineMeters_same (lat₁ lon₁ : Binary64) {lat₂ lat₂' lon₂ lon₂' : Binary64}
    (hlat : Binary64.SameValue lat₂ lat₂') (hlon : Binary64.SameValue lon₂ lon₂') :
    Binary64.SameValue (haversineMeters P lat₁ lon₁ lat₂ lon₂)
      (haversineMeters P lat₁ lon₁ lat₂' lon₂') := by
  have half : ∀ {x y : Binary64}, Binary64.SameValue x y →
      Binary64.SameValue (x.div (.ofNat 2 (by decide))) (y.div (.ofNat 2 (by decide))) :=
    fun h => h.div (.refl _) (Binary64.isZero_ofNat _ (by decide))
  have square : ∀ {x y : Binary64}, Binary64.SameValue x y →
      Binary64.SameValue (P.powi x 2) (P.powi y 2) :=
    fun h => h.map (f := fun z => P.powi z 2) hP.powi
  have sine : ∀ {x y : Binary64}, Binary64.SameValue x y →
      Binary64.SameValue (P.sin x) (P.sin y) := fun h => h.map hP.sin
  have radians : ∀ {x y : Binary64}, Binary64.SameValue x y →
      Binary64.SameValue (x.mul (f64Pi.div (.ofNat 180 (by decide))))
        (y.mul (f64Pi.div (.ofNat 180 (by decide)))) := fun h => h.mul_left
  have hdLat := square (sine (half (radians (hlat.sub (.refl lat₁)))))
  have hdLon := square (sine (half (radians (hlon.sub (.refl lon₁)))))
  have hcos := (radians hlat).map hP.cos
  have ha := hdLat.add
    ((hcos.mul_right (x := P.cos (lat₁.mul (f64Pi.div (.ofNat 180 (by decide)))))).mul hdLon)
  unfold haversineMeters
  exact (((ha.map hP.sqrt).min (.refl _)).map hP.asin).mul_right

end Platforms

theorem lonBounds_same {p q : List (Binary64 × Binary64)} (h : List.Forall₂ SamePoint p q) :
    SamePoint (lonBounds p) (lonBounds q) := by
  -- Both folds keep bounds that are the same up to signed zero.
  have hfold : ∀ {p q : List (Binary64 × Binary64)}, List.Forall₂ SamePoint p q →
      ∀ {b c : Binary64 × Binary64}, SamePoint b c →
      SamePoint
        (p.foldl (fun b q => (if q.2.lt b.1 then q.2 else b.1, if b.2.lt q.2 then q.2 else b.2)) b)
        (q.foldl (fun b q => (if q.2.lt b.1 then q.2 else b.1, if b.2.lt q.2 then q.2 else b.2))
          c) := by
    intro p q h
    induction h with
    | nil => exact fun hbc => hbc
    | cons hpoint _ ih =>
      intro b c hbc
      apply ih
      dsimp only
      rw [hpoint.2.lt hbc.1, hbc.2.lt hpoint.2]
      constructor
      · dsimp only
        split
        · exact hpoint.2
        · exact hbc.1
      · dsimp only
        split
        · exact hpoint.2
        · exact hbc.2
  cases h with
  | nil => exact ⟨.refl _, .refl _⟩
  | cons hpoint hrest => exact hfold (.cons hpoint hrest) ⟨hpoint.2, hpoint.2⟩

theorem polygonSpansAntimeridian_same {p q : List (Binary64 × Binary64)}
    (h : List.Forall₂ SamePoint p q) :
    polygonSpansAntimeridian p = polygonSpansAntimeridian q := by
  have hbounds := lonBounds_same h
  unfold polygonSpansAntimeridian
  rw [h.length_eq, (Binary64.SameValue.refl _).lt (hbounds.2.sub hbounds.1)]

/-- An edge divides by a difference only when its ends lie on two sides of the
location, so the difference is not a zero. -/
theorem edgeCrosses_same (lat lon : Binary64) {pj pi qj qi : Binary64 × Binary64}
    (hj : SamePoint pj qj) (hi : SamePoint pi qi) :
    edgeCrosses lat lon pj pi = edgeCrosses lat lon qj qi := by
  have hsides : (lat.lt pi.1 != lat.lt pj.1) = (lat.lt qi.1 != lat.lt qj.1) := by
    rw [(Binary64.SameValue.refl lat).lt hi.1, (Binary64.SameValue.refl lat).lt hj.1]
  unfold edgeCrosses
  rw [hsides]
  cases hside : lat.lt qi.1 != lat.lt qj.1 with
  | false => rfl
  | true =>
    have hne : (pj.1.sub pi.1).isZero = false := by
      rw [← hsides, bne_iff_ne] at hside
      rw [Bool.eq_false_iff]
      exact fun hzero => hside (Binary64.lt_eq_of_isZero_sub hzero lat).symm
    have hquot := (((hj.2.sub hi.2).mul ((Binary64.SameValue.refl lat).sub hi.1)).div
      (hj.1.sub hi.1) hne).add hi.2
    rw [(Binary64.SameValue.refl lon).lt hquot]

theorem getLast?_same {α : Type} {r : α → α → Prop} {p q : List α} (h : List.Forall₂ r p q) :
    Option.Rel r p.getLast? q.getLast? := by
  induction h with
  | nil => exact .none
  | @cons a b as bs hpoint _ ih =>
    rw [List.getLast?_cons, List.getLast?_cons]
    apply Option.Rel.some
    generalize as.getLast? = u at ih ⊢
    generalize bs.getLast? = v at ih ⊢
    cases ih with
    | none => exact hpoint
    | some hlast => exact hlast

theorem pointInPolygon_same (lat lon : Binary64) {p q : List (Binary64 × Binary64)}
    (h : List.Forall₂ SamePoint p q) : pointInPolygon lat lon p = pointInPolygon lat lon q := by
  have hfold : ∀ {p q : List (Binary64 × Binary64)}, List.Forall₂ SamePoint p q →
      ∀ {u v : Binary64 × Binary64} (inside : Bool), SamePoint u v →
      (p.foldl (fun st p => (st.1 != edgeCrosses lat lon st.2 p, p)) (inside, u)).1
        = (q.foldl (fun st p => (st.1 != edgeCrosses lat lon st.2 p, p)) (inside, v)).1 := by
    intro p q h
    induction h with
    | nil => exact fun _ _ => rfl
    | cons hpoint _ ih =>
      intro u v inside huv
      simp only [List.foldl_cons, edgeCrosses_same lat lon huv hpoint]
      exact ih _ hpoint
  unfold pointInPolygon
  cases hp : p.getLast? with
  | none =>
    cases hq : q.getLast? with
    | none => rfl
    | some w => cases hp ▸ hq ▸ getLast?_same h
  | some v =>
    cases hq : q.getLast? with
    | none => cases hp ▸ hq ▸ getLast?_same h
    | some w =>
      cases hp ▸ hq ▸ getLast?_same h with
      | some hpoint => exact hfold h false hpoint

/-! ## Members of a kind -/

theorem Member.same_float_iff {x y : Binary64} :
    Member.Same (.float x) (.float y) ↔ Binary64.SameValue x y :=
  ⟨fun h => by cases h; assumption, .float⟩

theorem Member.same_int_iff {m n : Int64} : Member.Same (.int m) (.int n) ↔ m = n :=
  ⟨fun h => by cases h; rfl, fun h => h ▸ .int m⟩

theorem Member.same_text_iff {s t : String} : Member.Same (.text s) (.text t) ↔ s = t :=
  ⟨fun h => by cases h; rfl, fun h => h ▸ .text s⟩

theorem Member.same_points_iff {p q : List (Binary64 × Binary64)} :
    Member.Same (.points p) (.points q) ↔ List.Forall₂ SamePoint p q :=
  ⟨fun h => by cases h; assumption, .points⟩

theorem Constraint.type_mem (c : Constraint) : ("type", .text c.kind) ∈ c.members := by
  unfold members
  split
  case h_3 => cases c.hasAlt <;> simp
  case h_8 => cases c.pathPrefix <;> simp
  case h_9 => cases c.params <;> simp
  all_goals simp

theorem Constraint.text_of_type_mem {c : Constraint} {m : Member} (h : ("type", m) ∈ c.members) :
    m = .text c.kind := by
  unfold members at h
  split at h
  case h_3 => cases hc : c.hasAlt <;> simpa [hc] using h
  case h_8 => cases hc : c.pathPrefix <;> simpa [hc] using h
  case h_9 => cases hc : c.params <;> simpa [hc] using h
  all_goals simpa using h

/-- The kind is signed. -/
theorem Constraint.Same.kind {c d : Constraint} (h : c.Same d) : c.kind = d.kind := by
  obtain ⟨i, hi, hget⟩ := List.getElem_of_mem c.type_mem
  have hlen : i < d.members.length := h.length_eq ▸ hi
  have hmember := (List.forall₂_iff_get.mp h).2 i hi hlen
  simp only [List.get_eq_getElem, hget] at hmember
  obtain ⟨hkey, hvalue⟩ := hmember
  have hmem : ("type", (d.members[i]).2) ∈ d.members := by
    rw [hkey]
    exact List.getElem_mem hlen
  rw [Constraint.text_of_type_mem hmem] at hvalue
  exact Member.same_text_iff.mp hvalue

/-! ## Kinds

Each evaluator reads the members that its kind signs. -/

section Boxes

variable {P : Platform} (hP : P.Documented)
include hP

theorem evaluateLon_same {c d : Constraint} (lon : Binary64) (hmin : Binary64.SameValue c.minLon d.minLon)
    (hmax : Binary64.SameValue c.maxLon d.maxLon) :
    SameFailure (evaluateLon P lon c) (evaluateLon P lon d) := by
  have hshown : ∀ prose : String,
      SameWords decimalChar
        (prose ++ P.fixed 6 c.minLon ++ ", " ++ P.fixed 6 c.maxLon ++ "]")
        (prose ++ P.fixed 6 d.minLon ++ ", " ++ P.fixed 6 d.maxLon ++ "]") := fun prose =>
    .append_right _ (.append (.append_right _ (.append_left _ (sameWords_fixed hP 6 hmin)))
      (sameWords_fixed hP 6 hmax))
  unfold evaluateLon
  rw [hmin.le hmax, (Binary64.SameValue.refl lon).lt hmin, hmax.lt (.refl lon)]
  split
  · split
    · exact .fails (hshown _)
    · exact .passes
  · split
    · exact .fails (hshown _)
    · exact .passes

theorem evaluateAlt_same {c d : Constraint} (alt : Option Binary64)
    (hmin : Binary64.SameValue c.minAltM d.minAltM)
    (hmax : Binary64.SameValue c.maxAltM d.maxAltM) :
    SameFailure (evaluateAlt P alt c) (evaluateAlt P alt d) := by
  unfold evaluateAlt
  rw [hmin.eq (.refl .zero), hmax.eq (.refl .zero)]
  split
  · cases alt with
    | none => exact .refl _
    | some alt =>
      dsimp only
      rw [(Binary64.SameValue.refl alt).lt hmin, hmax.lt (.refl alt)]
      split
      · refine .fails (.append_right _ (.append (.append_right _ (.append_left _ ?_)) ?_))
        · exact sameWords_fixed hP 1 hmin
        · exact sameWords_fixed hP 1 hmax
      · exact .passes
  · exact .passes

end Boxes

/-- A box without altitude bounds passes at every altitude. -/
theorem evaluateAlt_of_not_hasAlt (P : Platform) {c : Constraint} (h : c.hasAlt = false)
    (alt : Option Binary64) : evaluateAlt P alt c = .ok () := by
  unfold evaluateAlt
  rw [show (!c.minAltM.eq .zero || !c.maxAltM.eq .zero) = false from h]
  rfl

section Kinds

variable {c d : Constraint} (h : c.Same d)
include h

/-- Of the kinds only `resource_path` signs a resource. -/
theorem resource_same (hk : c.kind = "resource_path") :
    c.pathPrefix = d.pathPrefix ∧ c.resourceId = d.resourceId := by
  have hl : d.kind = "resource_path" := h.kind.symm.trans hk
  have hmembers := h
  simp only [Constraint.Same, Constraint.members, hk, hl] at hmembers
  cases hc : c.pathPrefix with
  | none =>
    cases hd : d.pathPrefix with
    | none => simpa [hc, hd, Member.same_text_iff] using hmembers
    | some q => simp [hc, hd] at hmembers
  | some p =>
    cases hd : d.pathPrefix with
    | none => simp [hc, hd] at hmembers
    | some q => simpa [hc, hd, Member.same_text_iff] using hmembers

theorem evaluateResourcePath_same (hk : c.kind = "resource_path") (ctx : VerifierContext) :
    evaluateResourcePath c ctx = evaluateResourcePath d ctx := by
  obtain ⟨hpath, hresource⟩ := resource_same h hk
  unfold evaluateResourcePath
  rw [hpath, hresource]

theorem evaluateTimeWindow_same (P : Platform) (hk : c.kind = "time_window") (now : Int64) :
    evaluateTimeWindow P c now = evaluateTimeWindow P d now := by
  have hl : d.kind = "time_window" := h.kind.symm.trans hk
  have hsigned : c.end_ = d.end_ ∧ c.start = d.start ∧ c.tz = d.tz := by
    simpa [Constraint.Same, Constraint.members, hk, hl, Member.same_text_iff] using h
  obtain ⟨hend, hstart, htz⟩ := hsigned
  unfold evaluateTimeWindow
  rw [hend, hstart, htz]

theorem evaluateMaxRate_same (hk : c.kind = "max_rate") (certId : String)
    (ctx : VerifierContext) : evaluateMaxRate c certId ctx = evaluateMaxRate d certId ctx := by
  have hl : d.kind = "max_rate" := h.kind.symm.trans hk
  have hsigned : c.count = d.count ∧ c.windowS = d.windowS := by
    simpa [Constraint.Same, Constraint.members, hk, hl, Member.same_text_iff,
      Member.same_int_iff] using h
  unfold evaluateMaxRate
  rw [hsigned.1, hsigned.2]

theorem evaluateGeoPolygon_same (hk : c.kind = "geo_polygon") (ctx : VerifierContext) :
    evaluateGeoPolygon c ctx = evaluateGeoPolygon d ctx := by
  have hl : d.kind = "geo_polygon" := h.kind.symm.trans hk
  have hpoints : List.Forall₂ SamePoint c.points d.points := by
    simpa [Constraint.Same, Constraint.members, hk, hl, Member.same_text_iff,
      Member.same_points_iff] using h
  unfold evaluateGeoPolygon
  rw [hpoints.length_eq, polygonSpansAntimeridian_same hpoints]
  simp only [pointInPolygon_same _ _ hpoints]

section Numbers

variable {P : Platform} (hP : P.Documented)
include hP

theorem evaluateGeoCircle_same (hk : c.kind = "geo_circle") (ctx : VerifierContext) :
    SameFailure (evaluateGeoCircle P c ctx) (evaluateGeoCircle P d ctx) := by
  have hl : d.kind = "geo_circle" := h.kind.symm.trans hk
  have hsigned : Binary64.SameValue c.lat d.lat ∧ Binary64.SameValue c.lon d.lon
      ∧ Binary64.SameValue c.radiusM d.radiusM := by
    simpa [Constraint.Same, Constraint.members, hk, hl, Member.same_text_iff,
      Member.same_float_iff] using h
  obtain ⟨hlat, hlon, hradius⟩ := hsigned
  unfold evaluateGeoCircle
  refine .bind _ fun at_ => ?_
  have hdistance := haversineMeters_same hP at_.1 at_.2 hlat hlon
  dsimp only
  rw [hradius.lt hdistance]
  split
  · refine .fails (.append_right _ (.append (.append_right _ (.append_left _ ?_)) ?_))
    · exact sameWords_fixed hP 1 hdistance
    · exact sameWords_fixed hP 1 hradius
  · exact .passes

theorem evaluateMaxSpeed_same (hk : c.kind = "max_speed_mps") (ctx : VerifierContext) :
    SameFailure (evaluateMaxSpeed P c ctx) (evaluateMaxSpeed P d ctx) := by
  have hl : d.kind = "max_speed_mps" := h.kind.symm.trans hk
  have hmax : Binary64.SameValue c.maxMps d.maxMps := by
    simpa [Constraint.Same, Constraint.members, hk, hl, Member.same_text_iff,
      Member.same_float_iff] using h
  unfold evaluateMaxSpeed
  cases ctx.currentSpeedMps with
  | none => exact .refl _
  | some speed =>
    dsimp only
    rw [hmax.lt (.refl speed)]
    split
    · exact .fails (((sameWords_fixed hP 2 hmax).append_left _).append_right _)
    · exact .passes

theorem evaluateMaxAmount_same (hk : c.kind = "max_amount") (ctx : VerifierContext) :
    SameFailure (evaluateMaxAmount P c ctx) (evaluateMaxAmount P d ctx) := by
  have hl : d.kind = "max_amount" := h.kind.symm.trans hk
  have hsigned : c.currency = d.currency ∧ Binary64.SameValue c.maxAmount d.maxAmount := by
    simpa [Constraint.Same, Constraint.members, hk, hl, Member.same_text_iff,
      Member.same_float_iff] using h
  obtain ⟨hcurrency, hmax⟩ := hsigned
  unfold evaluateMaxAmount
  cases ctx.requestedAmount with
  | none => exact .refl _
  | some amount =>
    cases ctx.requestedCurrency with
    | none => exact .refl _
    | some reqCcy =>
      dsimp only
      rw [hcurrency, hmax.lt (.refl amount)]
      split
      · exact .refl _
      · split
        · exact .fails ((((sameWords_fixed hP 2 hmax).append_left _).append_right _).append_right _)
        · exact .passes

theorem evaluateGeoBbox_same (hk : c.kind = "geo_bbox") (ctx : VerifierContext) :
    SameFailure (evaluateGeoBbox P c ctx) (evaluateGeoBbox P d ctx) := by
  have hl : d.kind = "geo_bbox" := h.kind.symm.trans hk
  have halt : c.hasAlt = d.hasAlt := by
    cases hc : c.hasAlt <;> cases hd : d.hasAlt <;>
      simp [Constraint.Same, Constraint.members, hk, hl, hc, hd] at h ⊢
  have hsides : Binary64.SameValue c.maxLat d.maxLat ∧ Binary64.SameValue c.maxLon d.maxLon
      ∧ Binary64.SameValue c.minLat d.minLat ∧ Binary64.SameValue c.minLon d.minLon := by
    cases hd : d.hasAlt <;>
      simp [Constraint.Same, Constraint.members, hk, hl, halt, hd, Member.same_text_iff,
        Member.same_float_iff] at h ⊢
    · exact h
    · exact ⟨h.2.1, h.2.2.1, h.2.2.2.2.1, h.2.2.2.2.2⟩
  obtain ⟨hmaxLat, hmaxLon, hminLat, hminLon⟩ := hsides
  have hheights : SameFailure (evaluateAlt P ctx.currentAltM c) (evaluateAlt P ctx.currentAltM d) := by
    cases hd : d.hasAlt with
    | false =>
      rw [evaluateAlt_of_not_hasAlt P hd, evaluateAlt_of_not_hasAlt P (halt.trans hd)]
      exact .passes
    | true =>
      have hbounds : Binary64.SameValue c.maxAltM d.maxAltM
          ∧ Binary64.SameValue c.minAltM d.minAltM := by
        simp [Constraint.Same, Constraint.members, hk, hl, halt, hd, Member.same_text_iff,
          Member.same_float_iff] at h
        exact ⟨h.1, h.2.2.2.1⟩
      exact evaluateAlt_same hP _ hbounds.2 hbounds.1
  unfold evaluateGeoBbox
  refine .bind _ fun at_ => ?_
  rw [(Binary64.SameValue.refl at_.1).lt hminLat, hmaxLat.lt (.refl at_.1)]
  split
  · refine .fails (.append_right _ (.append (.append_right _ (.append_left _ ?_)) ?_))
    · exact sameWords_fixed hP 6 hminLat
    · exact sameWords_fixed hP 6 hmaxLat
  · exact .andThen (evaluateLon_same hP _ hminLon hmaxLon) hheights

/-- One constraint, whatever its kind. -/
theorem evaluateConstraint_same (certId : String) (ctx : VerifierContext) (now : Int64) :
    SameFailure (evaluateConstraint P c certId ctx now)
      (evaluateConstraint P d certId ctx now) := by
  unfold evaluateConstraint
  rw [← h.kind]
  split
  · exact evaluateResourcePath_same h ‹_› ctx ▸ .refl _
  · exact evaluateGeoCircle_same h hP ‹_› ctx
  · exact evaluateGeoPolygon_same h ‹_› ctx ▸ .refl _
  · exact evaluateGeoBbox_same h hP ‹_› ctx
  · exact evaluateTimeWindow_same h P ‹_› now ▸ .refl _
  · exact evaluateMaxSpeed_same h hP ‹_› ctx
  · exact evaluateMaxAmount_same h hP ‹_› ctx
  · exact evaluateMaxRate_same h ‹_› certId ctx ▸ .refl _
  · exact .refl _

end Numbers

end Kinds

/-! ## Certificates -/

/-- A result without its text. -/
def VerifyResult.verdict (r : VerifyResult) : VerifyResult := { r with errorReason := "" }

/-- The evaluators of the application read signed members only. -/
def ReadsSigned (extEvaluators : Option (String → Option ConstraintEvaluator)) : Prop :=
  ∀ kind ev, extEvaluators.bind (· kind) = some ev →
    ∀ c d : Constraint, c.Same d → ∀ certId ctx now,
      SameFailure (ev c certId ctx now) (ev d certId ctx now)

theorem readsSigned_none : ReadsSigned none := by
  intro kind ev h
  cases h

theorem constraintStatus_same {s t : String} (h : SameWords decimalChar s t) :
    constraintStatus s = constraintStatus t := by
  have hphrase : ∀ p : String, p ≠ "" → p.toList.all (fun c => !decimalChar c) = true →
      containsText s p = containsText t p := by
    intro p hp hmark
    unfold containsText
    exact decide_eq_decide.mpr (h.contains_iff hp hmark)
  unfold constraintStatus
  rw [hphrase "constraint_unverifiable" (by decide) (by decide),
    hphrase "constraint_unknown" (by decide) (by decide)]

section Certificates

variable {P : Platform} (hP : P.Documented)
  {extEvaluators : Option (String → Option ConstraintEvaluator)} (hext : ReadsSigned extEvaluators)
include hP hext

theorem evaluateWithExtensions_same {c d : Constraint} (h : c.Same d) (certId : String)
    (ctx : VerifierContext) (now : Int64) :
    SameFailure (evaluateWithExtensions P c certId ctx now extEvaluators)
      (evaluateWithExtensions P d certId ctx now extEvaluators) := by
  have hbuiltin := evaluateConstraint_same h hP certId ctx now
  unfold evaluateWithExtensions
  rw [← h.kind]
  revert hbuiltin
  generalize evaluateConstraint P c certId ctx now = r
  generalize evaluateConstraint P d certId ctx now = r'
  intro hbuiltin
  cases hbuiltin with
  | passes => exact .passes
  | fails hwords =>
    dsimp only
    rw [hwords.startsWith_eq (p := "constraint_unknown:") (by decide)]
    split
    · cases hev : extEvaluators.bind (· c.kind) with
      | none => exact .fails hwords
      | some ev => exact hext c.kind ev hev c d h certId ctx now
    · exact .fails hwords

/-- By induction on the constraints: the first failure is at one position in both. -/
theorem evaluateConstraintsFrom_same {cs ds : List Constraint}
    (h : List.Forall₂ Constraint.Same cs ds) (certId : String) (ctx : VerifierContext)
    (now : Int64) (i : Nat) :
    SameFailure (evaluateConstraintsFrom P i certId ctx now extEvaluators cs)
      (evaluateConstraintsFrom P i certId ctx now extEvaluators ds) := by
  induction h generalizing i with
  | nil => exact .passes
  | cons hcd _ ih =>
    have hone := evaluateWithExtensions_same hP hext hcd certId ctx now
    unfold evaluateConstraintsFrom
    rw [← hcd.kind]
    revert hone
    generalize evaluateWithExtensions P _ certId ctx now extEvaluators = r
    generalize evaluateWithExtensions P _ certId ctx now extEvaluators = r'
    intro hone
    cases hone with
    | passes => exact ih (i + 1)
    | fails hwords => exact .fails (hwords.append_left _)

theorem evaluateCertConstraints_same {a b : DelegationCert} (h : a.Same b) (i : Nat)
    (ctx : VerifierContext) (now : Int64) :
    (evaluateCertConstraints P a i ctx extEvaluators now).map VerifyResult.verdict
      = (evaluateCertConstraints P b i ctx extEvaluators now).map VerifyResult.verdict := by
  have hall := evaluateConstraintsFrom_same hP hext h.constraints a.certId ctx now 0
  unfold evaluateCertConstraints evaluateConstraints
  rw [← h.certId]
  revert hall
  generalize evaluateConstraintsFrom P 0 a.certId ctx now extEvaluators a.constraints = r
  generalize evaluateConstraintsFrom P 0 a.certId ctx now extEvaluators b.constraints = r'
  intro hall
  cases hall with
  | passes => rfl
  | fails hwords =>
    dsimp only [Option.map_some]
    rw [constraintStatus_same hwords]
    rfl

end Certificates

/-! ## Bounds -/

/-- The resource of a constraint is within the bound. -/
def Constraint.ResourceFits (c : Constraint) : Prop :=
  (utf8 c.resourceId).length ≤ maxIdentifierLengthBytes

/-- The bounds on what the issuer signs; of the kinds only `resource_path` signs a
resource. -/
structure DelegationCert.SignedFits (cert : DelegationCert) : Prop where
  scopes : cert.scope.length ≤ maxScopesPerCert
  constraints : cert.constraints.length ≤ maxConstraintsPerCert
  scope : ∀ s ∈ cert.scope, (utf8 s).length ≤ maxScopeLengthBytes
  resource : ∀ c ∈ cert.constraints, c.kind = "resource_path" → c.ResourceFits

/-- The bound on the resources that the other kinds carry unsigned. -/
def DelegationCert.UnsignedFits (cert : DelegationCert) : Prop :=
  ∀ c ∈ cert.constraints, c.kind ≠ "resource_path" → c.ResourceFits

theorem find?_resource_eq_none_iff (constraints : List Constraint) :
    (constraints.zipIdx.find? fun c =>
        decide ((utf8 c.1.resourceId).length > maxIdentifierLengthBytes)) = none
      ↔ ∀ c ∈ constraints, c.ResourceFits := by
  simp only [List.find?_eq_none, decide_eq_true_eq, Nat.not_lt, Constraint.ResourceFits]
  constructor
  · intro h c hc
    rw [← List.zipIdx_map_fst 0 constraints, List.mem_map] at hc
    obtain ⟨p, hp, rfl⟩ := hc
    exact h p hp
  · exact fun h p hp => h p.1 (List.fst_mem_of_mem_zipIdx hp)

theorem find?_scope_eq_none_iff (scope : List String) :
    (scope.find? fun s => decide ((utf8 s).length > maxScopeLengthBytes)) = none
      ↔ ∀ s ∈ scope, (utf8 s).length ≤ maxScopeLengthBytes := by
  simp only [List.find?_eq_none, decide_eq_true_eq, Nat.not_lt]

/-- A certificate is within the bounds when what is signed of it is and what is
not signed is too. -/
theorem checkCertBounds_ok_iff (i : Nat) (cert : DelegationCert) :
    checkCertBounds i cert = .ok () ↔ cert.SignedFits ∧ cert.UnsignedFits := by
  have hsplit : cert.SignedFits ∧ cert.UnsignedFits ↔
      cert.scope.length ≤ maxScopesPerCert ∧ cert.constraints.length ≤ maxConstraintsPerCert ∧
        (∀ s ∈ cert.scope, (utf8 s).length ≤ maxScopeLengthBytes) ∧
        ∀ c ∈ cert.constraints, c.ResourceFits := by
    constructor
    · rintro ⟨⟨hscopes, hconstraints, hscope, hsigned⟩, hunsigned⟩
      exact ⟨hscopes, hconstraints, hscope, fun c hc =>
        (em (c.kind = "resource_path")).elim (hsigned c hc) (hunsigned c hc)⟩
    · rintro ⟨hscopes, hconstraints, hscope, hresource⟩
      exact ⟨⟨hscopes, hconstraints, hscope, fun c hc _ => hresource c hc⟩,
        fun c hc _ => hresource c hc⟩
  rw [hsplit, ← find?_scope_eq_none_iff, ← find?_resource_eq_none_iff]
  unfold checkCertBounds
  by_cases hscopes : cert.scope.length > maxScopesPerCert
  · simp [if_pos hscopes, Nat.not_le.mpr hscopes]
  by_cases hconstraints : cert.constraints.length > maxConstraintsPerCert
  · simp [if_neg hscopes, if_pos hconstraints, Nat.not_le.mpr hconstraints]
  rw [if_neg hscopes, if_neg hconstraints]
  cases cert.scope.find? fun s => decide ((utf8 s).length > maxScopeLengthBytes) with
  | some s => simp
  | none =>
    cases cert.constraints.zipIdx.find? fun c =>
        decide ((utf8 c.1.resourceId).length > maxIdentifierLengthBytes) with
    | some c => simp
    | none => simpa using ⟨Nat.not_lt.mp hscopes, Nat.not_lt.mp hconstraints⟩

/-- Whichever bound is missed, the failure is `invalid`. -/
theorem verdict_of_checkCertBounds {i : Nat} {cert : DelegationCert} {r : VerifyResult}
    (h : checkCertBounds i cert = .error r) : r.verdict = (invalid "invalid" "").verdict := by
  unfold checkCertBounds at h
  repeat' split at h
  all_goals
    cases h
    try rfl

theorem signedResources_iff {cs ds : List Constraint} (h : List.Forall₂ Constraint.Same cs ds) :
    (∀ c ∈ cs, c.kind = "resource_path" → c.ResourceFits)
      ↔ ∀ d ∈ ds, d.kind = "resource_path" → d.ResourceFits := by
  induction h with
  | nil => simp
  | @cons c d cs ds hcd _ ih =>
    have hhead : (c.kind = "resource_path" → c.ResourceFits)
        ↔ (d.kind = "resource_path" → d.ResourceFits) := by
      rw [← hcd.kind]
      refine forall_congr' fun hkind => ?_
      unfold Constraint.ResourceFits
      rw [(resource_same hcd hkind).2]
    simp only [List.forall_mem_cons, hhead, ih]

/-- What is signed is within the bounds in both certificates or in neither. -/
theorem DelegationCert.Same.signedFits_iff {a b : DelegationCert} (h : a.Same b) :
    a.SignedFits ↔ b.SignedFits := by
  have hresources := signedResources_iff h.constraints
  constructor
  · rintro ⟨hscopes, hconstraints, hscope, hresource⟩
    exact ⟨h.scope ▸ hscopes, h.constraints.length_eq ▸ hconstraints, h.scope ▸ hscope,
      hresources.mp hresource⟩
  · rintro ⟨hscopes, hconstraints, hscope, hresource⟩
    exact ⟨h.scope.symm ▸ hscopes, h.constraints.length_eq.symm ▸ hconstraints,
      h.scope.symm ▸ hscope, hresources.mpr hresource⟩

/-- The bounds come out alike when both certificates keep them or neither does. -/
theorem mapError_checkCertBounds_eq_iff (i : Nat) (a b : DelegationCert) :
    (checkCertBounds i a).mapError VerifyResult.verdict
        = (checkCertBounds i b).mapError VerifyResult.verdict
      ↔ (a.SignedFits ∧ a.UnsignedFits ↔ b.SignedFits ∧ b.UnsignedFits) := by
  rw [← checkCertBounds_ok_iff i a, ← checkCertBounds_ok_iff i b]
  cases ha : checkCertBounds i a with
  | ok u =>
    cases hb : checkCertBounds i b with
    | ok u' => simp [Except.mapError]
    | error r => simp [Except.mapError]
  | error r =>
    cases hb : checkCertBounds i b with
    | ok u => simp [Except.mapError]
    | error r' =>
      have hsame := (verdict_of_checkCertBounds ha).trans (verdict_of_checkCertBounds hb).symm
      simp [Except.mapError, hsame]

/-! ## The checks of a certificate -/

/-- Every check of a certificate comes out alike: its bounds, its scope, alone and
in a chain, its validity period, its links to the next certificate, to the previous
one and to the agent, and its constraints. -/
structure DelegationCert.ChecksAlike (P : Platform) (a b : DelegationCert) : Prop where
  bounds : ∀ i, (checkCertBounds i a).mapError VerifyResult.verdict
    = (checkCertBounds i b).mapError VerifyResult.verdict
  scope : validateScopes a.scope = validateScopes b.scope
  effective : ∀ before after, intersectScopes (before ++ a.scope :: after)
    = intersectScopes (before ++ b.scope :: after)
  validity : ∀ i now humanId agentId,
    checkValidity i a now humanId agentId = checkValidity i b now humanId agentId
  next : ∀ i next, checkLinkage i a next = checkLinkage i b next
  previous : ∀ i cert, checkLinkage i cert a = checkLinkage i cert b
  agent : ∀ (bundle : ProofBundle) rest, checkAgent { bundle with delegations := a :: rest }
    = checkAgent { bundle with delegations := b :: rest }
  constraints : ∀ i ctx extEvaluators now, ReadsSigned extEvaluators →
    (evaluateCertConstraints P a i ctx extEvaluators now).map VerifyResult.verdict
      = (evaluateCertConstraints P b i ctx extEvaluators now).map VerifyResult.verdict

/-- The bound on unsigned resources apart, only what is signed is checked. -/
theorem DelegationCert.Same.checksAlike {P : Platform} (hP : P.Documented)
    {a b : DelegationCert} (h : a.Same b)
    (hbounds : a.SignedFits → (a.UnsignedFits ↔ b.UnsignedFits)) : a.ChecksAlike P b where
  bounds i := by
    rw [mapError_checkCertBounds_eq_iff, ← h.signedFits_iff]
    exact and_congr_right hbounds
  scope := by rw [h.scope]
  effective before after := by rw [h.scope]
  validity i now humanId agentId := by
    unfold checkValidity
    rw [h.expiresAt, h.issuedAt]
  next i next := by
    unfold checkLinkage
    rw [h.issuerId, h.issuerPubKey]
  previous i cert := by
    unfold checkLinkage
    rw [h.subjectId, h.subjectPubKey, h.scope]
  agent bundle rest := by
    unfold checkAgent
    cases validateHybridPubkeyLens bundle.agentPubKey "agent" with
    | some err => rfl
    | none =>
      dsimp only
      rw [h.subjectPubKey, h.subjectId]
  constraints i ctx extEvaluators now hext := evaluateCertConstraints_same hP hext h i ctx now

/-- Certificates with one signature preimage pass and fail the same checks in every
context and at every time, exactly when the resources that they carry unsigned are
within the bound in both or in neither, or a bound on what is signed is missed
anyway; and the bytes hashed for a chain determine the preimages of its
certificates. -/
theorem signedBytes_decide_checks {P : Platform} (hP : P.Documented) :
    (∀ a b : DelegationCert, a.Finite → b.Finite →
      delegationSignBytes P a = delegationSignBytes P b →
      (a.ChecksAlike P b ↔ (a.SignedFits → (a.UnsignedFits ↔ b.UnsignedFits))))
    ∧ ∀ as bs : List DelegationCert, (∀ a ∈ as, a.Finite) → (∀ b ∈ bs, b.Finite) →
      chainHashInput P as = chainHashInput P bs →
      as.map (delegationSignBytes P) = bs.map (delegationSignBytes P) := by
  refine ⟨fun a b ha hb h => ?_,
    fun _ _ has hbs h => map_delegationSignBytes_of_chainHashInput hP has hbs h⟩
  have hsame := same_of_delegationSignBytes hP ha hb h
  refine ⟨fun halike hsigned => ?_, hsame.checksAlike hP⟩
  have hbounds := (mapError_checkCertBounds_eq_iff 0 a b).mp (halike.bounds 0)
  simpa [hsigned, hsame.signedFits_iff.mp hsigned] using hbounds

/-- A certificate with one rate constraint, and a resource that a rate does not sign. -/
def ratedCert (resourceId : String) : DelegationCert :=
  { certId := "c", version := 1, issuerId := "h", issuerPubKey := ⟨[1], [2]⟩, subjectId := "a"
    subjectPubKey := ⟨[3], [4]⟩, scope := ["files:read"]
    constraints := [{ Constraint.ofKind "max_rate" with count := 3, windowS := 60, resourceId }]
    issuedAt := 1, expiresAt := 9, signature := ⟨[], []⟩ }

theorem ratedCert_finite (resourceId : String) : (ratedCert resourceId).Finite := by
  intro c hc m hm
  obtain rfl := List.mem_singleton.mp hc
  simp [Constraint.members, Constraint.ofKind] at hm
  obtain rfl | rfl | rfl := hm <;> exact trivial

/-- What is signed of it does not name the resource. -/
theorem delegationSignBytes_ratedCert (r r' : String) :
    delegationSignBytes plainPlatform (ratedCert r) = delegationSignBytes plainPlatform (ratedCert r') :=
  rfl

theorem unsignedFits_ratedCert (resourceId : String) :
    (ratedCert resourceId).UnsignedFits
      ↔ (utf8 resourceId).length ≤ maxIdentifierLengthBytes := by
  simp [DelegationCert.UnsignedFits, ratedCert, Constraint.ofKind, Constraint.ResourceFits]

theorem signedBytes_decide_checks_rated :
    (ratedCert "x").ChecksAlike plainPlatform (ratedCert "")
    ∧ (evaluateCertConstraints plainPlatform (ratedCert "x") 0 .empty none 5).map
        VerifyResult.verdict
      = (evaluateCertConstraints plainPlatform (ratedCert "") 0 .empty none 5).map
        VerifyResult.verdict
    ∧ [ratedCert "x"].map (delegationSignBytes plainPlatform)
      = [ratedCert ""].map (delegationSignBytes plainPlatform) := by
  obtain ⟨hchecks, hchain⟩ := signedBytes_decide_checks plainPlatform_documented
  have hbytes := delegationSignBytes_ratedCert "x" ""
  have hfits : (ratedCert "x").UnsignedFits ↔ (ratedCert "").UnsignedFits := by
    rw [unsignedFits_ratedCert, unsignedFits_ratedCert]
    decide
  have halike := (hchecks _ _ (ratedCert_finite "x") (ratedCert_finite "") hbytes).mpr
    fun _ => hfits
  exact ⟨halike, halike.constraints 0 .empty none 5 readsSigned_none,
    hchain _ _ (by simpa using ratedCert_finite "x") (by simpa using ratedCert_finite "")
      (by simpa [chainHashInput] using hbytes)⟩

/-- A resource one byte past the bound. -/
def longResource : String := String.ofList (List.replicate (maxIdentifierLengthBytes + 1) 'a')

/-- A resource that a rate does not sign takes its certificate out of the bounds. -/
theorem delegationSignBytes_omit_resource :
    (ratedCert longResource).Finite ∧ (ratedCert "").Finite
    ∧ delegationSignBytes plainPlatform (ratedCert longResource)
      = delegationSignBytes plainPlatform (ratedCert "")
    ∧ (∃ r, checkCertBounds 0 (ratedCert longResource) = .error r ∧ r.valid = false)
    ∧ checkCertBounds 0 (ratedCert "") = .ok ()
    ∧ ¬ (ratedCert longResource).ChecksAlike plainPlatform (ratedCert "") := by
  have hlong : ¬ checkCertBounds 0 (ratedCert longResource) = .ok () := by
    rw [checkCertBounds_ok_iff, unsignedFits_ratedCert, longResource, utf8_ofList,
      length_utf8Chars_replicate]
    exact fun h => Nat.not_succ_le_self _ h.2
  have hshort : checkCertBounds 0 (ratedCert "") = .ok () := rfl
  obtain ⟨r, hrefused⟩ : ∃ r, checkCertBounds 0 (ratedCert longResource) = .error r := by
    cases hchecked : checkCertBounds 0 (ratedCert longResource) with
    | ok u => exact absurd hchecked hlong
    | error r => exact ⟨r, rfl⟩
  have hinvalid := congrArg VerifyResult.valid (verdict_of_checkCertBounds hrefused)
  refine ⟨ratedCert_finite _, ratedCert_finite _, delegationSignBytes_ratedCert _ _,
    ⟨r, hrefused, hinvalid⟩, hshort, fun halike => ?_⟩
  have hbounds := halike.bounds 0
  rw [hrefused, hshort] at hbounds
  cases hbounds

end RatifyProtocol.V1
