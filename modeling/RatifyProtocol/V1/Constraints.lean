import Mathlib.Data.List.Infix
import RatifyProtocol.ResourcePath
import RatifyProtocol.V1.Platform
import RatifyProtocol.V1.Types
set_option autoImplicit false

/-!
# V1: constraint evaluation

`constraints.rs` with the mapping of a failure to an identity status in
`verify.rs`.  A failure is a text; a prefix of the text, or a phrase in it, says
which status it becomes.  Each kind of the match is a definition of its own.
-/

namespace RatifyProtocol.V1

open Foundation

variable (P : Platform)

/-! ## Geometry -/

/-- `core::f64::consts::PI`. -/
def f64Pi : Binary64 := .finite false (.ofSignificand 884279719003555 1026 (by decide) (by decide))

def haversineMeters (lat1 lon1 lat2 lon2 : Binary64) : Binary64 :=
  let earthRadiusM : Binary64 := .ofNat 6371000 (by decide)
  let two : Binary64 := .ofNat 2 (by decide)
  let rad := f64Pi.div (.ofNat 180 (by decide))
  let dLat := (lat2.sub lat1).mul rad
  let dLon := (lon2.sub lon1).mul rad
  let a := (P.powi (P.sin (dLat.div two)) 2).add
    (((P.cos (lat1.mul rad)).mul (P.cos (lat2.mul rad))).mul (P.powi (P.sin (dLon.div two)) 2))
  (two.mul earthRadiusM).mul (P.asin ((P.sqrt a).min (.ofNat 1 (by decide))))

/-- The least and the greatest longitude; the first point starts both. -/
def lonBounds : List (Binary64 × Binary64) → Binary64 × Binary64
  | [] => (.zero, .zero)
  | p :: points =>
    (p :: points).foldl (fun b q =>
      (if q.2.lt b.1 then q.2 else b.1, if b.2.lt q.2 then q.2 else b.2)) (p.2, p.2)

/-- `polygon_spans_antimeridian`: the longitudes span more than 180 degrees. -/
def polygonSpansAntimeridian (points : List (Binary64 × Binary64)) : Bool :=
  if points.length < 3 then false
  else (Binary64.ofNat 180 (by decide)).lt ((lonBounds points).2.sub (lonBounds points).1)

/-- Whether the edge from `pj` to `pi` lies to the right of the location. -/
def edgeCrosses (lat lon : Binary64) (pj pi : Binary64 × Binary64) : Bool :=
  (lat.lt pi.1 != lat.lt pj.1)
    && lon.lt ((((pj.2.sub pi.2).mul (lat.sub pi.1)).div (pj.1.sub pi.1)).add pi.2)

/-- `point_in_polygon`: the parity of the crossed edges, the closing edge first. -/
def pointInPolygon (lat lon : Binary64) (poly : List (Binary64 × Binary64)) : Bool :=
  match poly.getLast? with
  | none => false
  | some last =>
    (poly.foldl (fun st p => (st.1 != edgeCrosses lat lon st.2 p, p)) (false, last)).1

/-! ## Kinds -/

/-- `str::parse::<i32>` of two bytes. -/
def parseI32Pair (a b : UInt8) : Option Int :=
  let digit := fun c : UInt8 => 48 ≤ c && c ≤ 57
  if !digit b then none
  else if digit a then some ((a.toNat - 48) * 10 + (b.toNat - 48) : Nat)
  else if a = 43 then some (b.toNat - 48 : Nat)
  else if a = 45 then some (-((b.toNat - 48 : Nat) : Int))
  else none

/-- `parse_hhmm`: the minute of the day. -/
def parseHhmm (s : String) : Option Int :=
  match utf8 s with
  | [h₁, h₀, colon, m₁, m₀] =>
    if colon ≠ 58 then none
    else
      match parseI32Pair h₁ h₀, parseI32Pair m₁ m₀ with
      | some h, some m =>
        if ¬ (0 ≤ h ∧ h ≤ 23) ∨ ¬ (0 ≤ m ∧ m ≤ 59) then none else some (h * 60 + m)
      | _, _ => none
  | _ => none

def evaluateResourcePath (c : Constraint) (ctx : VerifierContext) : Except String Unit :=
  match ctx.requestedResourceId.filter (· ≠ "") with
  | none => .error "constraint_unverifiable: no requested resource in context"
  | some requestedId =>
    if c.resourceId = "" then .error "malformed resource_path: resource_id is required"
    else if (utf8 c.resourceId).length > maxIdentifierLengthBytes then
      .error "malformed resource_path: resource_id exceeds MAX_IDENTIFIER_LENGTH_BYTES"
    else if requestedId ≠ c.resourceId then
      .error "requested resource does not match the authorized resource"
    else
      match c.pathPrefix with
      | none => .ok ()
      | some pathPrefix =>
        match normalizeResourcePath pathPrefix with
        | .error e => .error s!"malformed path_prefix: {e}"
        | .ok _ =>
          let requestedPath := ctx.requestedPath.getD ""
          if requestedPath = "" then
            .error "constraint_unverifiable: no requested path in context"
          else
            match normalizeResourcePath requestedPath with
            | .error e => .error s!"invalid requested path: {e}"
            | .ok _ =>
              if resourcePathMatches pathPrefix requestedPath then .ok ()
              else .error
                s!"requested path \"{requestedPath}\" is outside the authorized prefix \"{pathPrefix}\""

/-- The location that the geographic kinds need. -/
def currentLocation (ctx : VerifierContext) : Except String (Binary64 × Binary64) :=
  match ctx.currentLat, ctx.currentLon with
  | some lat, some lon => .ok (lat, lon)
  | _, _ => .error "constraint_unverifiable: no current location in context"

def evaluateGeoCircle (c : Constraint) (ctx : VerifierContext) : Except String Unit := do
  let at_ ← currentLocation ctx
  let d := haversineMeters P at_.1 at_.2 c.lat c.lon
  if c.radiusM.lt d then
    .error s!"outside allowed radius: {P.fixed 1 d}m > {P.fixed 1 c.radiusM}m"
  else .ok ()

def evaluateGeoPolygon (c : Constraint) (ctx : VerifierContext) : Except String Unit := do
  let at_ ← currentLocation ctx
  if c.points.length < 3 then .error "polygon has fewer than 3 points"
  else if polygonSpansAntimeridian c.points then
    .error "geo_polygon spans >180° longitude — v1 semantics are undefined for anti-meridian-crossing polygons (see SPEC §5.7.2)"
  else if !pointInPolygon at_.1 at_.2 c.points then .error "outside allowed polygon"
  else .ok ()

/-- The longitude check of a box: an ordinary one, or one that wraps the 180
degree meridian. -/
def evaluateLon (lon : Binary64) (c : Constraint) : Except String Unit :=
  if c.minLon.le c.maxLon then
    if lon.lt c.minLon || c.maxLon.lt lon then
      .error s!"longitude {P.fixed 6 lon} outside [{P.fixed 6 c.minLon}, {P.fixed 6 c.maxLon}]"
    else .ok ()
  else if lon.lt c.minLon && c.maxLon.lt lon then
    .error
      s!"longitude {P.fixed 6 lon} outside wrapped [{P.fixed 6 c.minLon}, {P.fixed 6 c.maxLon}]"
  else .ok ()

/-- The altitude check of a box, made unless both bounds are zero. -/
def evaluateAlt (alt : Option Binary64) (c : Constraint) : Except String Unit :=
  if !c.minAltM.eq .zero || !c.maxAltM.eq .zero then
    match alt with
    | none =>
      .error "constraint_unverifiable: no altitude in context but bbox has altitude bounds"
    | some alt =>
      if alt.lt c.minAltM || c.maxAltM.lt alt then
        .error
          s!"altitude {P.fixed 1 alt}m outside [{P.fixed 1 c.minAltM}m, {P.fixed 1 c.maxAltM}m]"
      else .ok ()
  else .ok ()

def evaluateGeoBbox (c : Constraint) (ctx : VerifierContext) : Except String Unit := do
  let at_ ← currentLocation ctx
  if at_.1.lt c.minLat || c.maxLat.lt at_.1 then
    .error s!"latitude {P.fixed 6 at_.1} outside [{P.fixed 6 c.minLat}, {P.fixed 6 c.maxLat}]"
  else
    evaluateLon P at_.2 c
    evaluateAlt P ctx.currentAltM c

/-- `{:02}`. -/
def twoDigits (n : Nat) : String := if n < 10 then s!"0{n}" else s!"{n}"

/-- The text of `%H:%M`. -/
def LocalClock.text (clock : LocalClock) : String :=
  s!"{twoDigits clock.hour}:{twoDigits clock.minute}"

def evaluateTimeWindow (c : Constraint) (nowSec : Int64) : Except String Unit :=
  if c.tz = "" ∨ c.start = "" ∨ c.end_ = "" then
    .error "malformed time_window: tz/start/end required"
  else
    match parseHhmm c.start with
    | none => .error s!"bad start time: {c.start}"
    | some start =>
      match parseHhmm c.end_ with
      | none => .error s!"bad end time: {c.end_}"
      | some end_ =>
        match P.timeZone c.tz with
        | none => .error s!"unknown timezone \"{c.tz}\""
        | some zone =>
          match zone nowSec with
          | none => .error "time_window: invalid now_sec"
          | some clock =>
            let cur : Int := clock.hour * 60 + clock.minute
            if start ≤ end_ then
              if cur < start ∨ cur > end_ then
                .error s!"current {clock.text} outside [{c.start}, {c.end_}] {c.tz}"
              else .ok ()
            else if cur < start ∧ cur > end_ then
              .error s!"current {clock.text} outside wrapped [{c.start}, {c.end_}] {c.tz}"
            else .ok ()

def evaluateMaxSpeed (c : Constraint) (ctx : VerifierContext) : Except String Unit :=
  match ctx.currentSpeedMps with
  | none => .error "constraint_unverifiable: no current speed in context"
  | some speed =>
    if c.maxMps.lt speed then
      .error s!"speed {P.fixed 2 speed}mps exceeds max {P.fixed 2 c.maxMps}mps"
    else .ok ()

def evaluateMaxAmount (c : Constraint) (ctx : VerifierContext) : Except String Unit :=
  match ctx.requestedAmount with
  | none => .error "constraint_unverifiable: no requested amount in context"
  | some amount =>
    match ctx.requestedCurrency with
    | none => .error "constraint_unverifiable: no requested currency in context"
    | some reqCcy =>
      if reqCcy ≠ c.currency then
        .error s!"currency mismatch: requested \"{reqCcy}\", constraint \"{c.currency}\""
      else if c.maxAmount.lt amount then
        .error
          s!"amount {P.fixed 2 amount} {reqCcy} exceeds max {P.fixed 2 c.maxAmount} {c.currency}"
      else .ok ()

def evaluateMaxRate (c : Constraint) (certId : String) (ctx : VerifierContext) :
    Except String Unit :=
  match ctx.invocationsInWindow with
  | none => .error "constraint_unverifiable: no rate counter in context"
  | some counter =>
    if c.count ≤ 0 ∨ c.windowS ≤ 0 then
      .error "malformed max_rate: count and window_s must be positive"
    else
      let got := counter certId c.windowS
      if got < 0 then
        .error s!"constraint_unverifiable: rate counter returned negative count {got.toInt}"
      else if got ≥ c.count then
        .error
          s!"rate limit exceeded: {got.toInt} invocations in last {c.windowS.toInt}s (max {c.count.toInt})"
      else .ok ()

/-- `evaluate_constraint`. -/
def evaluateConstraint (c : Constraint) (certId : String) (ctx : VerifierContext)
    (nowSec : Int64) : Except String Unit :=
  match c.kind with
  | "resource_path" => evaluateResourcePath c ctx
  | "geo_circle" => evaluateGeoCircle P c ctx
  | "geo_polygon" => evaluateGeoPolygon c ctx
  | "geo_bbox" => evaluateGeoBbox P c ctx
  | "time_window" => evaluateTimeWindow P c nowSec
  | "max_speed_mps" => evaluateMaxSpeed P c ctx
  | "max_amount" => evaluateMaxAmount P c ctx
  | "max_rate" => evaluateMaxRate c certId ctx
  | other => .error s!"constraint_unknown: unknown constraint type \"{other}\""

/-! ## Certificates -/

/-- One constraint; a kind that is not built in goes to its evaluator, if there
is one. -/
def evaluateWithExtensions (c : Constraint) (certId : String) (ctx : VerifierContext)
    (nowSec : Int64) (extEvaluators : Option (String → Option ConstraintEvaluator)) :
    Except String Unit :=
  match evaluateConstraint P c certId ctx nowSec with
  | .ok () => .ok ()
  | .error msg =>
    if startsWith msg "constraint_unknown:" then
      match extEvaluators.bind (· c.kind) with
      | some ev => ev c certId ctx nowSec
      | none => .error msg
    else .error msg

/-- The constraints from position `i` on. -/
def evaluateConstraintsFrom (i : Nat) (certId : String) (ctx : VerifierContext) (nowSec : Int64)
    (extEvaluators : Option (String → Option ConstraintEvaluator)) :
    List Constraint → Except String Unit
  | [] => .ok ()
  | c :: cs =>
    match evaluateWithExtensions P c certId ctx nowSec extEvaluators with
    | .error e => .error s!"constraint[{i}] ({c.kind}): {e}"
    | .ok () => evaluateConstraintsFrom (i + 1) certId ctx nowSec extEvaluators cs

/-- `evaluate_constraints`: every constraint of the certificate has to pass. -/
def evaluateConstraints (cert : DelegationCert) (ctx : VerifierContext) (nowSec : Int64)
    (extEvaluators : Option (String → Option ConstraintEvaluator)) : Except String Unit :=
  evaluateConstraintsFrom P 0 cert.certId ctx nowSec extEvaluators cert.constraints

/-- `text.contains(phrase)`. -/
def containsText (text phrase : String) : Bool := decide (phrase.toList <:+: text.toList)

/-- The status that a constraint failure becomes. -/
def constraintStatus (constraintErr : String) : String :=
  if containsText constraintErr "constraint_unverifiable" then "constraint_unverifiable"
  else if containsText constraintErr "constraint_unknown" then "constraint_unknown"
  else "constraint_denied"

/-- `fail_with_status`. -/
def failWithStatus (status msg : String) : VerifyResult :=
  { valid := false, identityStatus := (IdentityStatus.fromWire status).getD .invalid, humanId := ""
    agentId := "", grantedScope := [], errorReason := s!"{status}: {msg}", anchor := none }

/-- `evaluate_cert_constraints`: `none` when the constraints pass. -/
def evaluateCertConstraints (cert : DelegationCert) (i : Nat) (ctx : VerifierContext)
    (extEvaluators : Option (String → Option ConstraintEvaluator)) (now : Int64) :
    Option VerifyResult :=
  match evaluateConstraints P cert ctx now extEvaluators with
  | .ok () => none
  | .error constraintErr =>
    some (failWithStatus (constraintStatus constraintErr) s!"cert {i}: {constraintErr}")

end RatifyProtocol.V1
