import RatifyProtocol.V2.Authorization.LocalEvaluation
import RatifyProtocol.V2.Delegation.AudienceOrder
set_option autoImplicit false

/-!
# Authorization: the stages after the local evaluation

Status, audience and rate of `v2/authorization.rs`.  Each stage holds the token from its
first check to its last write, and goes on from the assessment that the one before it has
left there.
-/

namespace RatifyProtocol.V2

open Foundation

/-! ## Assessments -/

namespace V2LocalAuthorizationAssessment

def conclude (a : V2LocalAuthorizationAssessment) (status reason detail : String) :
    V2LocalAuthorizationAssessment :=
  { a with status, reason, detail }

def fail (a : V2LocalAuthorizationAssessment) (f : V2LocalPolicyFailure) :
    V2LocalAuthorizationAssessment := a.conclude f.status f.reason f.detail

def pending (a : V2LocalAuthorizationAssessment) (reason detail : String) :
    V2LocalAuthorizationAssessment := a.conclude "pending_external_checks" reason detail

def authorize (a : V2LocalAuthorizationAssessment) (detail : String) :
    V2LocalAuthorizationAssessment := a.conclude "authorized_agent" "authorized" detail

def withStatus (a : V2LocalAuthorizationAssessment) (aggregated : V2StatusAssessment) :
    V2LocalAuthorizationAssessment :=
  { a with
    statusAssessment := aggregated.assessment
    statusFreshUntil := aggregated.freshUntil
    statusEvidence := aggregated.evidence }

def withAudience (a : V2LocalAuthorizationAssessment) (result : V2AudienceAssessment) :
    V2LocalAuthorizationAssessment :=
  { a with
    audienceEvidenceDigests := result.evidenceDigests
    audienceFreshUntil := result.freshUntil }

/-- Only some of the deferred constraints remain. -/
def keep (a : V2LocalAuthorizationAssessment) (p : V2DeferredConstraint → Bool) :
    V2LocalAuthorizationAssessment := { a with deferred := a.deferred.filter p }

end V2LocalAuthorizationAssessment

/-- `allow_horizon_v2`: zero is no deadline but for those that are always there. -/
def allowHorizonV2 (a : V2LocalAuthorizationAssessment) : Int :=
  min (boundBy (boundBy (boundBy (min a.delegationValidUntil a.statusFreshUntil)
    a.audienceFreshUntil) a.localTimeValidUntil) a.extensionValidUntil) v2MaxTimestampSeconds

/-- `combinable_with_audience_v2`. -/
def combinableWithAudienceV2 (failure : Option V2LocalPolicyFailure)
    (deferred : List V2DeferredConstraint) : Bool :=
  match failure with
  | some f => (f.status == "constraint_unknown" || f.status == "constraint_unverifiable")
      && deferred.any V2DeferredConstraint.isAudience
  | none => false

/-- `constraint_precedence_v2`. -/
def constraintPrecedenceV2 (status : String) : Nat :=
  if status = "constraint_denied" then 3
  else if status = "constraint_unknown" then 2
  else if status = "constraint_unverifiable" then 1
  else 0

/-! ## The token -/

namespace V2EvaluationToken

/-- What a stage that went through writes back. -/
def settle (t : V2EvaluationToken) (a : V2LocalAuthorizationAssessment) : V2EvaluationToken :=
  { t with
    m := { t.m with
      evaluationStatus := a.status
      evaluationReason := a.reason
      allowValidUntil := if a.status = "authorized_agent" then allowHorizonV2 a
        else t.m.allowValidUntil }
    pendingAssessment := if a.status = "pending_external_checks" then some a else none }

/-- What a stage writes that has found the token inconsistent. -/
def mismatched (t : V2EvaluationToken) : V2EvaluationToken :=
  { t with
    m := { t.m with
      evaluationStatus := "authorization_unverified", evaluationReason := "evaluation_interrupted" }
    pendingAssessment := none }

/-- `interrupt_v2_evaluation`. -/
def interrupt (t : V2EvaluationToken) : V2EvaluationToken :=
  { t with
    m := { t.m with
      evaluationStatus := "authorization_unverified", evaluationReason := "evaluation_interrupted"
      allowValidUntil := 0, rateAtFinalization := false }
    pendingAssessment := none
    evaluationComplete := true }

/-- The assessment that the next stage goes on from. -/
def pending (t : V2EvaluationToken) : Option V2LocalAuthorizationAssessment :=
  if t.evaluationComplete && t.m.evaluationStatus == "pending_external_checks" then
    t.pendingAssessment
  else none

/-- An assessment of what was claimed. -/
def binds (t : V2EvaluationToken) (a : V2LocalAuthorizationAssessment) : Bool :=
  a.bundleHash == t.expected.bundleHash && a.requiredScope == t.expected.requiredScope

end V2EvaluationToken

/-! ## Status -/

/-- What the status of the chain makes of a pending assessment. -/
def resolveStatus (a : V2LocalAuthorizationAssessment) (aggregated : V2StatusAssessment) :
    V2Result V2LocalAuthorizationAssessment :=
  let a := a.withStatus aggregated
  if aggregated.assessment = "revoked" then
    .ok (a.conclude "revoked" "delegation_revoked"
      "at least one delegation certificate is revoked")
  else if aggregated.assessment = "unavailable" then
    .ok (a.conclude "authorization_unverified" "status_unavailable"
      "one or more delegation certificate statuses are unavailable")
  else if aggregated.assessment = "stale" then
    .ok (a.conclude "authorization_unverified" "status_stale"
      "one or more delegation certificate statuses are stale")
  else if aggregated.assessment = "current" then
    -- A denied audience on another link outranks an unknown or unverifiable constraint, so
    -- the audience stage still runs; rate never follows.
    if combinableWithAudienceV2 a.localPolicyFailure a.deferred then
      .ok ((a.keep V2DeferredConstraint.isAudience).pending "deferred_policy_checks_required"
        "status is current; audience must be aggregated with a pending local constraint result")
    else
      match a.localPolicyFailure with
      | some f => .ok (a.fail f)
      | none =>
        if a.deferred.isEmpty then
          .ok (a.authorize "proof, status, and local authorization checks passed")
        else
          .ok (a.pending "deferred_policy_checks_required"
            "status is current; deferred audience or rate checks remain")
  else plain "v2 status aggregator returned an unknown assessment"

/-- `resolve_claim_proof_bundle_v2_after_status`. -/
def V2EvaluationToken.afterStatus
    (aggregate : List V2CertificateStatusCheck → V2Result V2StatusAssessment)
    (t : V2EvaluationToken) : V2Result V2LocalAuthorizationAssessment × V2EvaluationToken :=
  match t.pending with
  | none => (plain "v2 claim does not have a pending status assessment", t)
  | some a =>
    if !t.binds a then (plain "pending status assessment differs from its claimed proof", t)
    else
      match aggregate a.statusChecks >>= resolveStatus a with
      | .error e => (.error e, t)
      | .ok a => (.ok a, t.settle a)

/-! ## Audience -/

/-- A failure of the local stage together with the audience: denied, then unknown, then
unverifiable, whatever the links are. -/
def resolveAudience (a : V2LocalAuthorizationAssessment) (result : V2AudienceAssessment) :
    V2LocalAuthorizationAssessment :=
  let a := a.withAudience result
  match a.localPolicyFailure with
  | some f =>
    let a := { a with deferred := [] }
    if result.status = .passed
        ∨ constraintPrecedenceV2 f.status > constraintPrecedenceV2 result.status.text then a.fail f
    else a.conclude result.status.text result.status.text
      "receiver audience did not authorize this receiver"
  | none =>
    if result.status ≠ .passed then
      a.conclude result.status.text result.status.text
        "receiver audience did not authorize this receiver"
    else
      let a := a.keep fun d => !d.isAudience
      if a.deferred.isEmpty then
        a.authorize "proof, status, audience, and local authorization checks passed"
      else a.pending "rate_reservation_required" "audience passed; rate reservation remains"

/-- `resolve_after_audience_inner`. -/
def V2EvaluationToken.afterAudience (memberships : List V2AudienceMembership)
    (t : V2EvaluationToken) : V2Result V2LocalAuthorizationAssessment × V2EvaluationToken :=
  match t.pending.filter fun a => a.statusAssessment == "current"
      && (a.localPolicyFailure.isNone
        || combinableWithAudienceV2 a.localPolicyFailure a.deferred) with
  | none => (plain "v2 claim does not have current status and pending audience checks", t)
  | some a =>
    if !t.binds a then
      (plain "pending audience assessment differs from its claimed proof", t.mismatched)
    else
      match evaluateReceiverAudience a.deferred t.expected.expectedReceiverId memberships
          t.evaluatedAt t.futureSkew with
      | .error e => (.error e, t.mismatched)
      | .ok result => (.ok (resolveAudience a result), t.settle (resolveAudience a result))

/-! ## Rate -/

/-- The rate store of a verifier. -/
inductive RateStore where
  | absent
  /-- `rate_at_finalization_view` is there: the batch is admitted with the result. -/
  | atFinalization
  | reserving
  deriving DecidableEq, Repr

/-- The arguments of `reserve_v2_rate_batch`. -/
structure Reservation where
  claimId : String
  ownerToken : Bytes
  bundleHash : String
  batch : List V2RateReservation
  deriving DecidableEq, Repr

/-- The assessment that the rate stage may go on from, or its error with the token that it
leaves. -/
def V2EvaluationToken.checkRate (t : V2EvaluationToken) :
    Except (V2Error × V2EvaluationToken) V2LocalAuthorizationAssessment :=
  match t.pending.filter fun a => a.statusAssessment == "current"
      && a.localPolicyFailure.isNone with
  | none => .error (V2Error.plain "v2 claim does not have current status and pending rate checks", t)
  | some a =>
    if !t.binds a || t.rateBatch.isEmpty then
      .error (V2Error.plain "pending rate assessment differs from its claimed proof", t.mismatched)
    else if a.deferred.any fun d => d.kind != constraintMaxRate then
      .error (V2Error.plain "audience or unknown checks remain before rate reservation", t)
    else if !reads (buildV2RateReservationBatchInner a.deferred) fun batch => batch == t.rateBatch then
      .error (V2Error.plain "pending rate checks differ from sealed signed batch", t.mismatched)
    else .ok a

/-- What the answer of the rate store makes of the assessment. -/
def resolveRate (a : V2LocalAuthorizationAssessment) (atFinalization : Bool)
    (result : V2StoreResult Unit) : V2LocalAuthorizationAssessment :=
  match result with
  | .ok () =>
    { a.authorize (if atFinalization then
          "proof, status, and audience passed; rate admission is deferred to durable finalization"
        else "proof, status, audience, and rate checks passed") with deferred := [] }
  | .error .rateLimitExceeded =>
    { a.conclude "constraint_denied" "constraint_denied"
        "signed rate limit has no remaining capacity" with deferred := [] }
  | .error _ =>
    { a.conclude "constraint_unverifiable" "constraint_unverifiable"
        "rate reservation could not be verified" with
      deferred := []
      rateStoreUnavailable := true }

/-- `resolve_after_rate_inner`; no answer is a store that panicked. -/
def V2EvaluationToken.afterRate (cancelled : Bool) (store : RateStore) (t : V2EvaluationToken) :
    Interaction Reservation (Option (V2StoreResult Unit))
      (V2Result V2LocalAuthorizationAssessment × V2EvaluationToken) :=
  if cancelled then .ret (plain "v2 rate evaluation context is done", t)
  else
    match t.checkRate with
    | .error (e, t) => .ret (.error e, t)
    | .ok a =>
      let finish (t : V2EvaluationToken) (a : V2LocalAuthorizationAssessment)
          (result : V2StoreResult Unit) :=
        let a := resolveRate a t.m.rateAtFinalization result
        Interaction.ret (Except.ok a, t.settle a)
      match store with
      | .absent => finish t a (.error (.unavailable "v2 rate reservation store is unavailable"))
      | .atFinalization =>
        finish { t with m := { t.m with rateAtFinalization := true } }
          { a with rateAdmissionDeferred := true } (.ok ())
      | .reserving =>
        .call ⟨t.claimId, t.ownerToken, a.bundleHash, t.rateBatch⟩ fun answer =>
          finish t a (answer.getD (.error (.unavailable "rate store panicked")))

end RatifyProtocol.V2
