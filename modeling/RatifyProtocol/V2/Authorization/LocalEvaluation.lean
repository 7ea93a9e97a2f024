import RatifyProtocol.V1.ScopeAttenuation
import RatifyProtocol.V2.Authorization.Sealing
import RatifyProtocol.V2.Delegation.Issuance
import RatifyProtocol.V2.TimeWindow
set_option autoImplicit false

/-!
# Authorization: the local evaluation

`evaluate_proof_bundle_v2_local_authorization` of `v2/authorization.rs`.  The first checks
end the evaluation; of the failures after them the first is kept until the certificates
have a status.
-/

namespace RatifyProtocol.V2

open Foundation

/-- `V2LocalAuthorizationOptions` without the token. -/
structure V2LocalAuthorizationOptions where
  futureSkewSeconds : Int
  requiredScope : String
  trustedRootId : String
  trustedRootKey : HybridPublicKey
  trustConfigured : Bool
  context : ConstraintContextV2
  tzdbVersion : String
  contextPolicy : Option V2ContextPolicy
  expectedChallenge : Option ExpectedChallengeV2

def scopeIdentityDelegate : String := "identity:delegate"

/-! ## Checks that end the evaluation -/

/-- `if bad { return a }`. -/
def endIf (bad : Bool) (a : V2LocalAuthorizationAssessment) :
    Except V2LocalAuthorizationAssessment Unit :=
  if bad then .error a else .ok ()

/-- A loop over the certificates that returns at the first bad one, from position `i`. -/
def endAtCert (bad : DelegationCertV2 → Bool)
    (a : Nat → DelegationCertV2 → V2LocalAuthorizationAssessment) :
    Nat → List DelegationCertV2 → Except V2LocalAuthorizationAssessment Unit
  | _, [] => .ok ()
  | i, c :: certs => do
    endIf (bad c) (a i c)
    endAtCert bad a (i + 1) certs

/-- Both timestamps inside the domain, a bounded lifetime, and an issue that is no later
than the clock may be wrong. -/
def certTimesInvalid (now futureSkew : Int) (c : DelegationCertV2) : Bool :=
  !validV2Timestamp c.issuedAt || !validV2Timestamp c.expiresAt
    || decide (c.issuedAt ≥ c.expiresAt)
    || decide (c.expiresAt - c.issuedAt > v2MaxDelegationLifetimeSeconds)
    || (checkedAddV2 now futureSkew).all fun latest => decide (c.issuedAt > latest)

def grantsDelegation (c : DelegationCertV2) : Bool := c.scope.contains scopeIdentityDelegate

/-- The text of the failure of a result. -/
def errorText {α : Type} : V2Result α → Option String
  | .ok _ => none
  | .error e => some e.message

/-- The text after a colon; a result that is no failure has none. -/
def failureText {α : Type} (r : V2Result α) : String := (errorText r).getD ""

/-- The chain against the trust root, the clock and the rules of delegation. -/
def checkChain (b : ProofBundleV2) (o : V2LocalAuthorizationOptions)
    (now futureSkew : Int) : Except V2LocalAuthorizationAssessment Unit :=
  match b.delegations.getLast? with
  | none => .error (v2LocalAssessment "delegation_not_authorized" "not_delegated" []
      "proof has no delegation certificates")
  | some root => do
    endIf (!o.trustConfigured) (v2LocalAssessment "authorization_unverified" "trust_unavailable" []
      "caller-authenticated trust configuration is unavailable")
    endIf (o.trustedRootId != root.issuerId || !equalKeys o.trustedRootKey root.issuerPubKey)
      (v2LocalAssessment "unauthorized" "unauthorized" []
        "delegation chain does not terminate at the configured trust root")
    endAtCert (certTimesInvalid now futureSkew)
      (fun i _ => v2LocalAssessment "invalid" "proof_invalid" []
        s!"delegation {i} has invalid time bounds") 0 b.delegations
    endAtCert (fun c => decide (now ≥ c.expiresAt))
      (fun i _ => v2LocalAssessment "expired" "delegation_expired" []
        s!"delegation {i} has expired") 0 b.delegations
    endAtCert (fun c => (errorText (validateScopesV2 c.scope)).isSome)
      (fun i c => v2LocalAssessment "invalid_scope" "invalid_scope" []
        s!"delegation {i}: {failureText (validateScopesV2 c.scope)}") 0 b.delegations
    -- Every certificate but the leaf's is the parent of another.
    endAtCert (fun parent => !grantsDelegation parent)
      (fun i _ => v2LocalAssessment "delegation_not_authorized" "delegation_not_authorized" []
        s!"parent delegation {i} does not grant {debugQuote scopeIdentityDelegate}") 1
      b.delegations.tail

variable (P : Primitives) (archive : ZoneArchive)

/-- The proof and the options against what the claim has sealed. -/
def checkSealed (b : ProofBundleV2) (o : V2LocalAuthorizationOptions) (t : V2EvaluationToken) :
    Except V2LocalAuthorizationAssessment Unit := do
  endIf (o.requiredScope != t.requiredScope || o.futureSkewSeconds != t.futureSkew)
    (v2InterruptedAssessment
      "local authorization state differs from successful preflight or atomic claim")
  endIf (o.requiredScope != t.expected.requiredScope)
    (v2InterruptedAssessment "required scope differs from the scope validated during preflight")
  endIf (!reads (bundleHashV2 P b) fun h => h == t.proofDigest)
    (v2InterruptedAssessment "proof bundle differs from the bundle validated during preflight")
  endIf (b.challenge != t.expected.value || b.challengeAt != t.expected.issuedAt
      || b.verifierId != t.expected.verifierId)
    (v2InterruptedAssessment
      "proof challenge differs from the challenge validated during preflight")
  endIf (errorText (validateRequiredScopeV2 o.requiredScope)).isSome
    (v2InterruptedAssessment
      s!"required scope changed after successful preflight: {failureText (validateRequiredScopeV2 o.requiredScope)}")
  endIf (errorText (verifyProofBundleV2Signatures P b)).isSome
    (v2InterruptedAssessment "proof signature changed after successful preflight")

/-- All checks up to the context policy. -/
def checkLocal (b : ProofBundleV2) (o : V2LocalAuthorizationOptions) (t : V2EvaluationToken) :
    Except V2LocalAuthorizationAssessment Unit := do
  checkSealed P b o t
  checkChain b o t.claimedAt t.futureSkew
  endIf (o.contextPolicy.isSome
      && !sameV2ContextPolicy o.contextPolicy t.expected.contextPolicy)
    (v2InterruptedAssessment
      "context policy differs from the policy sealed during successful preflight")

/-! ## Failures that are kept -/

def ConstraintStatusV2.text : ConstraintStatusV2 → String
  | .passed => "passed"
  | .unverifiable => "constraint_unverifiable"
  | .unknown => "constraint_unknown"
  | .denied => "constraint_denied"

def effectiveScopes (b : ProofBundleV2) : List String :=
  V1.intersectScopes (b.delegations.map DelegationCertV2.scope)

def scopeFailure (b : ProofBundleV2) (requiredScope : String) : Option V2LocalPolicyFailure :=
  if (effectiveScopes b).contains requiredScope then none
  else some
    { status := "scope_denied", reason := "scope_denied"
      detail :=
        s!"required scope {debugQuote requiredScope} is not in the effective delegation scope" }

def contextFailure (a : V2ContextPolicyAssessment) : Option V2LocalPolicyFailure :=
  if a.status = "passed" then none
  else some { status := a.status, reason := a.reason, detail := a.detail }

def constraintFailure (r : LocalConstraints) : Option V2LocalPolicyFailure :=
  if r.status = .passed then none
  else some
    { status := r.status.text, reason := r.status.text
      detail := "; ".intercalate (r.failures.insertionSort (· ≤ ·)) }

/-- What the constraints are evaluated against. -/
def V2EvaluationToken.localInputs (t : V2EvaluationToken) (o : V2LocalAuthorizationOptions) :
    LocalInputs :=
  { archive, evaluators := t.expected.evaluators, context := o.context
    tzdbVersion := o.tzdbVersion, now := t.claimedAt }

/-- The first failure of the scope, the context and the constraints. -/
def policyFailure (b : ProofBundleV2) (o : V2LocalAuthorizationOptions) (t : V2EvaluationToken) :
    Option V2LocalPolicyFailure :=
  ((scopeFailure b o.requiredScope).or
    (contextFailure (evaluateProofBundleV2ContextPolicy b t.expected.contextPolicy))).or
    (constraintFailure (evaluateV2LocalConstraints (t.localInputs archive o) b))

/-- The windows bound an allow; a window that has no bound is a failure like the others. -/
def windowHorizon (b : ProofBundleV2) (o : V2LocalAuthorizationOptions) (t : V2EvaluationToken) :
    V2Result Int :=
  match policyFailure archive b o t with
  | some _ => .ok 0
  | none => localTimeWindowValidUntilV2 archive b o.tzdbVersion t.claimedAt

def windowFailure : V2Result Int → Option V2LocalPolicyFailure
  | .ok _ => none
  | .error e => some { status := "constraint_unverifiable", reason := "constraint_unverifiable"
                       detail := e.message }

/-- Loop over the expiries; zero for an empty chain. -/
def delegationValidUntil (b : ProofBundleV2) : Int :=
  ((b.delegations.map DelegationCertV2.expiresAt).min?).getD 0

/-- The certificates whose status decides. -/
def statusChecks (b : ProofBundleV2) : List V2CertificateStatusCheck :=
  b.delegations.zipIdx.map fun c =>
    { delegationIndex := c.2, issuerId := c.1.issuerId, subjectId := c.1.subjectId
      certId := c.1.certId }

/-- What the local stage leaves to the stages after it. -/
def pendingV2LocalAssessment (b : ProofBundleV2) (o : V2LocalAuthorizationOptions)
    (t : V2EvaluationToken) : V2LocalAuthorizationAssessment :=
  let context := evaluateProofBundleV2ContextPolicy b t.expected.contextPolicy
  let constraints := evaluateV2LocalConstraints (t.localInputs archive o) b
  { v2LocalAssessment "pending_external_checks" "external_checks_required" (effectiveScopes b)
      "local checks recorded; status and deferred authorization checks remain" with
    agentId := b.agentId
    rootId := o.trustedRootId
    requiredScope := o.requiredScope
    delegationDigest := b.delegationDigest
    statusChecks := statusChecks b
    deferred := constraints.deferred
    extensionValidUntil := constraints.extensionHorizon
    delegationValidUntil := delegationValidUntil b
    localPolicyFailure := (policyFailure archive b o t).or (windowFailure (windowHorizon archive b o t))
    localTimeValidUntil := ((windowHorizon archive b o t).toOption).getD 0
    contextAssessment := context.assessment
    contextPolicyDigest := context.policyDigest }

/-- `evaluate_local_started`, with the time that it writes. -/
def evaluateLocalStarted (b : ProofBundleV2) (o : V2LocalAuthorizationOptions)
    (t : V2EvaluationToken) : V2LocalAuthorizationAssessment × Int :=
  if !t.claimTimeValid then
    (v2InterruptedAssessment
      "claim store returned an authoritative claim time outside the authenticated freshness bounds",
      t.evaluatedAt)
  else if o.expectedChallenge.any fun e => !matchesExpectedChallengeV2 e t.expected then
    (v2InterruptedAssessment
      "local authorization challenge state differs from successful preflight or atomic claim",
      t.evaluatedAt)
  else
    match checkLocal P b o t with
    | .error a => (a, t.claimedAt)
    | .ok () => (pendingV2LocalAssessment archive b o t, t.claimedAt)

/-! ## The evaluation -/

/-- The assessment under the identity that was claimed. -/
def V2LocalAuthorizationAssessment.claimed (a : V2LocalAuthorizationAssessment)
    (t : V2EvaluationToken) : V2LocalAuthorizationAssessment :=
  { a with bundleHash := t.expected.bundleHash, issuerIds := t.expected.issuerIds }

/-- `evaluate_proof_bundle_v2_local_authorization` with a token.  Its two writes are one step
here: no other stage proceeds before the evaluation is complete. -/
def V2EvaluationToken.evaluate (b : ProofBundleV2) (o : V2LocalAuthorizationOptions)
    (t : V2EvaluationToken) : V2LocalAuthorizationAssessment × V2EvaluationToken :=
  if !reads (protocolClaimIdV2 P t.expected.verifierNamespace t.expected.replayEpoch
        t.expected.value) (fun id => id == t.claimId)
      || t.proofDigest != t.expected.bundleHash || decide (t.ownerToken.length ≠ 32) then
    ((v2InterruptedAssessment
      "local authorization state differs from successful preflight or atomic claim").claimed t, t)
  else if t.used then
    ((v2LocalAssessment "evaluation_in_progress" "claim_in_progress" []
      "the claim's single evaluation token has already been used").claimed t, t)
  else
    let (a, evaluatedAt) := evaluateLocalStarted P archive b o t
    let a := a.claimed t
    (a, { t with
          m := { t.m with evaluationStatus := a.status, evaluationReason := a.reason }
          pendingAssessment := if a.status = "pending_external_checks" then some a
            else t.pendingAssessment
          used := true, evaluatedAt, evaluationComplete := true })

end RatifyProtocol.V2
