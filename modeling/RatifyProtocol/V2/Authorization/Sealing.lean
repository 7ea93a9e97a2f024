import RatifyProtocol.V2.Authorization.Preflight
import RatifyProtocol.V2.Authorization.RateBatch
import RatifyProtocol.V2.Finalization
import RatifyProtocol.V2.Interrupted
import RatifyProtocol.V2.Reference.Store
import RatifyProtocol.V2.Status.Aggregate
set_option autoImplicit false

/-!
# Authorization: the claim and its token

`claim_proof_bundle_v2_inner` of `v2/claim_store.rs`.  The checks of the preflight are made
again, the claim is sealed from what the preflight has kept, and the answer of the store
becomes the one token that may evaluate it.
-/

namespace RatifyProtocol.V2

open Foundation

/-! ## Assessments -/

/-- A verdict that is kept until every certificate has a status. -/
structure V2LocalPolicyFailure where
  status : String
  reason : String
  detail : String
  deriving DecidableEq, Repr

/-- An intermediate result; no field of it is a decision. -/
structure V2LocalAuthorizationAssessment where
  bundleHash : String
  issuerIds : List String
  agentId : String
  rootId : String
  requiredScope : String
  delegationDigest : Bytes
  effectiveScope : List String
  contextAssessment : String
  contextPolicyDigest : Option String
  statusAssessment : String
  delegationValidUntil : Int
  localTimeValidUntil : Int
  extensionValidUntil : Int
  statusFreshUntil : Int
  audienceFreshUntil : Int
  statusEvidence : List StatusEvidenceEntryV2
  audienceEvidenceDigests : List String
  rateStoreUnavailable : Bool
  rateAdmissionDeferred : Bool
  statusChecks : List V2CertificateStatusCheck
  deferred : List V2DeferredConstraint
  localPolicyFailure : Option V2LocalPolicyFailure
  status : String
  reason : String
  detail : String
  deriving DecidableEq, Repr

/-- `v2_local_assessment`. -/
def v2LocalAssessment (status reason : String) (scope : List String) (detail : String) :
    V2LocalAuthorizationAssessment :=
  { bundleHash := "", issuerIds := [], agentId := "", rootId := "", requiredScope := ""
    delegationDigest := [], effectiveScope := scope, contextAssessment := "not_evaluated"
    contextPolicyDigest := none, statusAssessment := "", delegationValidUntil := 0
    localTimeValidUntil := 0, extensionValidUntil := 0, statusFreshUntil := 0
    audienceFreshUntil := 0, statusEvidence := [], audienceEvidenceDigests := []
    rateStoreUnavailable := false, rateAdmissionDeferred := false, statusChecks := []
    deferred := [], localPolicyFailure := none, status, reason, detail }

/-- `v2_interrupted_assessment`. -/
def v2InterruptedAssessment (detail : String) : V2LocalAuthorizationAssessment :=
  v2LocalAssessment "authorization_unverified" "evaluation_interrupted" [] detail

/-! ## The token -/

/-- The one evaluation of a claim; finalization reads its first part only. -/
structure V2EvaluationToken extends TokenState where
  proofDigest : String
  requiredScope : String
  futureSkew : Int
  expected : ExpectedChallengeStateV2
  used : Bool
  claimTimeValid : Bool
  claimedAt : Int
  rateBatch : List V2RateReservation
  evaluatedAt : Int
  pendingAssessment : Option V2LocalAuthorizationAssessment

/-- `TokenMut::default`. -/
def TokenMut.initial : TokenMut :=
  { finalizationDigest := List.replicate 32 0, finalizationStarted := false
    rateAtFinalization := false, allowValidUntil := 0, evaluationStatus := ""
    evaluationReason := "" }

/-- The token of a claim that the store has created. -/
def V2EvaluationToken.ofClaim (sealed : ExpectedChallengeStateV2) (claim : V2ChallengeClaim)
    (claimedAt : Int) (ownerToken : Bytes) : V2EvaluationToken :=
  { claimId := claim.claimId, claim, ownerToken, evaluationComplete := false
    m := .initial, proofDigest := claim.proofDigest, requiredScope := sealed.requiredScope
    futureSkew := sealed.futureSkew, expected := sealed, used := false
    -- The store's own time has to satisfy the deadlines of the challenge.
    claimTimeValid := v2ChallengeTimeCurrent claimedAt sealed.issuedAt sealed.expiresAt
      sealed.maxAge sealed.futureSkew
    claimedAt, rateBatch := claim.rateBatch, evaluatedAt := 0, pendingAssessment := none }

variable (P : Primitives)

/-! ## Sealing -/

/-- The inputs of the preflight that a claim repeats. -/
def claimTimeInputs (sealed : ExpectedChallengeStateV2) (configuredNamespace : String)
    (configuredReplayEpoch now : Int) : PreflightInputs :=
  { requiredScope := sealed.requiredScope, configuredNamespace, configuredReplayEpoch
    configuredVerifierId := sealed.verifierId, now, maxAgeSeconds := sealed.maxAge
    futureSkewSeconds := sealed.futureSkew }

/-- What `claim_proof_bundle_v2_inner` does before it calls the store. -/
def sealChallengeClaim (sealed : ExpectedChallengeStateV2) (b : ProofBundleV2)
    (configuredNamespace : String) (configuredReplayEpoch now : Int) :
    V2Result V2ChallengeClaim := do
  refuseAs .configurationInvalid (sealed.contextPolicy.isNone && !sealed.noContextPolicy)
    "v2 successful preflight state is required before claim"
  refuseAs .configurationInvalid (!reads (bundleHashV2 P b) fun h => h == sealed.bundleHash)
    "v2 proof bundle differs from successful preflight"
  withContext
    (validateProofBundleV2Preflight P b sealed.toExpectedChallengeV2
      (claimTimeInputs sealed configuredNamespace configuredReplayEpoch now))
    "v2 claim-time preflight"
  let challengeDigest ← challengeClaimDigestV2 P sealed.value
  let claimId ← protocolClaimIdV2 P sealed.verifierNamespace sealed.replayEpoch sealed.value
  let rateBatch ← classify .malformed
    (withContext (signedV2RateReservationBatch b) "v2 signed rate batch")
  .ok { claimId, «namespace» := sealed.verifierNamespace, replayEpoch := sealed.replayEpoch
        challengeDigest := "sha384:" ++ hexEncode challengeDigest
        proofDigest := sealed.bundleHash, bundleHash := sealed.bundleHash
        issuerIds := sealed.issuerIds, requiredScope := sealed.requiredScope
        contextPolicyDigest := sealed.contextPolicyDigest, verifierId := sealed.verifierId
        agentId := b.agentId, requiresRate := !rateBatch.isEmpty, rateBatch
        issuedAt := sealed.issuedAt, expiresAt := sealed.expiresAt
        maxAgeSeconds := sealed.maxAge, clockSkewSeconds := sealed.futureSkew
        streamId := b.streamId, streamSeq := b.streamSeq
        constraintEvaluators := sealed.evaluatorRefs }

/-- What `claim_proof_bundle_v2_inner` makes of the answer of the store: a token for a claim
that the store created. -/
def claimAnswer (sealed : ExpectedChallengeStateV2) (claim : V2ChallengeClaim)
    (result : V2ClaimResult) : V2Result (Option V2EvaluationToken) :=
  match result.disposition with
  | .created =>
    if result.ownerToken.length ≠ 32 then
      plain "v2 claim store returned an invalid evaluator owner token"
    else .ok (some (.ofClaim sealed claim result.claimedAt result.ownerToken))
  | _ =>
    if result.ownerToken ≠ [] then
      plain "v2 exact retry must not receive evaluator ownership"
    else .ok none

/-! ## What a sealed claim is -/

/-- A claim of a verified bundle, with all that its store and its receipts rely on. -/
structure SealedClaim (P : Primitives) (sealed : ExpectedChallengeStateV2) (b : ProofBundleV2)
    (now : Int) (claim : V2ChallengeClaim) : Prop where
  chain : SignedChain P b
  hash : bundleHashV2 P b = .ok claim.bundleHash
  proof : claim.proofDigest = claim.bundleHash
  fields : claim.bundleHash = sealed.bundleHash ∧ claim.issuerIds = sealed.issuerIds
    ∧ claim.requiredScope = sealed.requiredScope
    ∧ claim.constraintEvaluators = sealed.evaluatorRefs
    ∧ claim.contextPolicyDigest = sealed.contextPolicyDigest
  names : claim.verifierId = b.verifierId ∧ claim.agentId = b.agentId
  identity : protocolClaimIdV2 P sealed.verifierNamespace sealed.replayEpoch sealed.value
    = .ok claim.claimId
  keyed : claimIdMatchesKey P claim = true
  current : challengeClaimTimeCurrentV2 claim now = true
  scope : validateRequiredScopeV2 claim.requiredScope = .ok ()
  batch : signedV2RateReservationBatch b = .ok claim.rateBatch
  requiresRate : claim.requiresRate = !claim.rateBatch.isEmpty
  stream : claim.streamId = b.streamId ∧ claim.streamSeq = b.streamSeq

variable {P} {sealed : ExpectedChallengeStateV2} {b b₀ : ProofBundleV2} {now : Int}
  {claim : V2ChallengeClaim} {ns : String} {epoch : Int}

theorem sealChallengeClaim_eq_ok (h : sealChallengeClaim P sealed b ns epoch now = .ok claim) :
    SealedClaim P sealed b now claim := by
  rw [sealChallengeClaim] at h
  obtain ⟨_, -, h⟩ := bind_eq_ok_iff.mp h
  obtain ⟨_, hsame, h⟩ := bind_eq_ok_iff.mp h
  obtain ⟨_, hvalid, h⟩ := bind_eq_ok_iff.mp h
  obtain ⟨digest, hdigest, h⟩ := bind_eq_ok_iff.mp h
  obtain ⟨claimId, hid, h⟩ := bind_eq_ok_iff.mp h
  obtain ⟨batch, hbatch, h⟩ := bind_eq_ok_iff.mp h
  obtain rfl := Except.ok.inj h
  obtain ⟨hchain, hscope, hanswers⟩ :=
    validateProofBundleV2Preflight_eq_ok (withContext_eq_ok_iff.mp hvalid)
  have hhash : bundleHashV2 P b = .ok sealed.bundleHash := by
    have hreads := refuseAs_eq_ok_iff.mp hsame
    rw [Bool.not_eq_false'] at hreads
    obtain ⟨hash, hhash, heq⟩ := exists_of_reads hreads
    rw [hhash, beq_iff_eq.mp heq]
  have hderived : protocolClaimIdFromDigestV2 P sealed.verifierNamespace sealed.replayEpoch digest
      = .ok claimId := by
    rw [protocolClaimIdV2] at hid
    obtain ⟨_, -, hid⟩ := bind_eq_ok_iff.mp hid
    obtain ⟨digest', hdigest', hid⟩ := bind_eq_ok_iff.mp hid
    rw [hdigest] at hdigest'
    obtain rfl := Except.ok.inj hdigest'
    exact hid
  have hlength : digest.length = 48 := by
    rw [protocolClaimIdFromDigestV2] at hderived
    obtain ⟨_, -, hderived⟩ := bind_eq_ok_iff.mp hderived
    split at hderived
    · exact absurd hderived err_ne_ok
    · rename_i hlength
      exact not_not.mp hlength
  exact
    { chain := hchain, hash := hhash, proof := rfl
      fields := ⟨rfl, rfl, rfl, rfl, rfl⟩
      names := ⟨hanswers.verifier.2.symm, rfl⟩
      identity := hid
      keyed := claimIdMatchesKey_of_derived P rfl hlength hderived
      current := hanswers.fresh
      scope := hscope
      batch := withContext_eq_ok_iff.mp (classify_eq_ok_iff.mp hbatch)
      requiresRate := rfl
      stream := ⟨rfl, rfl⟩ }

/-- The values that a receipt of the claim repeats are well formed, for any preflight that
sealed them. -/
theorem SealedClaim.wellFormed {c : PreflightInputs} (h : SealedClaim P sealed b now claim)
    (hpre : Preflighted P b₀ c sealed) : SealedWellFormed claim := by
  obtain ⟨hbundle, hissuers, hscope, hevaluators, -⟩ := h.fields
  have hmem : ∀ id, id ∈ claim.issuerIds ↔ id ∈ b₀.delegations.map DelegationCertV2.issuerId := by
    intro id
    rw [hissuers, hpre.issuers]
    exact mem_sortedUnique
  exact
    { verifierId := h.names.1 ▸ h.chain.verifier
      agentId := .inr (h.names.2 ▸ h.chain.agent)
      bundleHash := by
        obtain ⟨encoded, -, hhash⟩ := bind_eq_ok_iff.mp h.hash
        rw [← Except.ok.inj hhash]
        exact validPrefixedDigest_hexEncode (P.length_sha384 _)
      issuerIds := by
        intro id hid
        obtain ⟨cert, hcert, rfl⟩ := List.mem_map.mp ((hmem id).mp hid)
        exact (hpre.chain.certs cert hcert).issuer.1
      requiredScope := classify_eq_ok_iff.mp h.scope
      evaluators := hevaluators ▸ hpre.evaluators.1
      delegated := by
        intro hrefs hnone
        have hcerts := hpre.evaluators.2 (hevaluators ▸ hrefs)
        obtain ⟨cert, hcert⟩ := List.exists_mem_of_ne_nil _ hcerts
        have hid := (hmem cert.issuerId).mpr (List.mem_map_of_mem hcert)
        rw [hnone] at hid
        cases hid }

end RatifyProtocol.V2
