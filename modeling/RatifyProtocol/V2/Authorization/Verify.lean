import RatifyProtocol.Foundation.Dialogue
import RatifyProtocol.V2.Authorization.Stages
import RatifyProtocol.V2.Progress
import RatifyProtocol.V2.ReleaseRecord
set_option autoImplicit false

/-!
# Authorization: the verification of a proof

`verify_proof_bundle_v2` of `v2/verify.rs`: a dialogue with the claim store, the providers
and the caller's own context.  The status stage is one question here, whatever it asks of
its provider and its journal.
-/

namespace RatifyProtocol.V2

open Foundation

/-! ## Requests -/

inductive V2TrustOutcome where
  | trusted
  | untrusted
  | unavailable
  | ambiguous
  deriving DecidableEq, Repr

structure V2TrustResolution where
  outcome : V2TrustOutcome
  rootKey : HybridPublicKey

/-- The status key that the caller has authenticated for one issuer. -/
structure V2StatusKeyConfig where
  epoch : Nat
  key : HybridPublicKey

/-- One live verification. -/
structure V2VerifyRequest where
  bundle : Bytes
  expected : Option ExpectedChallengeV2
  contextPolicy : Option V2ContextPolicy
  requiredScope : String
  verifierNamespace : String
  replayEpoch : Int
  verifierId : String
  now : Int
  maxChallengeAgeSeconds : Int
  futureSkewSeconds : Int
  context : ConstraintContextV2
  tzdbVersion : String
  statusKeys : OrderedMap String V2StatusKeyConfig
  statusPolicy : RevocationStatusPolicyV2
  constraintEvaluators : Option ConstraintEvaluatorRegistryV2

/-- The dependencies of a verifier.  The claim store is known by whether it has a
`rate_at_finalization_view`. -/
structure V2VerifyCallbacks where
  receiverBinding : Option V2ReceiverBindingHook
  claimStore : Option Bool
  trust : Bool
  audience : Bool
  rate : RateStore

inductive V2VerifyStage where
  | preflight
  | replay
  | evaluating
  | committed
  deriving DecidableEq, Repr

/-- The result of a verification; it has no decision. -/
structure V2VerifyOutcome where
  stage : V2VerifyStage
  error : Option V2Error
  disposition : Option V2ClaimDisposition
  claim : Option V2ChallengeClaim
  committed : Option CommittedV2Outcome
  deriving DecidableEq

namespace V2VerifyOutcome

def errorClass (outcome : V2VerifyOutcome) : Option V2ErrorClass := outcome.error.map V2Error.cls

/-- A failure before the claim; the source returns a default claim. -/
def preflightFailure (e : V2Error) : V2VerifyOutcome :=
  { stage := .preflight, error := some e, disposition := none, claim := none, committed := none }

def replay (disposition : V2ClaimDisposition) (claim : V2ChallengeClaim) : V2VerifyOutcome :=
  { stage := .replay, error := none, disposition := some disposition, claim := some claim
    committed := none }

def evaluating (claim : V2ChallengeClaim) (e : V2Error) : V2VerifyOutcome :=
  { stage := .evaluating, error := some e, disposition := some .created, claim := some claim
    committed := none }

def cancelled (claim : V2ChallengeClaim) : V2VerifyOutcome :=
  evaluating claim (V2Error.new .evaluationCancelled
    "v2 evaluation cancelled before commit: context done")

def commits (claim : V2ChallengeClaim) (body : Bytes) (horizon : Int) : V2VerifyOutcome :=
  { stage := .committed, error := none, disposition := some .created, claim := some claim
    committed := some (.new claim body horizon) }

end V2VerifyOutcome

/-! ## Configuration -/

def maxExtensionContextEntriesV2 : Nat := 64
def maxExtensionContextNameBytesV2 : Nat := 128
def maxExtensionContextValueBytesV2 : Nat := 512

/-- `valid_extension_context_name_v2`. -/
def validExtensionContextNameV2 (name : String) : Bool :=
  name != "" && decide ((utf8 name).length ≤ maxExtensionContextNameBytesV2)
    && (utf8 name).all fun c =>
      (97 ≤ c && c ≤ 122) || (48 ≤ c && c ≤ 57) || c == 95 || c == 46 || c == 58 || c == 45

/-- A loop over the entries of a map that returns at the first bad one. -/
def refuseEntries {α : Type} (bad : String → α → Bool) (what : String) :
    List (String × α) → V2Result Unit
  | [] => .ok ()
  | (name, value) :: entries => do
    refuseAs .configurationInvalid (bad name value)
      s!"v2 extension {what} {debugQuote name} is invalid"
    refuseEntries bad what entries

def validateV2ExtensionContext (c : ConstraintContextV2) : V2Result Unit := do
  refuseAs .configurationInvalid
    (decide (c.extensionCounts.size > maxExtensionContextEntriesV2
      ∨ c.extensionValues.size > maxExtensionContextEntriesV2))
    "v2 extension request context holds at most 64 counts and 64 values"
  refuseEntries (fun name count => !validExtensionContextNameV2 name || !safeEpoch count) "count"
    c.extensionCounts.entries
  refuseEntries (fun name value => !validExtensionContextNameV2 name
    || decide ((utf8 value).length > maxExtensionContextValueBytesV2)) "value"
    c.extensionValues.entries

def validateV2RequestContext (c : ConstraintContextV2) : V2Result Unit := do
  if c.hasAmount then
    refuseAs .configurationInvalid
      (!safeEpoch c.requestedAmountMicros || !validIso4217AlphaV2 c.requestedCurrency)
      "v2 request amount must be 0..2^53-1 micro-units with a three-letter A-Z currency"
  else
    refuseAs .configurationInvalid (c.requestedAmountMicros != 0 || c.requestedCurrency != "")
      "v2 request amount and currency must be supplied together with has_amount"
  if c.hasResource then
    refuseAs .configurationInvalid
      (decide ((utf8 c.requestedResourceId).length > maxIdentifierLengthBytes))
      "v2 requested resource ID must be at most 512 bytes"
  else
    refuseAs .configurationInvalid (c.requestedResourceId != "" || c.requestedPath != "")
      "v2 requested resource ID and path must be supplied with has_resource"
  validateV2ExtensionContext c

variable (P : Primitives) (archive : ZoneArchive)

def checkStatusKey : V2Result String → V2Result Unit
  | .ok _ => .ok ()
  | .error e => err .configurationInvalid
      s!"v2 status-key configuration has an invalid key: {e.message}"

/-- The loop over the status keys. -/
def validateStatusKeys : List (String × V2StatusKeyConfig) → V2Result Unit
  | [] => .ok ()
  | (issuerId, config) :: keys => do
    refuseAs .configurationInvalid
      (!validV2Id issuerId || decide (config.epoch = 0 ∨ (config.epoch : Int) > maxSafe))
      "v2 status-key configuration has an invalid issuer or epoch"
    checkStatusKey (keyIdV2 P config.key)
    validateStatusKeys keys

def validateV2StatusConfiguration (keys : OrderedMap String V2StatusKeyConfig)
    (policy : RevocationStatusPolicyV2) : V2Result Unit := do
  refuseAs .configurationInvalid
    (!(1 ≤ policy.maxListLifetimeSeconds
        && policy.maxListLifetimeSeconds ≤ v2MaxStatusLifetimeSeconds)
      || !(1 ≤ policy.maxStatusAgeSeconds && policy.maxStatusAgeSeconds ≤ v2MaxStatusLifetimeSeconds)
      || !(0 ≤ policy.clockSkewSeconds && policy.clockSkewSeconds ≤ v2MaxFutureSkewSeconds))
    s!"v2 status policy must bound list lifetime and status age to 1..{v2MaxStatusLifetimeSeconds} seconds and skew to 0..{v2MaxFutureSkewSeconds}"
  validateStatusKeys P keys.entries

def validateV2VerifyConfiguration (req : V2VerifyRequest) : V2Result Unit := do
  validateV2FreshnessConfiguration req.now req.maxChallengeAgeSeconds req.futureSkewSeconds
  validateV2VerifierIdentityConfiguration req.verifierNamespace req.replayEpoch req.verifierId
  refuseAs .configurationInvalid (req.statusPolicy.clockSkewSeconds != req.futureSkewSeconds)
    "v2 status policy skew must equal future_skew_seconds"
  validateV2RequestContext req.context
  validateV2StatusConfiguration P req.statusKeys req.statusPolicy

/-- What the preflight of a request is given. -/
def V2VerifyRequest.inputs (req : V2VerifyRequest) : PreflightInputs :=
  { requiredScope := req.requiredScope, configuredNamespace := req.verifierNamespace
    configuredReplayEpoch := req.replayEpoch, configuredVerifierId := req.verifierId
    now := req.now, maxAgeSeconds := req.maxChallengeAgeSeconds
    futureSkewSeconds := req.futureSkewSeconds }

/-- All that is decided before the claim store is called. -/
def verifyPreflight (req : V2VerifyRequest) (cb : V2VerifyCallbacks) :
    V2Result (Bool × ProofBundleV2 × ExpectedChallengeStateV2) := do
  let b ← decodeProofBundleV2 P req.bundle
  match cb.claimStore with
  | none => err .configurationInvalid "v2 verification requires a context and claim store"
  | some rateView => do
    validateV2VerifyConfiguration P req
    let sealed ← preflightProofBundleV2Inner P b req.expected req.contextPolicy true
      cb.receiverBinding req.constraintEvaluators req.inputs
    .ok (rateView, b, sealed)

/-! ## Calls -/

/-- What a verification asks of its environment. -/
inductive VerifyCall where
  /-- `ctx.is_done()`. -/
  | done
  | claim (input : V2ChallengeClaim)
  | progress (claimId : String) (ownerToken : Bytes) (p : V2EvaluationProgress)
  | trust (chain : List DelegationCertV2)
  | status (checks : List V2CertificateStatusCheck) (now : Int)
  | audience (deferred : List V2DeferredConstraint) (receiverId : String)
  | rate (r : Reservation)
  | finalize (s : Submission)

/-- An answer; none is a callback that panicked. -/
abbrev VerifyCall.Reply : VerifyCall → Type
  | .done => Bool
  | .claim _ => Option (V2StoreResult V2ClaimResult)
  | .progress .. => Option (V2StoreResult Unit)
  | .trust _ => Option (Except String V2TrustResolution)
  | .status .. => V2StatusAssessment × Bool
  | .audience .. => Option (Except String (List V2AudienceMembership))
  | .rate _ => Option (V2StoreResult Unit)
  | .finalize _ => Option (V2StoreResult Bool)

abbrev Verification (α : Type) : Type := Dialogue VerifyCall.Reply V2VerifyOutcome α

/-- One question; the type of its answer is that of the call. -/
def query (c : VerifyCall) : Verification c.Reply := .question c

def isDone : Verification Bool := query .done

/-- The context is asked before an error is reported. -/
def stopUnlessDone {α : Type} (claim : V2ChallengeClaim) (e : V2Error) : Verification α := do
  if ← isDone then .stop (.cancelled claim) else .stop (.evaluating claim e)

/-- Go on, unless the context has ended. -/
def whileNotDone (claim : V2ChallengeClaim) : Verification Unit := do
  if ← isDone then .stop (.cancelled claim)

/-! ## The claim -/

/-- The result of the claim store, classified. -/
def claimResult (answer : Option (V2StoreResult V2ClaimResult)) : V2Result V2ClaimResult :=
  match answer with
  | none => err .claimStoreUnavailable "claim store panicked"
  | some result => result.mapError V2StoreError.intoV2

/-- The claim of a sealed proof and its token. -/
def verifyClaim (req : V2VerifyRequest) (b : ProofBundleV2) (sealed : ExpectedChallengeStateV2) :
    Verification (V2ChallengeClaim × V2EvaluationToken) := do
  let failure (e : V2Error) := V2VerifyOutcome.preflightFailure (e.classify .claimStoreUnavailable)
  let claim ← .orStop failure
    (sealChallengeClaim P sealed b req.verifierNamespace req.replayEpoch req.now)
  if ← isDone then
    .stop (failure (V2Error.new .evaluationCancelled
      "v2 claim cancelled before the store was called: context done"))
  else do
    let answer ← query (.claim claim)
    let result ← .orStop failure (claimResult answer)
    let token ← .orStop failure (claimAnswer sealed claim result)
    match token with
    | none => .stop (.replay result.disposition claim)
    | some token => .pass (claim, token)

/-! ## Progress -/

/-- The result of the claim store, classified. -/
def progressResult (answer : Option (V2StoreResult Unit)) : V2Result Unit :=
  match answer with
  | none => err .claimStoreUnavailable "claim store progress write panicked"
  | some result => result.mapError fun e => e.classifiedOr .claimStoreUnavailable

/-- `record_v2_progress_safely`, and an error that a context which has ended turns into a
cancellation. -/
def recordProgress (claim : V2ChallengeClaim) (t : V2EvaluationToken)
    (p : V2EvaluationProgress) : Verification Unit := do
  match validateV2EvaluationProgressInner p with
  | .error e => stopUnlessDone claim e
  | .ok () =>
    let answer ← query (.progress t.claimId t.ownerToken p)
    match progressResult answer with
    | .error e => stopUnlessDone claim e
    | .ok () => .pass ()

/-! ## Trust -/

/-- The options of the local evaluation, with no trust yet. -/
def V2VerifyRequest.options (req : V2VerifyRequest) : V2LocalAuthorizationOptions :=
  { futureSkewSeconds := req.futureSkewSeconds, requiredScope := req.requiredScope
    trustedRootId := "", trustedRootKey := { ed25519 := [], mlDsa65 := [] }
    trustConfigured := false, context := req.context, tzdbVersion := req.tzdbVersion
    contextPolicy := req.contextPolicy, expectedChallenge := req.expected }

/-- The key that a resolution trusts as the root of the chain, with its ID. -/
def V2TrustResolution.root (resolution : V2TrustResolution) (root : DelegationCertV2) :
    Option String :=
  match keyIdV2 P resolution.rootKey with
  | .error _ => none
  | .ok rootId =>
    if rootId == root.issuerId && equalKeys resolution.rootKey root.issuerPubKey then some rootId
    else none

/-- What a resolution makes of the trust assessment and the options; none is an error of the
provider. -/
def resolveTrust (root : DelegationCertV2) (resolution : Option V2TrustResolution)
    (o : V2LocalAuthorizationOptions) : String × V2LocalAuthorizationOptions :=
  match resolution with
  | none => ("unavailable", o)
  | some resolution =>
    match resolution.outcome with
    | .trusted =>
      match resolution.root P root with
      | some rootId =>
        ("trusted", { o with
          trustedRootId := rootId, trustedRootKey := resolution.rootKey, trustConfigured := true })
      | none => ("unavailable", o)
    -- The local evaluation compares against an empty root and denies.
    | .untrusted => ("untrusted", { o with trustConfigured := true })
    | .unavailable | .ambiguous => ("unavailable", o)

/-- `call_v2_trust_safely`; a missing provider answers that trust is unavailable. -/
def callTrust (cb : V2VerifyCallbacks) (claim : V2ChallengeClaim)
    (chain : List DelegationCertV2) : Verification (Option V2TrustResolution) := do
  if cb.trust then
    let answer ← query (.trust chain)
    match answer with
    | some (.ok resolution) => .pass (some resolution)
    | _ =>
      whileNotDone claim
      .pass none
  else .pass (some { outcome := .unavailable, rootKey := { ed25519 := [], mlDsa65 := [] } })

/-- The progress of a verification, and whether trust was resolved. -/
structure EvaluationProgress where
  persisted : V2EvaluationProgress
  trustCompleted : Bool

/-- The claim's own consistency comes before trust. -/
def verifyTrust (req : V2VerifyRequest) (cb : V2VerifyCallbacks) (b : ProofBundleV2)
    (claim : V2ChallengeClaim) (t : V2EvaluationToken) :
    Verification (EvaluationProgress × V2LocalAuthorizationOptions) := do
  let untouched := (EvaluationProgress.mk initialV2EvaluationProgress false, req.options)
  if t.claimTimeValid then
    match b.delegations.getLast? with
    | none => .pass untouched
    | some root =>
      let started := { initialV2EvaluationProgress with trustAssessment := "unavailable" }
      recordProgress claim t started
      let resolution ← callTrust cb claim b.delegations
      let (trust, o) := resolveTrust P root resolution req.options
      .pass ({ persisted := { started with trustAssessment := trust }, trustCompleted := true }, o)
  else .pass untouched

/-! ## The stages -/

/-- The progress that the local evaluation adds. -/
def EvaluationProgress.afterLocal (p : V2EvaluationProgress) (a : V2LocalAuthorizationAssessment) :
    V2EvaluationProgress :=
  let p :=
    if p.trustAssessment = "trusted"
        ∧ (a.contextAssessment = "bound" ∨ a.contextAssessment = "not_required") then
      match a.contextPolicyDigest with
      | some digest =>
        { p with contextAssessment := a.contextAssessment, contextPolicyDigest := some digest }
      | none => p
    else p
  if a.status = "pending_external_checks" then { p with statusAssessment := "unavailable" } else p

/-- A stage that has failed interrupts the evaluation. -/
def interruptAfter (stage : String)
    (r : V2Result V2LocalAuthorizationAssessment × V2EvaluationToken) :
    V2LocalAuthorizationAssessment × V2EvaluationToken :=
  match r.1 with
  | .ok a => (a, r.2)
  | .error _ => (v2InterruptedAssessment s!"evaluation interrupted after {stage}", r.2.interrupt)

/-- Progress, assessment and token between two stages. -/
structure Evaluation where
  progress : EvaluationProgress
  assessment : V2LocalAuthorizationAssessment
  token : V2EvaluationToken

/-- The local evaluation. -/
def verifyLocal (b : ProofBundleV2) (claim : V2ChallengeClaim) (t : V2EvaluationToken)
    (p : EvaluationProgress) (o : V2LocalAuthorizationOptions) : Verification Evaluation := do
  let (a, t) := t.evaluate P archive b o
  if p.trustCompleted then
    let persisted := EvaluationProgress.afterLocal p.persisted a
    recordProgress claim t persisted
    .pass { progress := { p with persisted }, assessment := a, token := t }
  else .pass { progress := p, assessment := a, token := t }

def verifyStatus (claim : V2ChallengeClaim) (e : Evaluation) : Verification Evaluation := do
  if e.assessment.status = "pending_external_checks" then
    let answer ← query (.status e.assessment.statusChecks e.token.claimedAt)
    if answer.2 then .stop (.cancelled claim)
    else
      let persisted := { e.progress.persisted with
        statusAssessment := answer.1.assessment, statusEvidence := answer.1.evidence }
      recordProgress claim e.token persisted
      let (a, t) := interruptAfter "status" (e.token.afterStatus fun _ => .ok answer.1)
      .pass { progress := { e.progress with persisted }, assessment := a, token := t }
  else .pass e

/-- `call_v2_audience_safely`; an error is an empty answer. -/
def callAudience (cb : V2VerifyCallbacks) (claim : V2ChallengeClaim)
    (deferred : List V2DeferredConstraint) (receiverId : String) :
    Verification (List V2AudienceMembership) := do
  if cb.audience then
    let answer ← query (.audience deferred receiverId)
    match answer with
    | some (.ok memberships) => .pass memberships
    | _ =>
      whileNotDone claim
      .pass []
  else .pass []

def verifyAudience (req : V2VerifyRequest) (cb : V2VerifyCallbacks) (claim : V2ChallengeClaim)
    (e : Evaluation) : Verification Evaluation := do
  if e.assessment.status = "pending_external_checks"
      ∧ e.assessment.deferred.any V2DeferredConstraint.isAudience then
    let receiverId := (req.expected.map ExpectedChallengeV2.expectedReceiverId).getD ""
    let memberships ← callAudience cb claim
      (e.assessment.deferred.filter V2DeferredConstraint.isAudience) receiverId
    let (a, t) := interruptAfter "audience" (e.token.afterAudience memberships)
    .pass { e with assessment := a, token := t }
  else .pass e

/-- The calls of the rate store as questions. -/
def askRate {α : Type} : Interaction Reservation (Option (V2StoreResult Unit)) α → Verification α
  | .ret a => .pass a
  | .call r next => .ask (.rate r) fun answer => askRate (next answer)

def verifyRate (cb : V2VerifyCallbacks) (claim : V2ChallengeClaim) (e : Evaluation) :
    Verification Evaluation := do
  if e.assessment.status = "pending_external_checks" then
    whileNotDone claim
    let cancelled ← isDone
    let r ← askRate (e.token.afterRate cancelled cb.rate)
    match r.1 with
    | .ok a => .pass { e with assessment := a, token := r.2 }
    | .error _ =>
      whileNotDone claim
      .pass { e with
        assessment := v2InterruptedAssessment "evaluation interrupted after rate"
        token := r.2.interrupt }
  else .pass e

/-! ## The terminal result -/

/-- A machine holds no longer bytes. -/
def heldBytes (b : Bytes) : Buffer := ⟨b.take isizeMax, by simp⟩

/-- The receipt of `build_v2_terminal_result`. -/
def terminalReceipt (b : ProofBundleV2) (claim : V2ChallengeClaim) (verifiedAt : Int)
    (decision : String) (a : V2LocalAuthorizationAssessment) (p : V2EvaluationProgress) :
    VerificationReceiptV2 :=
  let statusAssessment := if a.statusAssessment = "" then "not_evaluated" else a.statusAssessment
  let contextAssessment :=
    if a.contextAssessment = "" then "not_evaluated" else a.contextAssessment
  let assessed : V2EvaluationProgress :=
    if a.reason = "evaluation_interrupted" then p
    else
      { trustAssessment := if a.reason = "not_delegated" then "not_evaluated" else p.trustAssessment
        statusAssessment
        contextAssessment
        contextPolicyDigest :=
          if contextAssessment ≠ "not_evaluated" ∧ contextAssessment ≠ "unbound" then
            a.contextPolicyDigest
          else none
        statusEvidence := if statusAssessment = "not_evaluated" then [] else a.statusEvidence }
  { version := 2, logId := "", sequence := 0, verifierId := b.verifierId, agentId := b.agentId
    humanId := "", bundleHash := claim.bundleHash, issuerIds := claim.issuerIds, decision
    decisionReason := a.reason, identityStatus := a.status
    trustAssessment := assessed.trustAssessment, statusAssessment := assessed.statusAssessment
    challengeAssessment := "current", constraintEvaluators := claim.constraintEvaluators
    contextAssessment := assessed.contextAssessment
    contextPolicyDigest := assessed.contextPolicyDigest, verifiedAt
    requiredScope := claim.requiredScope
    grantedScope := if decision = "allow" then sortedUnique a.effectiveScope else []
    statusEvidence := assessed.statusEvidence, previousReceiptHash := [], signature := noSignature }

/-- `build_v2_terminal_result`. -/
def buildV2TerminalResult (b : ProofBundleV2) (a : V2LocalAuthorizationAssessment)
    (p : V2EvaluationProgress) (claim : V2ChallengeClaim) (verifiedAt : Int) :
    V2Result (String × Payload) :=
  match terminalDecisionForV2Evaluation a.status a.reason with
  | none => plain s!"v2 evaluation did not reach a terminal result: {a.status}/{a.reason}"
  | some decision => do
    let body ← withContext (verificationReceiptV2Body (terminalReceipt b claim verifiedAt decision a p))
      "v2 terminal receipt body is inconsistent with the evaluated result"
    let terminal ← terminalResultJson decision a.reason a.status
    .ok (decision, { terminalResult := heldBytes terminal, receiptBody := heldBytes body })

/-! ## Finalization -/

/-- The call of the claim store as a question; a store that panicked is an error of the
helper, and its token is not used again. -/
def askFinalize (t : TokenState) :
    Interaction Submission (V2StoreResult Bool) (Except FinalizeFailure Bool × TokenState) →
      Verification (Except FinalizeFailure Bool × TokenState)
  | .ret r => .pass r
  | .call s next => .ask (.finalize s) fun answer =>
    match answer with
    | none => .pass (own "claim store finalization panicked", t)
    | some result => askFinalize t (next result)

/-- The context is asked after the capability. -/
def finalizationDone (t : TokenState) : Verification Bool :=
  if t.ownerToken.length ≠ 32 ∨ t.claimId = "" then .pass false else isDone

def FinalizeFailure.error : FinalizeFailure → V2Error
  | .own e => e
  | .store e => e.intoV2

/-- A store that has rolled an allow back denies the claim. -/
def V2LocalAuthorizationAssessment.rateLimited (a : V2LocalAuthorizationAssessment) :
    V2LocalAuthorizationAssessment :=
  a.conclude "constraint_denied" "constraint_denied" "signed rate limit has no remaining capacity"

/-- The loop over the attempts that are left. -/
def verifyFinalize (rateView : Bool) (b : ProofBundleV2) (claim : V2ChallengeClaim)
    (p : V2EvaluationProgress) :
    Nat → V2LocalAuthorizationAssessment → V2EvaluationToken → Verification V2VerifyOutcome
  | 0, _, _ => .stop (.evaluating claim (V2Error.new .claimStoreUnavailable
      "v2 terminal finalization did not complete"))
  | attempts + 1, a, t => do
    let built ← .orStop (.evaluating claim) (buildV2TerminalResult b a p claim t.claimedAt)
    let cancelled ← finalizationDone t.toTokenState
    let r ← askFinalize t.toTokenState
      (finalizeClaimProofBundleV2Inner P rateView cancelled t.toTokenState built.2)
    match r.1 with
    | .ok _ =>
      .pass (.commits claim built.2.receiptBody.1
        (if built.1 = "allow" then r.2.m.allowValidUntil else 0))
    | .error f =>
      whileNotDone claim
      if f = .store .rateLimitExceeded ∧ 0 < attempts then
        verifyFinalize rateView b claim p attempts a.rateLimited { t with toTokenState := r.2 }
      else .stop (.evaluating claim (f.error.classify .claimStoreUnavailable))

/-! ## The verification -/

/-- Everything after the claim. -/
def verifyClaimed (req : V2VerifyRequest) (cb : V2VerifyCallbacks) (rateView : Bool)
    (b : ProofBundleV2) (claim : V2ChallengeClaim) (t : V2EvaluationToken) :
    Verification V2VerifyOutcome := do
  let (p, o) ← verifyTrust P req cb b claim t
  let e ← verifyLocal P archive b claim t p o
  let e ← verifyStatus claim e
  let e ← verifyAudience req cb claim e
  let e ← verifyRate cb claim e
  verifyFinalize P rateView b claim e.progress.persisted 2 e.assessment e.token

/-- `verify_proof_bundle_v2`. -/
def verifyProofBundleV2 (req : V2VerifyRequest) (cb : V2VerifyCallbacks) :
    Verification V2VerifyOutcome := do
  let (rateView, b, sealed) ← .orStop .preflightFailure (verifyPreflight P req cb)
  let (claim, t) ← verifyClaim P req b sealed
  verifyClaimed P archive req cb rateView b claim t

end RatifyProtocol.V2
