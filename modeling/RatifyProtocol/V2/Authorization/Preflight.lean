import RatifyProtocol.V2.Authorization.ContextPolicy
import RatifyProtocol.V2.Authorization.Registry
import RatifyProtocol.V2.Claim
import RatifyProtocol.V2.Delegation.Audience
import RatifyProtocol.V2.Delegation.Chain
import RatifyProtocol.V2.Delegation.LocalLaw
import RatifyProtocol.V2.OperationContext
set_option autoImplicit false

/-!
# Authorization: the checks before a claim

`v2/preflight.rs`: the ordered checks that a proof passes before its challenge is claimed,
and the state that they seal.  Nothing here calls a store or a provider but the
application's own hook, which is pure.
-/

namespace RatifyProtocol.V2

open Foundation

def v2MaxChallengeAgeSeconds : Int := 300

/-- Verifier-authenticated issuance state. -/
structure ExpectedChallengeV2 where
  value : Bytes
  issuedAt : Int
  expiresAt : Int
  verifierNamespace : String
  replayEpoch : Int
  verifierId : String
  expectedAgentId : String
  expectedAgentPublicKey : Option HybridPublicKey
  expectedReceiverId : String
  expectedSessionContext : Option Bytes
  contextPolicy : Option V2ContextPolicy
  deriving DecidableEq

/-- The issuance, policy and proof identity sealed for one request. -/
structure ExpectedChallengeStateV2 extends ExpectedChallengeV2 where
  requiredScope : String
  bundleHash : String
  issuerIds : List String
  futureSkew : Int
  maxAge : Int
  contextPolicyDigest : String
  /-- An explicit evaluation without a configured context policy. -/
  noContextPolicy : Bool
  evaluatorRefs : List ConstraintEvaluatorRefV2
  evaluators : SealedEvaluators

/-- What a verifier is configured with for one request. -/
structure PreflightInputs where
  requiredScope : String
  configuredNamespace : String
  configuredReplayEpoch : Int
  configuredVerifierId : String
  now : Int
  maxAgeSeconds : Int
  futureSkewSeconds : Int

/-- What the application's hook answers. -/
inductive HookAnswer where
  | accepted
  | rejected (e : String)
  | panicked

abbrev V2ReceiverBindingHook : Type := ProofBundleV2 → ExpectedChallengeV2 → HookAnswer

/-- `if bad { return err(cls, message) }`. -/
def refuseAs (cls : V2ErrorClass) (bad : Bool) (message : String) : V2Result Unit :=
  if bad then err cls message else .ok ()

@[simp] theorem refuseAs_eq_ok_iff {cls : V2ErrorClass} {bad : Bool} {message : String} {u : Unit} :
    refuseAs cls bad message = .ok u ↔ bad = false := by
  cases bad <;> simp [refuseAs]

/-- `bytes_equal`: no bytes and the empty bytes are the same. -/
def bytesEqual (a b : Option Bytes) : Bool := a.getD [] == b.getD []

/-- `matches_expected_challenge_v2`. -/
def matchesExpectedChallengeV2 (expected : ExpectedChallengeV2) (state : ExpectedChallengeStateV2) :
    Bool :=
  if expected.value ≠ state.value ∨ expected.issuedAt ≠ state.issuedAt
      ∨ expected.expiresAt ≠ state.expiresAt
      ∨ expected.verifierNamespace ≠ state.verifierNamespace
      ∨ expected.replayEpoch ≠ state.replayEpoch ∨ expected.verifierId ≠ state.verifierId
      ∨ expected.expectedAgentId ≠ state.expectedAgentId
      ∨ expected.expectedReceiverId ≠ state.expectedReceiverId
      ∨ bytesEqual expected.expectedSessionContext state.expectedSessionContext = false
      ∨ (expected.contextPolicy.isSome
        ∧ sameV2ContextPolicy expected.contextPolicy state.contextPolicy = false) then false
  else
    match expected.expectedAgentPublicKey, state.expectedAgentPublicKey with
    | none, none => true
    | some a, some b => equalKeys a b
    | _, _ => false

/-! ## Configuration -/

def validateV2FreshnessConfiguration (now maxAgeSeconds futureSkewSeconds : Int) :
    V2Result Unit := do
  refuseAs .configurationInvalid (!validV2Timestamp now)
    s!"v2 verifier time is outside 0..{v2MaxTimestampSeconds}"
  refuseAs .configurationInvalid
    (!(1 ≤ maxAgeSeconds && maxAgeSeconds ≤ v2MaxChallengeAgeSeconds))
    s!"v2 challenge maximum age must be 1..{v2MaxChallengeAgeSeconds} seconds"
  refuseAs .configurationInvalid
    (!(0 ≤ futureSkewSeconds && futureSkewSeconds ≤ v2MaxFutureSkewSeconds))
    s!"v2 future skew must be 0..{v2MaxFutureSkewSeconds} seconds"

/-- `(0..=MAX_SAFE).contains`. -/
def safeEpoch (epoch : Int) : Bool := 0 ≤ epoch && epoch ≤ maxSafe

def validateV2VerifierIdentityConfiguration (verifierNamespace : String) (replayEpoch : Int)
    (verifierId : String) : V2Result Unit := do
  refuseAs .configurationInvalid (verifierNamespace == "")
    "v2 configured verifier namespace must not be empty"
  refuseAs .configurationInvalid (!safeEpoch replayEpoch)
    s!"v2 configured replay epoch must be 0..{maxSafe}"
  refuseAs .configurationInvalid (!validV2Id verifierId)
    "v2 configured verifier key ID must be a canonical v2 key ID"

/-! ## The receiver -/

/-- The items of one list of audience parameters. -/
def audienceItems (c : ConstraintV2) (key : String) : List ParamsValue :=
  match c.params.bind fun m => OrderedMap.find key m.entries with
  | some (.array items) => items
  | _ => []

/-- The receiver is one of those that the constraint names. -/
def namesReceiver (c : ConstraintV2) (receiverId : String) : Bool :=
  (audienceItems c "exact_receiver_ids").any fun
    | .str id => id == receiverId
    | _ => false

/-- The constraints of delegation `i`. -/
def checkAudiences (receiverId : String) (i : Nat) : List ConstraintV2 → V2Result Unit
  | [] => .ok ()
  | c :: cs =>
    if c.kind ≠ constraintReceiverAudience then checkAudiences receiverId i cs
    else if receiverId = "" then
      err .receiverAudienceRequired
        "v2 receiver audience requires an authenticated expected receiver ID"
    -- A domain audience is evaluated after the claim only.
    else if (audienceItems c "trust_domain_ids").isEmpty && !namesReceiver c receiverId then
      err .receiverAudienceMismatch
        s!"v2 receiver does not match exact-only audience at delegation {i}"
    else checkAudiences receiverId i cs

/-- The loop of `check_exact_receiver_audience_v2` from delegation `i`. -/
def checkExactReceiverAudienceFrom (receiverId : String) : Nat → List DelegationCertV2 →
    V2Result Unit
  | _, [] => .ok ()
  | i, c :: certs => do
    checkAudiences receiverId i c.constraints
    checkExactReceiverAudienceFrom receiverId (i + 1) certs

def checkExactReceiverAudienceV2 (b : ProofBundleV2) (receiverId : String) : V2Result Unit :=
  checkExactReceiverAudienceFrom receiverId 0 b.delegations

/-! ## The checks in order -/

variable (P : Primitives)

/-- The session context and the policy that a challenge expects. -/
def validateExpectedPolicy (expected : ExpectedChallengeV2) : V2Result Unit :=
  match expected.contextPolicy with
  | none => .ok ()
  | some policy => do
    refuseAs .configurationInvalid (!policy.isValid) "v2 expected context policy is invalid"
    refuseAs .configurationInvalid
      (policy.requireBound
        && expected.expectedSessionContext.any fun c => c != policy.expectedSessionContext)
      "v2 expected context does not match its policy"
    refuseAs .configurationInvalid
      (!policy.requireBound && expected.expectedSessionContext.isSome)
      "unbound v2 context policy cannot have an expected session context"

def requireScope (scope : String) : V2Result Unit :=
  match validateRequiredScopeV2 scope with
  | .ok () => .ok ()
  | .error e => err .invalidRequiredScope s!"v2 request scope: {e.message}"

def checkExpectedAgent (b : ProofBundleV2) (expected : ExpectedChallengeV2) : V2Result Unit :=
  if (expected.expectedAgentId == "") != expected.expectedAgentPublicKey.isNone then
    err .configurationInvalid "v2 expected agent ID and public key must be configured together"
  else
    match expected.expectedAgentPublicKey with
    | none => .ok ()
    | some key =>
      match keyIdV2 P key with
      | .error e => err .configurationInvalid s!"v2 expected agent key: {e.message}"
      | .ok id =>
        refuseAs .expectedAgentMismatch
          (id != expected.expectedAgentId || b.agentId != id || !equalKeys b.agentPubKey key)
          "v2 presentation does not match authenticated expected agent"

/-- `validate_proof_bundle_v2_preflight`. -/
def validateProofBundleV2Preflight (b : ProofBundleV2) (expected : ExpectedChallengeV2)
    (c : PreflightInputs) : V2Result Unit := do
  validateV2VerifierIdentityConfiguration c.configuredNamespace c.configuredReplayEpoch
    c.configuredVerifierId
  refuseAs .configurationInvalid
    (expected.expectedSessionContext.any fun s => decide (s.length ≠ 32))
    "v2 expected session context must be absent or exactly 32 bytes"
  validateExpectedPolicy expected
  requireScope c.requiredScope
  withContext (verifyProofBundleV2Signatures P b) "v2 cryptographic preflight"
  refuseAs .namespaceMismatch (expected.verifierNamespace != c.configuredNamespace)
    "v2 challenge verifier namespace mismatch"
  refuseAs .staleReplayEpoch
    (!safeEpoch c.configuredReplayEpoch || !safeEpoch expected.replayEpoch
      || expected.replayEpoch != c.configuredReplayEpoch)
    "v2 challenge replay epoch is stale"
  refuseAs .verifierIdMismatch
    (expected.verifierId != c.configuredVerifierId || b.verifierId != c.configuredVerifierId)
    "v2 challenge or proof verifier ID differs from the configured verifier key ID"
  refuseAs .challengeMismatch
    (decide (expected.value.length ≠ 32) || b.challenge != expected.value
      || b.challengeAt != expected.issuedAt)
    "v2 proof does not match authenticated challenge issuance"
  refuseAs .configurationInvalid
    (!validV2Timestamp expected.issuedAt || !validV2Timestamp expected.expiresAt
      || decide (expected.expiresAt ≤ expected.issuedAt))
    "v2 authenticated challenge time bounds are invalid"
  validateV2FreshnessConfiguration c.now c.maxAgeSeconds c.futureSkewSeconds
  refuseAs .challengeNotFresh
    (!v2ChallengeTimeCurrent c.now expected.issuedAt expected.expiresAt c.maxAgeSeconds
      c.futureSkewSeconds)
    "v2 challenge is not fresh (future-dated, expired, or beyond maximum age)"
  checkExpectedAgent P b expected
  refuseAs .sessionContextMismatch
    (expected.expectedSessionContext.any fun s => b.sessionContext != some s)
    "v2 presentation does not match expected session context"
  checkExactReceiverAudienceV2 b expected.expectedReceiverId

/-! ## Sealing -/

/-- The policy that is configured and the challenge that was issued under one. -/
def checkConfiguredPolicy (expected : ExpectedChallengeV2) (policy : Option V2ContextPolicy)
    (allowNoPolicy : Bool) : V2Result Unit :=
  if (policy.isNone && !allowNoPolicy) || policy.any fun p => !p.isValid then
    err .configurationInvalid "v2 context policy is missing or invalid"
  else if policy.isNone && expected.contextPolicy.isSome then
    err .configurationInvalid "v2 challenge context policy does not match the issued policy"
  else
    match policy with
    | none => .ok ()
    | some p => do
      refuseAs .configurationInvalid
        (expected.contextPolicy.isSome && !sameV2ContextPolicy expected.contextPolicy (some p))
        "v2 challenge context policy does not match the issued policy"
      -- A challenge without an expected context is accepted; the policy's own is compared
      -- after the claim.
      refuseAs .configurationInvalid
        (p.requireBound
          && expected.expectedSessionContext.any fun s => s != p.expectedSessionContext)
        "v2 challenge context does not match the configured context policy"
      refuseAs .configurationInvalid
        (!p.requireBound && expected.expectedSessionContext.isSome)
        "unbound v2 context policy cannot have an expected session context"

/-- The hook, if there is one, with the challenge under its policy. -/
def callHook (hook : Option V2ReceiverBindingHook) (b : ProofBundleV2)
    (checked : ExpectedChallengeV2) : V2Result Unit :=
  match hook with
  | none => .ok ()
  | some hook =>
    match hook b checked with
    | .accepted => .ok ()
    | .rejected e => err .receiverBindingRejected
        s!"v2 receiver-binding hook rejected the presentation: {e}"
    | .panicked => err .receiverBindingRejected
        "v2 receiver-binding hook rejected the presentation: receiver-binding hook panicked"

/-- `snapshot_expected_challenge_v2` with the evaluators of the chain. -/
def snapshotExpectedChallengeV2 (expected : ExpectedChallengeV2) (policy : Option V2ContextPolicy)
    (registry : Option ConstraintEvaluatorRegistryV2) (b : ProofBundleV2) (bundleHash : String)
    (c : PreflightInputs) : ExpectedChallengeStateV2 :=
  { expected with
    contextPolicy := policy
    requiredScope := c.requiredScope
    bundleHash
    issuerIds := sortedUnique (b.delegations.map DelegationCertV2.issuerId)
    futureSkew := c.futureSkewSeconds
    maxAge := c.maxAgeSeconds
    contextPolicyDigest := (policy.map V2ContextPolicy.digest).getD ""
    noContextPolicy := policy.isNone
    evaluatorRefs := (snapshotConstraintEvaluatorsV2 registry b).2
    evaluators := (snapshotConstraintEvaluatorsV2 registry b).1 }

/-- `preflight_proof_bundle_v2_inner`. -/
def preflightProofBundleV2Inner (b : ProofBundleV2) (expected : Option ExpectedChallengeV2)
    (policy : Option V2ContextPolicy) (allowNoPolicy : Bool) (hook : Option V2ReceiverBindingHook)
    (registry : Option ConstraintEvaluatorRegistryV2) (c : PreflightInputs) :
    V2Result ExpectedChallengeStateV2 :=
  match expected with
  | none => err .expectedChallengeUnavailable "v2 expected challenge is unavailable"
  | some expected => do
    checkConfiguredPolicy expected policy allowNoPolicy
    let checked := { expected with contextPolicy := policy }
    validateProofBundleV2Preflight P b checked c
    callHook hook b checked
    let bundleHash ← classify .malformed
      (withContext (bundleHashV2 P b) "v2 validated bundle hash")
    .ok (snapshotExpectedChallengeV2 expected policy registry b bundleHash c)

/-- `preflight_proof_bundle_v2`: no hook, no registry and a policy that must be there. -/
def preflightProofBundleV2 (b : ProofBundleV2) (expected : Option ExpectedChallengeV2)
    (policy : Option V2ContextPolicy) (c : PreflightInputs) : V2Result ExpectedChallengeStateV2 :=
  preflightProofBundleV2Inner P b expected policy false none none c

/-! ## What a preflight has checked -/

/-- Every audience names the receiver or leaves it to a trust domain. -/
def ReceiverAdmitted (b : ProofBundleV2) (receiverId : String) : Prop :=
  ∀ p ∈ b.placed, p.constraint.kind = constraintReceiverAudience →
    receiverId ≠ "" ∧ (audienceItems p.constraint "trust_domain_ids" ≠ []
      ∨ namesReceiver p.constraint receiverId = true)

/-- A proof that answers its challenge, within the bounds of the request. -/
structure AnswersChallenge (b : ProofBundleV2) (expected : ExpectedChallengeV2)
    (c : PreflightInputs) : Prop where
  verifierNamespace : expected.verifierNamespace = c.configuredNamespace
    ∧ expected.verifierNamespace ≠ ""
  epoch : expected.replayEpoch = c.configuredReplayEpoch ∧ 0 ≤ expected.replayEpoch
    ∧ expected.replayEpoch ≤ maxSafe
  verifier : expected.verifierId = c.configuredVerifierId ∧ b.verifierId = expected.verifierId
  challenge : b.challenge = expected.value ∧ b.challengeAt = expected.issuedAt
  age : 1 ≤ c.maxAgeSeconds ∧ c.maxAgeSeconds ≤ v2MaxChallengeAgeSeconds
  skew : 0 ≤ c.futureSkewSeconds ∧ c.futureSkewSeconds ≤ v2MaxFutureSkewSeconds
  fresh : v2ChallengeTimeCurrent c.now expected.issuedAt expected.expiresAt c.maxAgeSeconds
    c.futureSkewSeconds = true
  session : ∀ s, expected.expectedSessionContext = some s → b.sessionContext = some s
  receiver : ReceiverAdmitted b expected.expectedReceiverId

variable {P} {b : ProofBundleV2} {c : PreflightInputs}

theorem checkAudiences_eq_ok {receiverId : String} {i : Nat} {cs : List ConstraintV2}
    (h : checkAudiences receiverId i cs = .ok ()) :
    ∀ k ∈ cs, k.kind = constraintReceiverAudience → receiverId ≠ ""
      ∧ (audienceItems k "trust_domain_ids" ≠ [] ∨ namesReceiver k receiverId = true) := by
  induction cs with
  | nil => simp
  | cons k cs ih =>
    rw [checkAudiences] at h
    by_cases hkind : k.kind = constraintReceiverAudience
    · rw [if_neg (not_not.mpr hkind)] at h
      split at h
      · exact absurd h err_ne_ok
      rename_i hreceiver
      split at h
      · exact absurd h err_ne_ok
      rename_i hmatch
      refine List.forall_mem_cons.mpr ⟨fun _ => ⟨hreceiver, ?_⟩, ih h⟩
      by_cases hdomains : audienceItems k "trust_domain_ids" = []
      · refine .inr ?_
        simpa [hdomains] using hmatch
      · exact .inl hdomains
    · rw [if_pos hkind] at h
      exact List.forall_mem_cons.mpr ⟨fun hsame => absurd hsame hkind, ih h⟩

theorem checkExactReceiverAudienceV2_eq_ok {receiverId : String}
    (h : checkExactReceiverAudienceV2 b receiverId = .ok ()) : ReceiverAdmitted b receiverId := by
  have hcerts : ∀ (certs : List DelegationCertV2) (i : Nat),
      checkExactReceiverAudienceFrom receiverId i certs = .ok () →
        ∀ d ∈ certs, ∀ k ∈ d.constraints, k.kind = constraintReceiverAudience → receiverId ≠ ""
          ∧ (audienceItems k "trust_domain_ids" ≠ [] ∨ namesReceiver k receiverId = true) := by
    intro certs
    induction certs with
    | nil => simp
    | cons d certs ih =>
      intro i h
      obtain ⟨_, hfirst, hrest⟩ := bind_eq_ok_iff.mp h
      exact List.forall_mem_cons.mpr ⟨checkAudiences_eq_ok hfirst, ih (i + 1) hrest⟩
  intro p hp hkind
  obtain ⟨d, hd, -, -, hk⟩ := mem_placed_iff.mp hp
  exact hcerts _ 0 h d (List.mem_of_getElem? hd) _ (List.mem_of_getElem? hk) hkind

theorem validateV2FreshnessConfiguration_eq_ok_iff {now maxAgeSeconds futureSkewSeconds : Int} :
    validateV2FreshnessConfiguration now maxAgeSeconds futureSkewSeconds = .ok () ↔
      validV2Timestamp now = true ∧ (1 ≤ maxAgeSeconds ∧ maxAgeSeconds ≤ v2MaxChallengeAgeSeconds)
        ∧ (0 ≤ futureSkewSeconds ∧ futureSkewSeconds ≤ v2MaxFutureSkewSeconds) := by
  simp only [validateV2FreshnessConfiguration, bind_eq_ok_iff, refuseAs_eq_ok_iff,
    Bool.not_eq_false', Bool.and_eq_true, decide_eq_true_eq]
  simp

/-- What passes the checks is a signed chain that answers the challenge. -/
theorem validateProofBundleV2Preflight_eq_ok {expected : ExpectedChallengeV2}
    (h : validateProofBundleV2Preflight P b expected c = .ok ()) :
    SignedChain P b ∧ validateRequiredScopeV2 c.requiredScope = .ok ()
      ∧ AnswersChallenge b expected c := by
  rw [validateProofBundleV2Preflight] at h
  obtain ⟨_, hidentity, h⟩ := bind_eq_ok_iff.mp h
  obtain ⟨_, -, h⟩ := bind_eq_ok_iff.mp h
  obtain ⟨_, -, h⟩ := bind_eq_ok_iff.mp h
  obtain ⟨_, hscope, h⟩ := bind_eq_ok_iff.mp h
  obtain ⟨_, hverified, h⟩ := bind_eq_ok_iff.mp h
  obtain ⟨_, hnamespace, h⟩ := bind_eq_ok_iff.mp h
  obtain ⟨_, hepoch, h⟩ := bind_eq_ok_iff.mp h
  obtain ⟨_, hverifier, h⟩ := bind_eq_ok_iff.mp h
  obtain ⟨_, hchallenge, h⟩ := bind_eq_ok_iff.mp h
  obtain ⟨_, -, h⟩ := bind_eq_ok_iff.mp h
  obtain ⟨_, hfreshness, h⟩ := bind_eq_ok_iff.mp h
  obtain ⟨_, hfresh, h⟩ := bind_eq_ok_iff.mp h
  obtain ⟨_, -, h⟩ := bind_eq_ok_iff.mp h
  obtain ⟨_, hsession, haudience⟩ := bind_eq_ok_iff.mp h
  obtain ⟨_, hnonempty, -⟩ := bind_eq_ok_iff.mp hidentity
  obtain ⟨-, hage, hskew⟩ := validateV2FreshnessConfiguration_eq_ok_iff.mp hfreshness
  have hrequired : validateRequiredScopeV2 c.requiredScope = .ok () := by
    rw [requireScope] at hscope
    split at hscope
    · assumption
    · exact absurd hscope err_ne_ok
  have hnamespace : expected.verifierNamespace = c.configuredNamespace := by simpa using hnamespace
  have hverifier : expected.verifierId = c.configuredVerifierId
      ∧ b.verifierId = c.configuredVerifierId := by simpa using hverifier
  have hepoch : ((0 ≤ c.configuredReplayEpoch ∧ c.configuredReplayEpoch ≤ maxSafe)
      ∧ 0 ≤ expected.replayEpoch ∧ expected.replayEpoch ≤ maxSafe)
      ∧ expected.replayEpoch = c.configuredReplayEpoch := by
    simpa [safeEpoch] using hepoch
  have hchallenge : (expected.value.length = 32 ∧ b.challenge = expected.value)
      ∧ b.challengeAt = expected.issuedAt := by simpa using hchallenge
  refine ⟨verifyProofBundleV2Signatures_eq_ok_iff.mp (withContext_eq_ok_iff.mp hverified), hrequired,
    ?_⟩
  exact
    { verifierNamespace := ⟨hnamespace, by simpa [hnamespace] using hnonempty⟩
      epoch := ⟨hepoch.2, hepoch.1.2⟩
      verifier := ⟨hverifier.1, hverifier.2.trans hverifier.1.symm⟩
      challenge := ⟨hchallenge.1.2, hchallenge.2⟩
      age := hage
      skew := hskew
      fresh := by simpa using hfresh
      session := fun s hs => by simpa [hs] using hsession
      receiver := checkExactReceiverAudienceV2_eq_ok haudience }

/-- What a successful preflight seals. -/
structure Preflighted (P : Primitives) (b : ProofBundleV2) (c : PreflightInputs)
    (state : ExpectedChallengeStateV2) : Prop where
  chain : SignedChain P b
  scope : validateRequiredScopeV2 state.requiredScope = .ok ()
  answers : AnswersChallenge b state.toExpectedChallengeV2 c
  configured : state.requiredScope = c.requiredScope ∧ state.maxAge = c.maxAgeSeconds
    ∧ state.futureSkew = c.futureSkewSeconds
  hash : bundleHashV2 P b = .ok state.bundleHash
  issuers : state.issuerIds = sortedUnique (b.delegations.map DelegationCertV2.issuerId)
  policy : state.noContextPolicy = state.contextPolicy.isNone
    ∧ state.contextPolicyDigest = (state.contextPolicy.map V2ContextPolicy.digest).getD ""
  evaluators : validConstraintEvaluatorRefsV2 state.evaluatorRefs = true
    ∧ (state.evaluatorRefs ≠ [] → b.delegations ≠ [])

theorem preflightProofBundleV2Inner_eq_ok {expected : Option ExpectedChallengeV2}
    {policy : Option V2ContextPolicy} {allowNoPolicy : Bool} {hook : Option V2ReceiverBindingHook}
    {registry : Option ConstraintEvaluatorRegistryV2} {state : ExpectedChallengeStateV2}
    (h : preflightProofBundleV2Inner P b expected policy allowNoPolicy hook registry c = .ok state) :
    Preflighted P b c state := by
  cases expected with
  | none => exact absurd h err_ne_ok
  | some expected =>
    rw [preflightProofBundleV2Inner] at h
    obtain ⟨_, -, h⟩ := bind_eq_ok_iff.mp h
    obtain ⟨_, hvalid, h⟩ := bind_eq_ok_iff.mp h
    obtain ⟨_, -, h⟩ := bind_eq_ok_iff.mp h
    obtain ⟨bundleHash, hhash, h⟩ := bind_eq_ok_iff.mp h
    obtain rfl := Except.ok.inj h
    obtain ⟨hchain, hscope, hanswers⟩ := validateProofBundleV2Preflight_eq_ok hvalid
    exact
      { chain := hchain
        scope := hscope
        answers := hanswers
        configured := ⟨rfl, rfl, rfl⟩
        hash := withContext_eq_ok_iff.mp (classify_eq_ok_iff.mp hhash)
        issuers := rfl
        policy := ⟨rfl, rfl⟩
        evaluators := ⟨snapshotConstraintEvaluatorsV2_valid,
          snapshotConstraintEvaluatorsV2_delegated⟩ }

/-- A preflight with no hook that nothing refuses. -/
theorem preflightProofBundleV2Inner_unhooked {expected : ExpectedChallengeV2}
    {policy : Option V2ContextPolicy} {registry : Option ConstraintEvaluatorRegistryV2} {hash : String}
    (hpolicy : checkConfiguredPolicy expected policy true = .ok ())
    (hchecked : validateProofBundleV2Preflight P b { expected with contextPolicy := policy } c
      = .ok ())
    (hhash : bundleHashV2 P b = .ok hash) :
    preflightProofBundleV2Inner P b (some expected) policy true none registry c
      = .ok (snapshotExpectedChallengeV2 expected policy registry b hash c) := by
  rw [preflightProofBundleV2Inner, hpolicy, ok_bind]
  simp only [hchecked, ok_bind, callHook, hhash]
  rfl

end RatifyProtocol.V2
