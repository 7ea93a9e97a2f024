import RatifyProtocol.Foundation.SortedSet
import RatifyProtocol.V1.ChallengeStore
import RatifyProtocol.V1.Constraints
import RatifyProtocol.V1.Credentials
import Mathlib.Data.String.Basic
set_option autoImplicit false

/-!
# V1: verification

`verify_bundle_inner` and `verify_streamed_turn_with_options` of `verify.rs`.
A verification computes on its own except for its two calls of the challenge
store, so it is an `Interaction`; each stretch between the calls is a definition
that returns the first failure.  Arithmetic is that of a release build.
-/

namespace RatifyProtocol.V1

open Foundation
open V2 (HybridPublicKey HybridSignature validateScopes wildcardExpansion)

/-! ## Scopes -/

/-- `expand_scopes`. -/
def expandScopes (scopes : List String) : List String :=
  sortedUnique (scopes.flatMap fun s => (wildcardExpansion s).getD [s])

/-- `intersect_scopes`. -/
def intersectScopes : List (List String) → List String
  | [] => []
  | list :: lists =>
    lists.foldl (fun effective l => effective.filter ((expandScopes l).contains ·))
      (expandScopes list)

/-! ## Results -/

def invalid (reason msg : String) : VerifyResult :=
  { valid := false, identityStatus := .invalid, humanId := "", agentId := "", grantedScope := []
    errorReason := s!"{reason}: {msg}", anchor := none }

def expired (humanId agentId : String) : VerifyResult :=
  { valid := false, identityStatus := .expired, humanId, agentId, grantedScope := []
    errorReason := "delegation certificate has expired", anchor := none }

def revoked (humanId agentId : String) : VerifyResult :=
  { valid := false, identityStatus := .revoked, humanId, agentId, grantedScope := []
    errorReason := "delegation certificate has been revoked", anchor := none }

def unknownChallenge : VerifyResult := invalid "unknown_challenge" unknownChallengeText

/-! ## Options -/

/-- `VerifyOptions` without the clock and the audit hook; `challengeStore` says
whether the store is consulted. -/
structure VerifyOptions where
  requiredScope : String
  isRevoked : Option (String → Bool)
  revocation : Option (String → Except String Bool)
  forceRevocationCheck : Bool
  sessionContext : Bytes
  stream : Option StreamContext
  context : VerifierContext
  policy : Option (ProofBundle → VerifierContext → Except String Bool)
  constraintEvaluators : Option (String → Option ConstraintEvaluator)
  policyVerdict : Option PolicyVerdict
  policySecret : Option Bytes
  anchorResolver : Option (String → Except String (Option Anchor))
  challengeStore : Bool

/-- `VerifyOptions::default()`. -/
def VerifyOptions.default : VerifyOptions :=
  { requiredScope := "", isRevoked := none, revocation := none, forceRevocationCheck := false
    sessionContext := [], stream := none, context := .empty, policy := none
    constraintEvaluators := none, policyVerdict := none, policySecret := none
    anchorResolver := none, challengeStore := false }

/-- `StreamedVerifyOptions`. -/
structure StreamedVerifyOptions where
  requiredScope : String
  challengeStore : Bool
  sessionContext : Bytes
  stream : Option StreamContext

/-! ## Checks that a bundle and a turn share

A failure is an `Except` error. -/

/-- The session context that was presented against the verifier's own. -/
def checkSessionContext (what : String) (presented expected : Bytes) :
    Except VerifyResult Unit :=
  if presented ≠ [] ∧ presented.length ≠ 32 then
    .error (invalid "invalid_session_context"
      s!"session_context must be 32 bytes, got {presented.length}")
  else if expected ≠ [] ∧ expected.length ≠ 32 then
    .error (invalid "invalid_session_context"
      s!"verify option session_context must be 32 bytes, got {expected.length}")
  else if expected ≠ [] then
    if presented = [] then
      .error (invalid "missing_session_context"
        s!"verifier requires a session-bound challenge but {what} has no session_context")
    else if presented ≠ expected then
      .error (invalid "session_context_mismatch"
        s!"{what} session_context does not match verifier context")
    else .ok ()
  else if presented ≠ [] then
    .error (invalid "session_context_unverifiable"
      s!"{what} has session_context but verifier did not provide one")
  else .ok ()

/-- The stream position that was presented against the verifier's snapshot. -/
def checkStream (what : String) (streamId : Bytes) (streamSeq : Int64)
    (stream : Option StreamContext) : Except VerifyResult Unit :=
  if streamId ≠ [] ∧ streamId.length ≠ 32 then
    .error (invalid "invalid_stream_id" s!"stream_id must be 32 bytes, got {streamId.length}")
  else if streamId = [] ∧ streamSeq ≠ 0 then
    .error (invalid "invalid_stream_seq" "stream_seq set without stream_id")
  else if streamId ≠ [] ∧ streamSeq < 1 then
    .error (invalid "invalid_stream_seq" s!"stream_seq must be >=1, got {streamSeq.toInt}")
  else
    match stream with
    | some stream =>
      let expected := stream.lastSeenSeq + 1
      if stream.streamId.length ≠ 32 then
        .error (invalid "invalid_stream_id"
          s!"verify option stream_id must be 32 bytes, got {stream.streamId.length}")
      else if streamId = [] then
        .error (invalid "missing_stream_context"
          s!"verifier requires a stream-bound challenge but {what} has no stream_id")
      else if streamId ≠ stream.streamId then
        .error (invalid "stream_id_mismatch"
          s!"{what} stream_id does not match verifier stream context")
      else if streamSeq ≤ stream.lastSeenSeq then
        .error (invalid "stream_seq_replay"
          s!"stream_seq {streamSeq.toInt} already seen (last={stream.lastSeenSeq.toInt})")
      else if streamSeq ≠ expected then
        .error (invalid "stream_seq_skip"
          s!"stream_seq {streamSeq.toInt} skips expected {expected.toInt}")
      else .ok ()
    | none =>
      if streamId ≠ [] then
        .error (invalid "stream_context_unverifiable"
          s!"{what} has stream_id but verifier did not provide a stream context")
      else .ok ()

section Checks

variable (P : Platform) (K : Primitives)

/-- Freshness of the challenge and the signature over it. -/
def checkLiveness (t : ChallengeTuple) (sig : HybridSignature) (agentPubKey : HybridPublicKey)
    (now : Int64) : Except VerifyResult Unit :=
  let challengeAge := now - t.challengeAt
  if ¬ (0 ≤ challengeAge ∧ challengeAge ≤ challengeWindowSeconds) then
    .error (invalid "stale_challenge"
      s!"challenge is {challengeAge.toInt} seconds old (max {challengeWindowSeconds.toInt})")
  else
    match verifyChallengeSignatureWithStream K t sig agentPubKey with
    | .error err =>
      .error (invalid "bad_challenge_sig" s!"challenge signature verification failed: {err}")
    | .ok () => .ok ()

/-! ## Bundles -/

/-- The bounds of one certificate. -/
def checkCertBounds (i : Nat) (cert : DelegationCert) : Except VerifyResult Unit :=
  if cert.scope.length > maxScopesPerCert then
    .error (invalid "invalid"
      s!"cert {i} carries {cert.scope.length} scopes, exceeding MAX_SCOPES_PER_CERT ({maxScopesPerCert})")
  else if cert.constraints.length > maxConstraintsPerCert then
    .error (invalid "invalid"
      s!"cert {i} carries {cert.constraints.length} constraints, exceeding MAX_CONSTRAINTS_PER_CERT ({maxConstraintsPerCert})")
  else
    match cert.scope.find? fun s => decide ((utf8 s).length > maxScopeLengthBytes) with
    | some s =>
      .error (invalid "invalid"
        s!"cert {i} carries a scope of {(utf8 s).length} bytes, exceeding MAX_SCOPE_LENGTH_BYTES ({maxScopeLengthBytes})")
    | none =>
      match cert.constraints.zipIdx.find? fun c =>
          decide ((utf8 c.1.resourceId).length > maxIdentifierLengthBytes) with
      | some (c, j) =>
        .error (invalid "invalid"
          s!"cert {i} constraint {j} resource_id is {(utf8 c.resourceId).length} bytes, exceeding MAX_IDENTIFIER_LENGTH_BYTES ({maxIdentifierLengthBytes})")
      | none => .ok ()

/-- The structure of a bundle, up to the session context. -/
def checkStructure (bundle : ProofBundle) (opts : VerifyOptions) : Except VerifyResult Unit := do
  if bundle.delegations = [] then
    .error (invalid "no_delegations" "proof bundle contains no delegation certificates")
  if bundle.delegations.length > maxDelegationChainDepth then
    .error (invalid "chain_too_deep" "delegation chain exceeds maximum depth")
  if bundle.challenge = [] then
    .error (invalid "no_challenge" "proof bundle contains no challenge")
  bundle.delegations.zipIdx.forM fun c => checkCertBounds c.2 c.1
  checkSessionContext "bundle" bundle.sessionContext opts.sessionContext

/-- `validate_hybrid_pubkey_lens`. -/
def validateHybridPubkeyLens (pubKey : HybridPublicKey) (label : String) : Option String :=
  if pubKey.ed25519.length ≠ ed25519PublicKeySize then
    some s!"{label} Ed25519 public key has wrong length: {pubKey.ed25519.length}"
  else if pubKey.mlDsa65.length ≠ mldsa65PublicKeySize then
    some s!"{label} ML-DSA-65 public key has wrong length: {pubKey.mlDsa65.length}"
  else none

/-- The validity period of a certificate. -/
def checkValidity (i : Nat) (cert : DelegationCert) (now : Int64) (humanId agentId : String) :
    Except VerifyResult Unit :=
  if now > cert.expiresAt then .error (expired humanId agentId)
  else if now < cert.issuedAt then
    .error (invalid "not_yet_valid" s!"cert {i} is not yet valid")
  else .ok ()

/-- Whether a certificate is revoked: the provider first, else the callback. -/
def checkRevocation (i : Nat) (cert : DelegationCert) (opts : VerifyOptions)
    (humanId agentId : String) : Except VerifyResult Unit :=
  match opts.revocation with
  | some provider =>
    match provider cert.certId with
    | .error e =>
      .error (invalid "revocation_error" s!"cert {i}: revocation lookup failed: {e}")
    | .ok true => .error (revoked humanId agentId)
    | .ok false => .ok ()
  | none =>
    match opts.isRevoked with
    | some check => if check cert.certId then .error (revoked humanId agentId) else .ok ()
    | none => .ok ()

/-- `verify_delegation_signature_e`. -/
def verifyDelegationSignature (cert : DelegationCert) : Except String Unit :=
  verifyBoth K (delegationSignBytes P cert) cert.signature cert.issuerPubKey

/-- A certificate was issued by the subject of the next one, who may delegate. -/
def checkLinkage (i : Nat) (cert next : DelegationCert) : Except VerifyResult Unit :=
  if cert.issuerId ≠ next.subjectId then
    .error (invalid "broken_chain" s!"cert {i} issuer does not match cert {i + 1} subject")
  else if cert.issuerPubKey ≠ next.subjectPubKey then
    .error (invalid "broken_chain_keys"
      s!"cert {i} issuer key does not match cert {i + 1} subject key")
  else if !next.scope.contains "identity:delegate" then
    .error (failWithStatus "delegation_not_authorized"
      s!"cert {i} issued by a subject whose parent cert {i + 1} did not grant \"identity:delegate\"")
  else .ok ()

/-- The constraints of a certificate as a check. -/
def checkConstraints (cert : DelegationCert) (i : Nat) (opts : VerifyOptions) (now : Int64) :
    Except VerifyResult Unit :=
  match evaluateCertConstraints P cert i opts.context opts.constraintEvaluators now with
  | some failure => .error failure
  | none => .ok ()

/-- One certificate; its constraints wait for the consumption when there is a store. -/
def checkCert (i : Nat) (cert : DelegationCert) (opts : VerifyOptions) (now : Int64)
    (humanId agentId : String) : Except VerifyResult Unit := do
  if cert.version ≠ protocolVersion then
    .error (invalid "version_mismatch"
      s!"cert {i} has unsupported version {cert.version.toInt}")
  match validateScopes cert.scope with
  | some scopeErr => .error (failWithStatus "invalid_scope" s!"cert {i}: {scopeErr}")
  | none => .ok ()
  checkValidity i cert now humanId agentId
  checkRevocation i cert opts humanId agentId
  match verifyDelegationSignature P K cert with
  | .error sigErr => .error (invalid "bad_signature" s!"cert {i}: {sigErr}")
  | .ok () => .ok ()
  if opts.challengeStore then .ok () else checkConstraints P cert i opts now

/-- The certificates from position `i` on, each with its link to the next. -/
def checkChain (opts : VerifyOptions) (now : Int64) (humanId agentId : String) :
    Nat → List DelegationCert → Except VerifyResult Unit
  | _, [] => .ok ()
  | i, [cert] => checkCert P K i cert opts now humanId agentId
  | i, cert :: next :: rest => do
    checkCert P K i cert opts now humanId agentId
    checkLinkage i cert next
    checkChain opts now humanId agentId (i + 1) (next :: rest)

/-- `bundle.delegations.last()`'s issuer. -/
def ProofBundle.humanId (bundle : ProofBundle) : String :=
  (bundle.delegations.getLast?.map (·.issuerId)).getD ""

/-- What the agent signed. -/
def ProofBundle.tuple (bundle : ProofBundle) : ChallengeTuple :=
  ⟨bundle.challenge, bundle.challengeAt, bundle.sessionContext, bundle.streamId, bundle.streamSeq⟩

/-- The agent is the subject of the first certificate. -/
def checkAgent (bundle : ProofBundle) : Except VerifyResult Unit :=
  match validateHybridPubkeyLens bundle.agentPubKey "agent", bundle.delegations with
  | some err, _ => .error (invalid "invalid_agent_key" err)
  | none, [] => .ok ()
  | none, firstCert :: _ =>
    if bundle.agentPubKey ≠ firstCert.subjectPubKey then
      .error (invalid "key_mismatch" "agent public key does not match delegation subject")
    else if bundle.agentId ≠ firstCert.subjectId then
      .error (invalid "id_mismatch" "agent ID does not match delegation subject ID")
    else .ok ()

/-- Everything between the validation of the challenge and its consumption: the
stream, the agent, the chain and the challenge signature. -/
def checkPresentation (bundle : ProofBundle) (opts : VerifyOptions) (now : Int64) :
    Except VerifyResult Unit := do
  checkStream "bundle" bundle.streamId bundle.streamSeq opts.stream
  checkAgent bundle
  if opts.forceRevocationCheck && opts.isRevoked.isNone && opts.revocation.isNone then
    .error (invalid "force_revocation_no_callback"
      "force_revocation_check is true but neither is_revoked nor revocation provider is set")
  checkChain P K opts now bundle.humanId bundle.agentId 0 bundle.delegations
  checkLiveness K bundle.tuple bundle.challengeSig bundle.agentPubKey now

/-- The constraints of all certificates, evaluated after the consumption. -/
def checkDeferredConstraints (bundle : ProofBundle) (opts : VerifyOptions) (now : Int64) :
    Except VerifyResult Unit :=
  bundle.delegations.zipIdx.forM fun c => checkConstraints P c.1 c.2 opts now

/-- The live policy provider. -/
def checkPolicy (bundle : ProofBundle) (opts : VerifyOptions) : Except VerifyResult Unit :=
  match opts.policy with
  | none => .ok ()
  | some policy =>
    match policy bundle opts.context with
    | .error e => .error (invalid "policy_error" s!"advanced policy evaluation failed: {e}")
    | .ok false =>
      .error (failWithStatus "scope_denied" "advanced policy evaluation denied access")
    | .ok true => .ok ()

/-- The policy gate: a cached verdict that verifies decides, otherwise the live
provider does. -/
def checkPolicyGate (bundle : ProofBundle) (opts : VerifyOptions) (now : Int64) :
    Except VerifyResult Unit :=
  match opts.policyVerdict, opts.policySecret with
  | some verdict, some secret =>
    if opts.requiredScope ≠ "" then
      match verifyPolicyVerdict K verdict secret bundle.agentId opts.requiredScope
          (verifierContextHash P K opts.context) now with
      | .ok () => .ok ()
      | .error e =>
        if startsWith e "policy_verdict_denied" then
          .error (failWithStatus "scope_denied" "policy verdict (cached) denied access")
        else checkPolicy bundle opts
    else checkPolicy bundle opts
  | _, _ => checkPolicy bundle opts

/-- The effective scope, the anchor and the policy. -/
def authorizeBundle (bundle : ProofBundle) (opts : VerifyOptions) (now : Int64) :
    Except VerifyResult VerifyResult := do
  let effective := intersectScopes (bundle.delegations.map (·.scope))
  if opts.requiredScope ≠ "" ∧ opts.requiredScope ∉ effective then
    .error (failWithStatus "scope_denied"
      s!"required scope \"{opts.requiredScope}\" not in effective delegation scope")
  let anchor :=
    match opts.anchorResolver with
    | some resolver => ((resolver bundle.humanId).toOption).join
    | none => none
  checkPolicyGate P K bundle opts now
  .ok { valid := true, identityStatus := .authorizedAgent, humanId := bundle.humanId
        agentId := bundle.agentId, grantedScope := effective, errorReason := "", anchor }

/-- The result of a computation that fails with a result. -/
def settle : Except VerifyResult VerifyResult → VerifyResult
  | .ok r => r
  | .error r => r

/-- What is left after the consumption. -/
def settleBundle (bundle : ProofBundle) (opts : VerifyOptions) (now : Int64) : VerifyResult :=
  settle do
    if opts.challengeStore then checkDeferredConstraints P bundle opts now
    authorizeBundle P K bundle opts now

/-- A verification with a store: validate, check, consume, and only then settle.
Without one, the checks and the settlement alone. -/
def presentation (store : Bool) (challenge sessionContext : Bytes) (now : Int64)
    (before between : Except VerifyResult Unit) (after : VerifyResult) :
    Interaction StoreCall Bool VerifyResult :=
  match before with
  | .error r => .ret r
  | .ok () =>
    if store then
      .call (.validate challenge sessionContext now) fun found =>
        if !found then .ret unknownChallenge
        else
          match between with
          | .error r => .ret r
          | .ok () =>
            .call (.consume challenge sessionContext now) fun consumed =>
              if !consumed then .ret unknownChallenge else .ret after
    else
      match between with
      | .error r => .ret r
      | .ok () => .ret after

/-- `verify_bundle_inner` at the time `now`. -/
def verifyBundleInner (bundle : ProofBundle) (opts : VerifyOptions) (now : Int64) :
    Interaction StoreCall Bool VerifyResult :=
  presentation opts.challengeStore bundle.challenge opts.sessionContext now
    (checkStructure bundle opts) (checkPresentation P K bundle opts now)
    (settleBundle P K bundle opts now)

/-! ## Streamed turns -/

/-- What the agent signed. -/
def StreamedTurn.tuple (turn : StreamedTurn) : ChallengeTuple :=
  ⟨turn.challenge, turn.challengeAt, turn.sessionContext, turn.streamId, turn.streamSeq⟩

/-- The token first, then the structure of the turn. -/
def checkToken (token : SessionToken) (sessionSecret : Bytes) (turn : StreamedTurn)
    (opts : StreamedVerifyOptions) (now : Int64) : Except VerifyResult Unit := do
  match verifySessionToken K token sessionSecret now with
  | .error e => .error (invalid "session_token_invalid" e)
  | .ok () => .ok ()
  if turn.challenge = [] then
    .error (invalid "no_challenge" "streamed turn contains no challenge")
  checkSessionContext "turn" turn.sessionContext opts.sessionContext

/-- Everything between the validation of the challenge and its consumption. -/
def checkTurn (token : SessionToken) (turn : StreamedTurn) (opts : StreamedVerifyOptions)
    (now : Int64) : Except VerifyResult Unit := do
  checkStream "turn" turn.streamId turn.streamSeq opts.stream
  checkLiveness K turn.tuple turn.challengeSig token.agentPubKey now

/-- The required scope against the scope that the token caches. -/
def settleTurn (token : SessionToken) (opts : StreamedVerifyOptions) : VerifyResult :=
  if opts.requiredScope ≠ "" ∧ opts.requiredScope ∉ token.grantedScope then
    failWithStatus "scope_denied"
      s!"required scope \"{opts.requiredScope}\" not in session token granted scope"
  else
    { valid := true, identityStatus := .authorizedAgent, humanId := token.humanId
      agentId := token.agentId, grantedScope := token.grantedScope, errorReason := ""
      anchor := none }

/-- `verify_streamed_turn_with_options` at the time `now`. -/
def verifyStreamedTurnWithOptions (token : SessionToken) (sessionSecret : Bytes)
    (turn : StreamedTurn) (opts : StreamedVerifyOptions) (now : Int64) :
    Interaction StoreCall Bool VerifyResult :=
  presentation opts.challengeStore turn.challenge opts.sessionContext now
    (checkToken K token sessionSecret turn opts now) (checkTurn K token turn opts now)
    (settleTurn token opts)

end Checks

end RatifyProtocol.V1
