import RatifyProtocol.V1.Canonical
import RatifyProtocol.V2.Scopes
set_option autoImplicit false

/-!
# V1: credentials bound by a secret

The session tokens of `crypto.rs` and the cached policy verdicts of
`receipts.rs`, with the canonical texts that their MACs cover.
-/

namespace RatifyProtocol.V1

open Foundation

variable (P : Platform) (K : Primitives)

/-! ## Session tokens -/

/-- `session_token_sign_bytes`: the scope is sorted first. -/
def sessionTokenSignBytes (token : SessionToken) : Bytes :=
  utf8Chars
    ("\x7b\"agent_id\":".toList ++ encodeStr token.agentId
      ++ ",\"agent_pub_key\":".toList ++ encodeHybridPubKey token.agentPubKey
      ++ ",\"chain_hash\":".toList ++ encodeBytesB64 token.chainHash
      ++ ",\"granted_scope\":".toList
      ++ encodeStrArray (token.grantedScope.insertionSort (· ≤ ·))
      ++ ",\"human_id\":".toList ++ encodeStr token.humanId
      ++ ",\"issued_at\":".toList ++ encodeI64 token.issuedAt
      ++ ",\"session_id\":".toList ++ encodeStr token.sessionId
      ++ ",\"valid_until\":".toList ++ encodeI64 token.validUntil
      ++ ",\"version\":".toList ++ encodeI32 token.version ++ "\x7d".toList)

/-- `chain_hash`. -/
def chainHash (chain : List DelegationCert) : Bytes := K.sha256 (chainHashInput P chain)

/-- `issue_session_token` from a bundle and the result of its verification. -/
def issueSessionToken (bundle : ProofBundle) (result : VerifyResult) (sessionId : String)
    (issuedAt validUntil : Int64) (sessionSecret : Bytes) : Except String SessionToken :=
  if sessionSecret = [] then .error "session_secret must not be empty"
  else if sessionId = "" then .error "session_id must not be empty"
  else if validUntil ≤ issuedAt then .error "valid_until must be strictly after issued_at"
  else
    let token : SessionToken :=
      { version := 1, sessionId, agentId := result.agentId, agentPubKey := bundle.agentPubKey
        humanId := result.humanId
        grantedScope := result.grantedScope.insertionSort (· ≤ ·), issuedAt, validUntil
        chainHash := chainHash P K bundle.delegations, mac := [] }
    .ok { token with mac := K.hmacSha256 sessionSecret (sessionTokenSignBytes token) }

/-- `verify_session_token_e`: the MAC and the validity window. -/
def verifySessionToken (token : SessionToken) (sessionSecret : Bytes) (now : Int64) :
    Except String Unit :=
  if sessionSecret = [] then .error "session_secret must not be empty"
  else if token.version ≠ 1 then
    .error s!"version_mismatch: unsupported version {token.version.toInt}"
  else if token.chainHash.length ≠ 32 then
    .error s!"chain_hash must be 32 bytes, got {token.chainHash.length}"
  else if token.mac.length ≠ 32 then .error s!"mac must be 32 bytes, got {token.mac.length}"
  else if K.hmacSha256 sessionSecret (sessionTokenSignBytes token) ≠ token.mac then
    .error "session_token MAC invalid"
  else if now < token.issuedAt then .error "session_token not yet valid"
  else if now > token.validUntil then .error "session_token expired"
  else .ok ()

/-! ## Policy verdicts -/

/-- `verifier_context_hash`; it does not fail. -/
def verifierContextHash (ctx : VerifierContext) : Bytes :=
  K.sha256 <| utf8Chars
    ("\x7b\"current_alt_m\":".toList ++ encodeF64 P (ctx.currentAltM.getD .zero)
      ++ ",\"current_lat\":".toList ++ encodeF64 P (ctx.currentLat.getD .zero)
      ++ ",\"current_lon\":".toList ++ encodeF64 P (ctx.currentLon.getD .zero)
      ++ ",\"current_speed_mps\":".toList ++ encodeF64 P (ctx.currentSpeedMps.getD .zero)
      ++ ",\"has_amount\":".toList ++ encodeBool ctx.requestedAmount.isSome
      ++ ",\"has_location\":".toList ++ encodeBool (ctx.currentLat.isSome && ctx.currentLon.isSome)
      ++ ",\"has_speed\":".toList ++ encodeBool ctx.currentSpeedMps.isSome
      ++ ",\"requested_amount\":".toList ++ encodeF64 P (ctx.requestedAmount.getD .zero)
      ++ ",\"requested_currency\":".toList ++ encodeStr (ctx.requestedCurrency.getD "")
      ++ "\x7d".toList)

/-- `policy_verdict_sign_bytes`. -/
def policyVerdictSignBytes (v : PolicyVerdict) : Bytes :=
  utf8Chars
    ("\x7b\"agent_id\":".toList ++ encodeStr v.agentId
      ++ ",\"allow\":".toList ++ encodeBool v.allow
      ++ ",\"context_hash\":".toList ++ encodeBytesB64 v.contextHash
      ++ ",\"issued_at\":".toList ++ encodeI64 v.issuedAt
      ++ ",\"scope\":".toList ++ encodeStr v.scope
      ++ ",\"valid_until\":".toList ++ encodeI64 v.validUntil
      ++ ",\"verdict_id\":".toList ++ encodeStr v.verdictId
      ++ ",\"version\":".toList ++ encodeI32 v.version ++ "\x7d".toList)

/-- `verify_policy_verdict`: success is a cached allow. -/
def verifyPolicyVerdict (v : PolicyVerdict) (policySecret : Bytes)
    (expectedAgentId expectedScope : String) (expectedContextHash : Bytes) (now : Int64) :
    Except String Unit :=
  if policySecret = [] then .error "policy_secret must not be empty"
  else if v.version ≠ 1 then .error s!"unsupported version {v.version.toInt}"
  else if v.contextHash.length ≠ 32 then
    .error s!"context_hash must be 32 bytes, got {v.contextHash.length}"
  else if v.mac.length ≠ 32 then .error s!"mac must be 32 bytes, got {v.mac.length}"
  else if K.hmacSha256 policySecret (policyVerdictSignBytes v) ≠ v.mac then
    .error "policy_verdict MAC invalid"
  else if now < v.issuedAt then .error "policy_verdict not yet valid"
  else if now > v.validUntil then .error "policy_verdict expired"
  else if v.agentId ≠ expectedAgentId then .error "policy_verdict agent_id mismatch"
  else if v.scope ≠ expectedScope then .error "policy_verdict scope mismatch"
  else if v.contextHash ≠ expectedContextHash then
    .error "policy_verdict context_hash mismatch"
  else if !v.allow then
    .error s!"policy_verdict_denied: cached deny for scope \"{v.scope}\""
  else .ok ()

end RatifyProtocol.V1
