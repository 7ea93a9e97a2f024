import RatifyProtocol.V2.Evaluators
import RatifyProtocol.V2.Scopes
set_option autoImplicit false

/-!
# Receipts: the verification receipt and its validation

The data model of `v2/receipt.rs`, the rules on its authenticated status
evidence, and `validate_receipt` with `validate_decision`.
-/

namespace RatifyProtocol.V2

open Foundation

/-- Authenticated status evidence reference, issuer-scoped. -/
structure StatusEvidenceEntryV2 where
  issuerId : String
  statusKeyId : String
  sequence : Int
  objectType : Nat
  digest : String
  deriving DecidableEq, Repr

/-- Verifier-signed terminal assertion.  An empty `agentId` or `humanId` means
absent. -/
structure VerificationReceiptV2 where
  version : Int
  logId : String
  sequence : Int
  verifierId : String
  agentId : String
  humanId : String
  bundleHash : String
  issuerIds : List String
  decision : String
  decisionReason : String
  identityStatus : String
  trustAssessment : String
  statusAssessment : String
  challengeAssessment : String
  constraintEvaluators : List ConstraintEvaluatorRefV2
  contextAssessment : String
  contextPolicyDigest : Option String
  verifiedAt : Int
  requiredScope : String
  grantedScope : List String
  statusEvidence : List StatusEvidenceEntryV2
  previousReceiptHash : Bytes
  signature : HybridSignature
  deriving DecidableEq, Repr

/-! ## Sorted members -/

def sortedUniqueIds (values : List String) : Bool :=
  values.all validV2Id && ascendingBy (fun a b => decide (a < b)) values

theorem sortedUniqueIds_sortedUnique (ids : List String) :
    sortedUniqueIds (sortedUnique ids) = true ↔ ∀ id ∈ ids, validV2Id id = true := by
  have hsorted : ascendingBy (fun a b => decide (a < b)) (sortedUnique ids) = true :=
    ascendingBy_of_pairwise ((pairwise_sortedUnique ids).and (nodup_sortedUnique ids) |>.imp
      fun h => decide_eq_true (lt_of_le_of_ne h.1 h.2))
  simp only [sortedUniqueIds, hsorted, Bool.and_true, List.all_eq_true, mem_sortedUnique]

def sortedGranted (values : List String) : Bool :=
  values.isEmpty
    || (match validateScopesV2 values with
      | .error _ => false
      | .ok () => values.all (fun v => !isWildcardScope v)
          && ascendingBy (fun a b => decide (a < b)) values)

/-- `compare_evidence(a, b) == Less`. -/
def evidenceLt (a b : StatusEvidenceEntryV2) : Bool :=
  decide (a.issuerId < b.issuerId) || (a.issuerId == b.issuerId
    && (decide (a.statusKeyId < b.statusKeyId) || (a.statusKeyId == b.statusKeyId
      && (decide (a.sequence < b.sequence) || (a.sequence == b.sequence
        && (decide (a.objectType < b.objectType) || (a.objectType == b.objectType
          && decide (a.digest < b.digest))))))))

/-- One entry, after the entries `prior`: its status key serves one issuer and
no other role, and its members are well formed. -/
def evidenceEntryOk (issuerIds : List String) (verifierId agentId : String)
    (prior : List StatusEvidenceEntryV2) (v : StatusEvidenceEntryV2) : Bool :=
  (prior.all fun p => p.statusKeyId != v.statusKeyId || p.issuerId == v.issuerId)
    && issuerIds.contains v.issuerId && validV2Id v.statusKeyId
    && !issuerIds.contains v.statusKeyId && v.statusKeyId != verifierId
    && !(agentId != "" && v.statusKeyId == agentId)
    && decide (0 < v.sequence) && decide (v.sequence ≤ maxSafe)
    && (v.objectType == 3 || v.objectType == 5) && validPrefixedDigest v.digest

def evidenceEntriesOk (issuerIds : List String) (verifierId agentId : String) :
    List StatusEvidenceEntryV2 → List StatusEvidenceEntryV2 → Bool
  | _, [] => true
  | prior, v :: rest => evidenceEntryOk issuerIds verifierId agentId prior v
      && evidenceEntriesOk issuerIds verifierId agentId (prior ++ [v]) rest

def sortedEvidence (values : List StatusEvidenceEntryV2) (issuerIds : List String)
    (verifierId agentId : String) : Bool :=
  evidenceEntriesOk issuerIds verifierId agentId [] values && ascendingBy evidenceLt values

/-- One issuer's entries in order: the sequence of its one full list (`0` before
it was seen) and the sequences of its pushes, all under one status key. -/
def historyScan : Int → String → List Int → List StatusEvidenceEntryV2 →
    Option (Int × List Int)
  | base, _, pushes, [] => some (base, pushes)
  | base, key, pushes, e :: es =>
    if key ≠ "" ∧ key ≠ e.statusKeyId then none
    else if e.objectType = 3 then
      if base ≠ 0 then none else historyScan e.sequence e.statusKeyId pushes es
    else if pushes.contains e.sequence then none
    else historyScan base e.statusKeyId (pushes ++ [e.sequence]) es

/-- One accepted full-list base and contiguous pushes for `issuer`. -/
def hasAcceptedStatusHistory (evidence : List StatusEvidenceEntryV2) (issuer : String) : Bool :=
  match historyScan 0 "" [] (evidence.filter fun e => e.issuerId == issuer) with
  | none => false
  | some (base, pushes) =>
    base != 0 && (pushes.all fun s => decide (base < s))
      && (List.range pushes.length).all fun i => pushes.contains (base + 1 + i)

def hasAcceptedStatusHistoryPerIssuer (evidence : List StatusEvidenceEntryV2)
    (issuerIds : List String) : Bool :=
  issuerIds.all (hasAcceptedStatusHistory evidence) && !issuerIds.isEmpty

/-! ## Decisions -/

def decisionReasons : List String :=
  ["authorized", "not_delegated", "delegation_not_authorized", "delegation_expired",
    "delegation_revoked", "scope_denied", "constraint_denied", "constraint_unverifiable",
    "constraint_unknown", "invalid_scope", "proof_invalid", "unauthorized", "status_stale",
    "status_unavailable", "action_context_unverified", "trust_unavailable",
    "evaluation_interrupted"]

/-- The identity status a deny reason carries. -/
def denyStatus : String → Option String
  | "not_delegated" => some "delegation_not_authorized"
  | "delegation_not_authorized" => some "delegation_not_authorized"
  | "delegation_expired" => some "expired"
  | "delegation_revoked" => some "revoked"
  | "scope_denied" => some "scope_denied"
  | "invalid_scope" => some "invalid_scope"
  | "constraint_denied" => some "constraint_denied"
  | "constraint_unverifiable" => some "constraint_unverifiable"
  | "constraint_unknown" => some "constraint_unknown"
  | "proof_invalid" => some "invalid"
  | "unauthorized" => some "unauthorized"
  | _ => none

def validDenyPair (reason status : String) : Bool := denyStatus reason == some status

/-- The reasons of a denial by local policy, after status. -/
def localReason (reason : String) : Bool :=
  ["scope_denied", "constraint_denied", "constraint_unverifiable",
    "constraint_unknown"].contains reason

def constraintReason (reason : String) : Bool :=
  ["constraint_denied", "constraint_unverifiable", "constraint_unknown"].contains reason

/-- The requirements of an allow. -/
def validateAllow (r : VerificationReceiptV2) : V2Result Unit :=
  refuseIf (r.decisionReason != "authorized" || r.identityStatus != "authorized_agent"
      || r.trustAssessment != "trusted" || r.statusAssessment != "current"
      || r.statusEvidence.isEmpty || r.grantedScope.isEmpty
      || !r.grantedScope.contains r.requiredScope
      || (r.contextAssessment != "bound" && r.contextAssessment != "not_required")
      || r.contextPolicyDigest.isNone)
    "wire v2: allow receipt violates authorization, status, context, or scope requirements"

/-- The requirements of a deny. -/
def validateDeny (r : VerificationReceiptV2) : V2Result Unit := do
  let reason := r.decisionReason
  let ta := r.trustAssessment
  let sa := r.statusAssessment
  let ca := r.contextAssessment
  refuseIf (!r.grantedScope.isEmpty || !validDenyPair reason r.identityStatus)
    "wire v2: deny receipt has an invalid reason/status pair or granted scope"
  refuseIf (reason == "not_delegated" && !r.issuerIds.isEmpty)
    "wire v2: not_delegated receipt cannot contain certificate issuers"
  refuseIf (localReason reason && sa != "current")
    "wire v2: post-status local policy denial requires current status"
  refuseIf ((reason == "unauthorized" && ta != "untrusted")
      || (reason == "not_delegated" && ta != "not_evaluated")
      || (reason != "unauthorized" && reason != "not_delegated" && ta != "trusted"))
    "wire v2: deny receipt trust assessment is inconsistent"
  refuseIf ((reason == "delegation_revoked" && sa != "revoked")
      || (reason == "not_delegated" && sa != "not_evaluated")
      || (reason != "delegation_revoked" && reason != "not_delegated" && sa != "not_evaluated"
        && !(sa == "current" && localReason reason)))
    "wire v2: deny receipt status assessment is inconsistent"
  refuseIf ((reason == "not_delegated" || reason == "unauthorized") && ca != "not_evaluated")
    "wire v2: deny receipt context assessment is inconsistent"
  refuseIf (reason == "delegation_revoked" && ca == "not_evaluated")
    "wire v2: delegation_revoked receipt must retain its completed context assessment"
  refuseIf (! ["delegation_revoked", "not_delegated", "unauthorized"].contains reason
      && !localReason reason && ca != "not_evaluated")
    "wire v2: context assessment must be not_evaluated for this deny result"
  refuseIf ((reason == "scope_denied" && ca == "not_evaluated")
      || (constraintReason reason && ca != "bound" && ca != "not_required"
        && !(reason == "constraint_denied" && ca == "mismatch")))
    "wire v2: constraint denial must retain its completed context assessment"
  refuseIf ((reason == "not_delegated" || reason == "unauthorized")
      && !r.statusEvidence.isEmpty)
    "wire v2: status evidence is not evaluated for this deny result"
  refuseIf (reason == "constraint_denied" && ca == "mismatch"
      && r.identityStatus != "constraint_denied")
    "wire v2: context mismatch must be a constraint denial"

/-- Whether the assessments fit an indeterminate reason; `none` for a reason
that is not one. -/
def indeterminateTuple (r : VerificationReceiptV2) : Option Bool :=
  let ta := r.trustAssessment
  let sa := r.statusAssessment
  let ca := r.contextAssessment
  match r.decisionReason with
  | "status_stale" => some (ta == "trusted" && sa == "stale" && ca != "not_evaluated")
  | "status_unavailable" =>
    some (ta == "trusted" && sa == "unavailable" && ca != "not_evaluated")
  | "trust_unavailable" =>
    some (ta == "unavailable" && sa == "not_evaluated" && ca == "not_evaluated"
      && r.statusEvidence.isEmpty)
  | "action_context_unverified" =>
    some (ta == "trusted" && sa == "current" && (ca == "unbound" || ca == "unverified"))
  -- Each dimension is independent: status and context exist only under a
  -- trusted root, and context is recorded only when it completed.
  | "evaluation_interrupted" =>
    some (!((ca != "not_evaluated" && ca != "bound" && ca != "not_required")
      || (ta != "trusted" && (sa != "not_evaluated" || ca != "not_evaluated"))))
  | _ => none

def validateIndeterminate (r : VerificationReceiptV2) : V2Result Unit := do
  refuseIf (r.decision != "indeterminate" || !r.grantedScope.isEmpty
      || r.identityStatus != "authorization_unverified")
    "wire v2: receipt decision or indeterminate identity/scope is invalid"
  match indeterminateTuple r with
  | none => plain "wire v2: indeterminate reason is invalid"
  | some ok => refuseIf (!ok) s!"wire v2: {r.decisionReason} assessment tuple is invalid"

def validateDecision (r : VerificationReceiptV2) : V2Result Unit := do
  refuseIf (!decisionReasons.contains r.decisionReason)
    "wire v2: receipt decision_reason is invalid"
  refuseIf (! ["trusted", "untrusted", "unavailable", "not_evaluated"].contains
      r.trustAssessment)
    "wire v2: receipt trust_assessment is invalid"
  refuseIf (! ["current", "revoked", "stale", "unavailable", "not_evaluated"].contains
      r.statusAssessment)
    "wire v2: receipt status_assessment is invalid"
  refuseIf (! ["bound", "not_required", "unbound", "unverified", "mismatch",
      "not_evaluated"].contains r.contextAssessment)
    "wire v2: receipt context_assessment is invalid"
  if r.decision = "allow" then validateAllow r
  else if r.decision = "deny" then validateDeny r
  else validateIndeterminate r

/-! ## Receipts -/

/-- The checks of `validate_receipt` on the issuers and the required scope. -/
def validateReceiptIssuers (r : VerificationReceiptV2) : V2Result Unit := do
  let sa := r.statusAssessment
  let ca := r.contextAssessment
  refuseIf (!sortedUniqueIds r.issuerIds)
    "wire v2: receipt arrays must be present and canonical"
  refuseIf (r.decisionReason != "not_delegated"
      && r.decisionReason != "evaluation_interrupted" && r.issuerIds.isEmpty)
    "wire v2: a receipt for a delegated decision must identify its certificate issuers"
  refuseIf (r.decisionReason == "evaluation_interrupted" && r.issuerIds.isEmpty
      && (r.trustAssessment != "not_evaluated" || sa != "not_evaluated"
        || ca != "not_evaluated" || !r.statusEvidence.isEmpty))
    ("wire v2: interrupted empty-chain receipt cannot claim completed trust, status, or "
      ++ "context checks")
  withContext (requiredScopeV2 r.requiredScope) "wire v2"

/-- The checks of `validate_receipt` from the granted scope on. -/
def validateReceiptAssessments (r : VerificationReceiptV2) : V2Result Unit := do
  let sa := r.statusAssessment
  let ca := r.contextAssessment
  refuseIf (!sortedGranted r.grantedScope)
    "wire v2: granted_scope must be sorted, unique canonical scopes"
  refuseIf (!sortedEvidence r.statusEvidence r.issuerIds r.verifierId r.agentId)
    "wire v2: status evidence is invalid, duplicated, or not canonically sorted"
  refuseIf (["current", "revoked", "stale"].contains sa && r.statusEvidence.isEmpty)
    "wire v2: evaluated status requires authenticated evidence"
  refuseIf (r.contextPolicyDigest.any fun d => !validPrefixedDigest d)
    "wire v2: context_policy_digest is invalid"
  refuseIf (!validConstraintEvaluatorRefsV2 r.constraintEvaluators
      || (!r.constraintEvaluators.isEmpty && r.issuerIds.isEmpty))
    ("wire v2: constraint_evaluators must be valid extension types with sha384 profile "
      ++ "digests, sorted and unique by type, and only for a delegated chain")
  refuseIf ((["not_evaluated", "unbound"].contains ca && r.contextPolicyDigest.isSome)
      || (["bound", "not_required", "mismatch"].contains ca && r.contextPolicyDigest.isNone))
    "wire v2: context_policy_digest does not match context_assessment"
  refuseIf (sa == "not_evaluated" && !r.statusEvidence.isEmpty)
    "wire v2: status evidence cannot be present when status was not evaluated"
  refuseIf (["current", "stale"].contains sa
      && !hasAcceptedStatusHistoryPerIssuer r.statusEvidence r.issuerIds)
    ("wire v2: current or stale status requires one accepted full-list base and contiguous "
      ++ "pushes for every issuer")
  refuseIf (r.challengeAssessment != "current")
    "wire v2: terminal receipt challenge_assessment must be current"
  validateDecision r

/-- `validate_receipt`; a signature is checked for its lengths when `signature`. -/
def validateReceipt (r : VerificationReceiptV2) (signature : Bool) : V2Result Unit := do
  refuseIf (r.version != 2 || (utf8 r.logId).length != 32 || !lowerHex r.logId
      || decide (r.sequence ≤ 0) || decide (r.sequence > maxSafe)
      || !validV2Timestamp r.verifiedAt)
    "wire v2: receipt version, log ID, sequence, or verified_at is invalid"
  refuseIf (!validV2Id r.verifierId || (r.agentId != "" && !validV2Id r.agentId))
    "wire v2: receipt verifier_id and optional agent_id must be v2 key IDs"
  refuseIf (!validPrefixedDigest r.bundleHash || r.previousReceiptHash.length != 48)
    "wire v2: receipt bundle hash or previous receipt hash is invalid"
  validateReceiptIssuers r
  let zero := r.previousReceiptHash.all (· == 0)
  refuseIf ((r.sequence == 1 && !zero) || (decide (r.sequence > 1) && zero))
    "wire v2: previous_receipt_hash is inconsistent with receipt sequence"
  validateReceiptAssessments r
  refuseIf (signature && (r.signature.ed25519.length != 64 || r.signature.mlDsa65.length != 3309))
    "wire v2: signature must contain 64-byte Ed25519 and 3309-byte ML-DSA-65 components"

end RatifyProtocol.V2
