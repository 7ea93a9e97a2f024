import RatifyProtocol.V2.Receipt.Form
import RatifyProtocol.V2.Status.Apply
set_option autoImplicit false

/-!
# Status: the answer for one certificate

`revocation_status_for_cert_v2` of `v2/status.rs` and the evidence it reports.
-/

namespace RatifyProtocol.V2

open Foundation

variable (P : Primitives)

/-- `"not_revoked"`, `"revoked"` or `"indeterminate"`. -/
inductive RevocationAnswer where
  | notRevoked
  | revoked
  | indeterminate
  deriving DecidableEq, Repr

/-- `""`, or why an answer is indeterminate. -/
inductive IndeterminateReason where
  | none
  | unavailable
  | stale
  deriving DecidableEq, Repr

/-- A fail-closed answer for one certificate with its evidence. -/
structure RevocationStatusResultV2 where
  status : RevocationAnswer
  reason : IndeterminateReason := .none
  evidence : List StatusEvidenceEntryV2 := []
  freshUntil : Int := 0
  deriving DecidableEq, Repr

def RevocationStatusResultV2.unavailable : RevocationStatusResultV2 :=
  { status := .indeterminate, reason := .unavailable }

/-- Evidence order: issuer, status key, sequence, type, digest. -/
def compareEvidence (a b : StatusEvidenceEntryV2) : Ordering :=
  (compare a.issuerId b.issuerId).then <|
  (compare a.statusKeyId b.statusKeyId).then <|
  (compare a.sequence b.sequence).then <|
  (compare a.objectType b.objectType).then <|
  compare a.digest b.digest

def evidenceEntry (issuerId statusKeyId : String) (o : RevocationObservationV2) :
    StatusEvidenceEntryV2 where
  issuerId := issuerId
  statusKeyId := if o.statusKeyId == "" then statusKeyId else o.statusKeyId
  sequence := o.sequence
  objectType := o.objectType
  digest := "sha384:" ++ hexEncode o.evidenceDigest

def pushUnique (evidence : List StatusEvidenceEntryV2) (e : StatusEvidenceEntryV2) :
    List StatusEvidenceEntryV2 :=
  if evidence.contains e then evidence else evidence ++ [e]

def sortEvidence (evidence : List StatusEvidenceEntryV2) : List StatusEvidenceEntryV2 :=
  evidence.insertionSort fun a b => compareEvidence a b ≠ .gt

/-- The accepted snapshot and the accepted pushes after it. -/
def acceptedEvidence (s : RevocationStatusStateV2) (issuerId keyId : String) :
    List StatusEvidenceEntryV2 :=
  match s.acceptedSnapshot with
  | none => []
  | some snap =>
    let evidence := match statusEvidenceDigestListV2 P snap with
      | .ok d =>
        [{ issuerId, statusKeyId := keyId, sequence := snap.sequence, objectType := LIST,
           digest := "sha384:" ++ hexEncode d }]
      | .error _ => []
    sortEvidence <| (s.observations.filter (acceptedPushInRange s snap)).foldl
      (fun evidence o => pushUnique evidence (evidenceEntry issuerId keyId o)) evidence

/-- The accepted evidence and every observation that keeps status unavailable. -/
def unavailableEvidence (s : RevocationStatusStateV2) (issuerId keyId : String) :
    List StatusEvidenceEntryV2 :=
  sortEvidence <| (s.observations.filter fun o => o.statusKeyEpoch == s.statusKeyEpoch
      && (decide (o.sequence > s.floor) || o.fork || o.gap || o.futureDated
        || (s.reconciliationRequired && !o.accepted))).foldl
    (fun evidence o => pushUnique evidence (evidenceEntry issuerId keyId o))
    (acceptedEvidence P s issuerId keyId)

/-- Everything that makes current status unavailable. -/
def statusUnavailable (state : RevocationStatusStateV2) (policy : RevocationStatusPolicyV2) :
    Bool :=
  !state.hasFloor || state.acceptedSnapshot.isNone || policy.maxListLifetimeSeconds == 0
    || policy.maxStatusAgeSeconds == 0 || state.futureDatedObjectObserved
    || state.reconciliationRequired || decide (state.floor < state.maxObservedSequence)
    || !containsAll state.acceptedCertIds state.denyUnionCertIds

/-- The answer once the query and the state have passed every check. -/
def answerForCert (state : RevocationStatusStateV2) (issuerId certId keyId : String)
    (policy : RevocationStatusPolicyV2) (now : Int) : RevocationStatusResultV2 :=
  if containsAll state.denyUnionCertIds [certId] then
    { status := .revoked
      evidence := sortEvidence <|
        (state.observations.filter fun o => o.revokedCertIds.contains certId).foldl
          (fun evidence o => pushUnique evidence (evidenceEntry issuerId keyId o))
          (acceptedEvidence P state issuerId keyId) }
  else if statusUnavailable state policy then
    { status := .indeterminate
      reason := .unavailable
      evidence := unavailableEvidence P state issuerId keyId }
  else match state.acceptedSnapshot with
    | none => .unavailable
    | some snap =>
      if !listFresh snap policy now then
        { status := .indeterminate
          reason := .stale
          evidence := acceptedEvidence P state issuerId keyId }
      else
        { status := .notRevoked
          evidence := acceptedEvidence P state issuerId keyId
          freshUntil := min snap.nextUpdate (snap.updatedAt + policy.maxStatusAgeSeconds) }

def revocationStatusForCertInner (state : RevocationStatusStateV2) (issuerId certId : String)
    (statusKeyEpoch : Nat) (statusKey : HybridPublicKey) (policy : RevocationStatusPolicyV2)
    (now : Int) : V2Result RevocationStatusResultV2 := do
  validatePolicy policy
  validateBinding state issuerId statusKeyEpoch
  validateAcceptedState P state
  refuseIf (certId == "" || !validV2Timestamp now)
    "status query has invalid certificate ID or time"
  let keyId ← keyIdPlain P statusKey
  refuseIf (state.issuerId != issuerId || state.statusKeyEpoch != statusKeyEpoch
      || state.statusKeyId != keyId)
    "status query does not match the configured issuer status-key binding"
  match state.acceptedSnapshot with
  | some snap =>
    withContext (verifyRevocationListV2Signature P snap issuerId statusKey)
      "accepted status snapshot signature is invalid"
  | none => .ok ()
  .ok (answerForCert P state issuerId certId keyId policy now)

/-- Derive a fail-closed answer and deterministic evidence for one certificate
from the issuer's reducer state. -/
def revocationStatusForCertV2 (state : RevocationStatusStateV2) (issuerId certId : String)
    (statusKeyEpoch : Nat) (statusKey : HybridPublicKey) (policy : RevocationStatusPolicyV2)
    (now : Int) : V2Result RevocationStatusResultV2 :=
  classify .configurationInvalid
    (revocationStatusForCertInner P state issuerId certId statusKeyEpoch statusKey policy now)

end RatifyProtocol.V2
