import RatifyProtocol.V2.Receipt.Form
import RatifyProtocol.V2.JsonCanonical
set_option autoImplicit false

/-!
# Receipts: wire form and prepared body

`v2/receipt.rs`: the three shapes of a receipt's canonical JSON, their strict
reading, and the prepared outbox body that omits the log position.
-/

namespace RatifyProtocol.V2

open Foundation

def maxVerificationReceiptBytesV2 : Nat := 65536
def maxVerificationReceiptBodyBytesV2 : Nat := 65536

/-- The required members of a prepared body. -/
def receiptBodyFields : List String :=
  ["version", "verifier_id", "bundle_hash", "issuer_ids", "decision", "decision_reason",
    "identity_status", "trust_assessment", "status_assessment", "challenge_assessment",
    "context_assessment", "context_policy_digest", "verified_at", "required_scope",
    "granted_scope", "status_evidence_digests"]

/-- The required members of a signable body. -/
def receiptSignableFields : List String :=
  ["version", "log_id", "sequence", "verifier_id", "bundle_hash", "issuer_ids", "decision",
    "decision_reason", "identity_status", "trust_assessment", "status_assessment",
    "challenge_assessment", "context_assessment", "context_policy_digest", "verified_at",
    "required_scope", "granted_scope", "status_evidence_digests", "previous_receipt_hash"]

/-- The required members of a signed receipt. -/
def receiptFields : List String := receiptSignableFields ++ ["signature"]

/-- The members a receipt may carry beside the required `names`. -/
def withOptional (names : List String) : List String :=
  names ++ ["agent_id", "human_id", "constraint_evaluators"]

/-! ## Canonical JSON -/

def evidenceEntryCj (e : StatusEvidenceEntryV2) : CJ :=
  .obj [("digest", .str e.digest), ("issuer_id", .str e.issuerId),
    ("object_type_code", .int e.objectType), ("sequence", .int e.sequence),
    ("status_key_id", .str e.statusKeyId)]

def evidenceCj (values : List StatusEvidenceEntryV2) : CJ := .arr (values.map evidenceEntryCj)

/-- Which members a receipt is written with. -/
inductive Shape where
  | body
  | signable
  | wire
  deriving DecidableEq, Repr

/-- The members every receipt has. -/
def receiptMembers (r : VerificationReceiptV2) : List (String × CJ) :=
  [("bundle_hash", .str r.bundleHash), ("challenge_assessment", .str r.challengeAssessment),
    ("context_assessment", .str r.contextAssessment),
    ("context_policy_digest", r.contextPolicyDigest.elim .null .str),
    ("decision", .str r.decision), ("decision_reason", .str r.decisionReason),
    ("granted_scope", CJ.strs r.grantedScope), ("identity_status", .str r.identityStatus),
    ("issuer_ids", CJ.strs r.issuerIds), ("required_scope", .str r.requiredScope),
    ("status_assessment", .str r.statusAssessment),
    ("status_evidence_digests", evidenceCj r.statusEvidence),
    ("trust_assessment", .str r.trustAssessment), ("verified_at", .int r.verifiedAt),
    ("verifier_id", .str r.verifierId), ("version", .int r.version)]

/-- The members a receipt has only when they are not empty. -/
def receiptOptional (r : VerificationReceiptV2) : List (String × CJ) :=
  (if r.agentId = "" then [] else [("agent_id", .str r.agentId)])
    ++ (if r.humanId = "" then [] else [("human_id", .str r.humanId)])
    ++ (if r.constraintEvaluators = [] then []
        else [("constraint_evaluators", evaluatorRefsCj r.constraintEvaluators)])

/-- The log position, absent from a prepared body. -/
def receiptPosition (r : VerificationReceiptV2) : Shape → List (String × CJ)
  | .body => []
  | _ => [("log_id", .str r.logId), ("previous_receipt_hash", .bytes r.previousReceiptHash),
      ("sequence", .int r.sequence)]

def receiptSignature (r : VerificationReceiptV2) : Shape → List (String × CJ)
  | .wire => [("signature", CJ.sig r.signature)]
  | _ => []

def receiptCj (r : VerificationReceiptV2) (shape : Shape) : CJ :=
  .obj (receiptMembers r ++ receiptOptional r ++ receiptPosition r shape
    ++ receiptSignature r shape)

/-! ## Reading -/

def evidenceEntryFrom (n : JNode) : V2Result StatusEvidenceEntryV2 :=
  if n.isNull then
    .ok { issuerId := "", statusKeyId := "", sequence := 0, objectType := 0, digest := "" }
  else do
    let e ← obj n
    e.only ["digest", "issuer_id", "object_type_code", "sequence", "status_key_id"]
    let issuerId ← e.str "issuer_id"
    let statusKeyId ← e.str "status_key_id"
    let sequence ← e.i64 "sequence"
    let objectType ← e.u16 "object_type_code"
    let digest ← e.str "digest"
    .ok { issuerId, statusKeyId, sequence, objectType, digest }

def evidenceFrom (o : Obj) : V2Result (List StatusEvidenceEntryV2) := do
  let xs ← o.array "status_evidence_digests"
  xs.mapM evidenceEntryFrom

def evaluatorFrom (n : JNode) : V2Result ConstraintEvaluatorRefV2 := do
  let e ← obj n
  e.only ["profile_digest", "type"]
  let kind ← e.str "type"
  let profileDigest ← e.str "profile_digest"
  .ok { kind, profileDigest }

def evaluatorsFrom (o : Obj) : V2Result (List ConstraintEvaluatorRefV2) := do
  let xs ← o.array "constraint_evaluators"
  xs.mapM evaluatorFrom

def receiptFrom (o : Obj) : V2Result VerificationReceiptV2 := do
  let version ← o.i64 "version"
  let logId ← o.str "log_id"
  let sequence ← o.i64 "sequence"
  let verifierId ← o.str "verifier_id"
  let agentId ← o.str "agent_id"
  let humanId ← o.str "human_id"
  let bundleHash ← o.str "bundle_hash"
  let issuerIds ← o.strArray "issuer_ids"
  let decision ← o.str "decision"
  let decisionReason ← o.str "decision_reason"
  let identityStatus ← o.str "identity_status"
  let trustAssessment ← o.str "trust_assessment"
  let statusAssessment ← o.str "status_assessment"
  let challengeAssessment ← o.str "challenge_assessment"
  let constraintEvaluators ← evaluatorsFrom o
  let contextAssessment ← o.str "context_assessment"
  let contextPolicyDigest ← o.optStr "context_policy_digest"
  let verifiedAt ← o.i64 "verified_at"
  let requiredScope ← o.str "required_scope"
  let grantedScope ← o.strArray "granted_scope"
  let statusEvidence ← evidenceFrom o
  let previousReceiptHash ← o.bytes "previous_receipt_hash"
  let signature ← o.sig "signature"
  .ok { version, logId, sequence, verifierId, agentId, humanId, bundleHash, issuerIds,
        decision, decisionReason, identityStatus, trustAssessment, statusAssessment,
        challengeAssessment, constraintEvaluators, contextAssessment, contextPolicyDigest,
        verifiedAt, requiredScope, grantedScope, statusEvidence, previousReceiptHash,
        signature }

/-! ## The signed receipt -/

/-- Canonical signable bytes: every member but `signature`. -/
def verificationReceiptV2SignableBytes (r : VerificationReceiptV2) : V2Result Bytes :=
  canonical (receiptCj r .signable)

def validateReceiptSignableBody (data : Bytes) : V2Result Unit := do
  let root ← parseWire data ["previous_receipt_hash"] ["bundle_hash"]
  let o ← obj root
  o.require receiptSignableFields ["context_policy_digest"]
  refuseIf (o.get "signature").isSome "signable body must exclude signature"
  o.only (withOptional receiptSignableFields)
  let r ← receiptFrom o
  validateReceipt r false
  let c ← canonical (receiptCj r .signable)
  refuseIf (c != data) "signable body must use RatifyCanonicalJSON"

/-- Canonical wire bytes. -/
def encodeVerificationReceiptV2 (r : VerificationReceiptV2) : V2Result Bytes := do
  validateReceipt r true
  let data ← canonical (receiptCj r .wire)
  checkV2WireSize data "verification receipt" "MAX_VERIFICATION_RECEIPT_BYTES_V2"
    maxVerificationReceiptBytesV2
  .ok data

/-- Strictly decode a canonical receipt. -/
def decodeVerificationReceiptV2 (data : Bytes) : V2Result VerificationReceiptV2 :=
  classify .malformed do
    checkV2WireSize data "verification receipt" "MAX_VERIFICATION_RECEIPT_BYTES_V2"
      maxVerificationReceiptBytesV2
    let root ← parseWire data ["previous_receipt_hash"] ["bundle_hash"]
    let o ← obj root
    o.require receiptFields ["context_policy_digest"]
    o.only (withOptional receiptFields)
    let r ← receiptFrom o
    validateReceipt r true
    match encodeVerificationReceiptV2 r with
    | .ok c =>
      if c = data then .ok r
      else plain "wire v2: verification receipt is not canonical Ratify JSON"
    | .error _ => plain "wire v2: verification receipt is not canonical Ratify JSON"

/-! ## The prepared body -/

/-- The signature no body carries. -/
def noSignature : HybridSignature := { ed25519 := [], mlDsa65 := [] }

def placeholderSignature : HybridSignature :=
  { ed25519 := List.replicate 64 0, mlDsa65 := List.replicate 3309 0 }

/-- The genesis link of a log. -/
def zeroHash : Bytes := List.replicate 48 0

/-- A body is tried at the first position of a log. -/
def bodyAtGenesis (r : VerificationReceiptV2) : VerificationReceiptV2 :=
  { r with
    logId := "0123456789abcdef0123456789abcdef", sequence := 1,
    previousReceiptHash := zeroHash, signature := noSignature }

/-- A body is tried at the last position of a log, signed. -/
def bodyAtEnd (r : VerificationReceiptV2) : VerificationReceiptV2 :=
  { bodyAtGenesis r with
    sequence := maxSafe, previousReceiptHash := 1 :: List.replicate 47 0,
    signature := placeholderSignature }

/-- The canonical outbox body prepared before terminal commit: every member
except log position, previous hash and signature. -/
def verificationReceiptV2Body (r : VerificationReceiptV2) : V2Result Bytes := do
  validateReceipt (bodyAtGenesis r) false
  let _ ← encodeVerificationReceiptV2 (bodyAtEnd r)
  canonical (receiptCj r .body)

/-- Reject a malformed or noncanonical prepared body. -/
def decodeVerificationReceiptBodyV2 (data : Bytes) : V2Result VerificationReceiptV2 :=
  classify .malformed do
    checkV2WireSize data "verification receipt body"
      "MAX_VERIFICATION_RECEIPT_BODY_BYTES_V2" maxVerificationReceiptBodyBytesV2
    let root ← parseWire data [] ["bundle_hash"]
    let o ← obj root
    o.require receiptBodyFields ["context_policy_digest"]
    o.only (withOptional receiptBodyFields)
    let r ← receiptFrom o
    let r := { r with signature := noSignature }
    let body ← withContext (verificationReceiptV2Body r)
      "wire v2: verification receipt body is invalid or noncanonical"
    if body = data then .ok r
    else plain "wire v2: verification receipt body is noncanonical"

end RatifyProtocol.V2
