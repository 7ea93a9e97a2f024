import RatifyProtocol.V2.Delegation.Constraint
import RatifyProtocol.V2.Wire
import RatifyProtocol.V2.Scopes
set_option autoImplicit false

/-!
# V2: delegation certificates and proof bundles

The delegation part of `v2/wire.rs`: certificates (object code 0x0001), proof
bundles and challenge presentations (0x0002), their validation, canonical
encoding, strict decoding, digests and signature checks.
-/

namespace RatifyProtocol.V2

open Foundation

def maxDelegationChainDepth : Nat := 8
def maxScopesPerCert : Nat := 128
def maxConstraintsPerCert : Nat := 32
def maxDelegationCertBytesV2 : Nat := 32768
def maxProofBundleBytesV2 : Nat := 131072

/-- Delegation certificate (object code 0x0001). -/
structure DelegationCertV2 where
  version : Int
  certId : String
  issuerId : String
  issuerPubKey : HybridPublicKey
  subjectId : String
  subjectPubKey : HybridPublicKey
  scope : List String
  constraints : List ConstraintV2
  issuedAt : Int
  expiresAt : Int
  signature : HybridSignature

/-- Proof bundle carrying a challenge presentation (object code 0x0002). -/
structure ProofBundleV2 where
  version : Int
  verifierId : String
  agentId : String
  agentPubKey : HybridPublicKey
  delegations : List DelegationCertV2
  delegationDigest : Bytes
  challenge : Bytes
  challengeAt : Int
  challengeSig : HybridSignature
  sessionContext : Option Bytes
  streamId : Option Bytes
  streamSeq : Option Int

def delegationFields : List String :=
  ["version", "cert_id", "issuer_id", "issuer_pub_key", "subject_id", "subject_pub_key", "scope",
    "constraints", "issued_at", "expires_at", "signature"]

def bundleFields : List String :=
  ["version", "verifier_id", "agent_id", "agent_pub_key", "delegations", "delegation_digest",
    "challenge", "challenge_at", "challenge_sig", "session_context", "stream_id", "stream_seq"]

/-- A check on every element in turn, whose failure is labelled with the index. -/
def checkEach {α : Type} (label : String) (check : α → V2Result Unit) :
    Nat → List α → V2Result Unit
  | _, [] => .ok ()
  | i, x :: xs => do
    withContext (check x) s!"{label} {i}"
    checkEach label check (i + 1) xs

theorem checkEach_eq_ok_iff {α : Type} {label : String} {check : α → V2Result Unit} {i : Nat}
    {xs : List α} : checkEach label check i xs = .ok () ↔ ∀ x ∈ xs, check x = .ok () := by
  induction xs generalizing i with
  | nil => simp [checkEach]
  | cons x xs ih =>
    simp only [checkEach, bind_eq_ok_iff, withContext_eq_ok_iff, ih, List.forall_mem_cons]
    constructor
    · rintro ⟨_, hx, hxs⟩
      exact ⟨hx, hxs⟩
    · rintro ⟨hx, hxs⟩
      exact ⟨(), hx, hxs⟩

variable (P : Primitives)

/-! ## Delegation certificate -/

def validateDelegationCertV2 (c : DelegationCertV2) : V2Result Unit := do
  refuseIf (c.version != 2) "version must be 2"
  refuseIf (!validV2Timestamp c.issuedAt || !validV2Timestamp c.expiresAt)
    s!"issued_at and expires_at must be inside 0..{v2MaxTimestampSeconds}"
  refuseIf (c.certId == "" || decide ((utf8 c.certId).length > maxIdentifierLengthBytes))
    "cert_id must be non-empty and within the identifier byte limit"
  refuseIf (!validV2Id c.issuerId || !validV2Id c.subjectId)
    "issuer_id and subject_id must be 64 lowercase hexadecimal characters"
  let issuer ← withContext (keyIdV2 P c.issuerPubKey) "issuer key"
  let subject ← withContext (keyIdV2 P c.subjectPubKey) "subject key"
  if c.issuerId ≠ issuer ∨ c.subjectId ≠ subject then
    err .keyIdMismatch "key ID does not match complete public key"
  else do
    refuseIf (c.scope.any fun s => decide ((utf8 s).length > maxScopeLengthBytes))
      "scope exceeds the protocol byte limit"
    refuseIf (decide (c.scope.length > maxScopesPerCert
        ∨ c.constraints.length > maxConstraintsPerCert))
      "scope or constraint count exceeds protocol bound"
    checkEach "constraint" (fun c => do let _ ← c.toCj) 0 c.constraints

/-- The members of a certificate over the values of its constraints. -/
def certBody (c : DelegationCertV2) (constraints : List CJ) : List (String × CJ) :=
  [("cert_id", .str c.certId), ("constraints", .arr constraints),
    ("expires_at", .int c.expiresAt), ("issued_at", .int c.issuedAt),
    ("issuer_id", .str c.issuerId), ("issuer_pub_key", CJ.key c.issuerPubKey),
    ("scope", CJ.strs c.scope), ("subject_id", .str c.subjectId),
    ("subject_pub_key", CJ.key c.subjectPubKey), ("version", .int c.version)]

def constraintsCj (cs : List ConstraintV2) : V2Result (List CJ) := cs.mapM ConstraintV2.toCj

def certCj (c : DelegationCertV2) (withSignature : Bool) : V2Result CJ := do
  let constraints ← constraintsCj c.constraints
  .ok (.obj (certBody c constraints
    ++ if withSignature then [("signature", CJ.sig c.signature)] else []))

/-- Canonical signable projection of a certificate, all members but `signature`. -/
def delegationCertV2SignableBytes (c : DelegationCertV2) : V2Result Bytes := do
  let v ← certCj c false
  canonical v

/-- One scope of a certificate: a string within the byte limit. -/
def boundedScope (n : JNode) : Bool :=
  match n.v with
  | .str s => decide ((utf8 s).length ≤ maxScopeLengthBytes)
  | _ => false

def validateScopeItems : Nat → List JNode → V2Result Unit
  | _, [] => .ok ()
  | i, n :: items => do
    refuseIf (!boundedScope n) s!"wire v2: scope {i} must be a bounded string"
    validateScopeItems (i + 1) items

def validateV2ScopeArray (node : JNode) : V2Result Unit :=
  match node.v with
  | .arr items => do
    refuseIf (decide (items.length > maxScopesPerCert))
      "wire v2: scope count exceeds protocol bound"
    validateScopeItems 0 items
  | _ => plain "wire v2: scope must be an array of strings"

/-- The elements of an array member, `null` and other values refused. -/
def requireArray (o : Obj) (name : String) : V2Result (List JNode) :=
  match (o.get name).map JNode.v with
  | some (.arr items) => .ok items
  | _ => plain s!"wire v2: {name} must be an array"

/-- Shape checks on a raw certificate before its members are read. -/
def precheckCertNode (node : JNode) : V2Result Unit := do
  let o ← obj node
  o.require delegationFields []
  let constraints ← requireArray o "constraints"
  match o.get "scope" with
  | some scope => validateV2ScopeArray scope
  | none => plain "wire v2: required field \"scope\" is missing"
  checkEach "wire v2 constraint" validateV2ConstraintFields 0 constraints

def certFromNode (node : JNode) : V2Result DelegationCertV2 := do
  let o ← obj node
  o.only delegationFields
  let raw ← o.array "constraints"
  let constraints ← raw.mapM ConstraintV2.fromNode
  let version ← o.i64 "version"
  let certId ← o.str "cert_id"
  let issuerId ← o.str "issuer_id"
  let issuerPubKey ← o.pubKey "issuer_pub_key"
  let subjectId ← o.str "subject_id"
  let subjectPubKey ← o.pubKey "subject_pub_key"
  let scope ← o.strArray "scope"
  let issuedAt ← o.i64 "issued_at"
  let expiresAt ← o.i64 "expires_at"
  let signature ← o.sig "signature"
  .ok { version, certId, issuerId, issuerPubKey, subjectId, subjectPubKey, scope, constraints
        issuedAt, expiresAt, signature }

/-- Strictly decode one delegation certificate. -/
def decodeDelegationCertV2 (data : Bytes) : V2Result DelegationCertV2 :=
  classify .malformed do
    checkV2WireSize data "certificate" "MAX_DELEGATION_CERT_BYTES_V2" maxDelegationCertBytesV2
    let root ← parseWire data [] []
    precheckCertNode root
    let cert ← certFromNode root
    validateDelegationCertV2 P cert
    validateSignatureLengths cert.signature
    .ok cert

/-- Canonical wire bytes of a certificate, decoded once before they are returned. -/
def encodeDelegationCertV2 (c : DelegationCertV2) : V2Result Bytes := do
  validateDelegationCertV2 P c
  validateSignatureLengths c.signature
  let v ← certCj c true
  let encoded ← canonical v
  let _ ← withContext (decodeDelegationCertV2 P encoded) "invalid v2 delegation certificate"
  .ok encoded

/-! ## Proof bundle -/

def optBytesCj (v : Option Bytes) : CJ := v.elim .null .bytes

/-- The members of a challenge presentation: a bundle without `delegations` and
`challenge_sig`. -/
def presentationBody (b : ProofBundleV2) : List (String × CJ) :=
  [("agent_id", .str b.agentId), ("agent_pub_key", CJ.key b.agentPubKey),
    ("challenge", .bytes b.challenge), ("challenge_at", .int b.challengeAt),
    ("delegation_digest", .bytes b.delegationDigest),
    ("session_context", optBytesCj b.sessionContext), ("stream_id", optBytesCj b.streamId),
    ("stream_seq", b.streamSeq.elim .null .int), ("verifier_id", .str b.verifierId),
    ("version", .int b.version)]

/-- The members of a bundle over the values of its certificates. -/
def bundleBody (b : ProofBundleV2) (delegations : List CJ) : List (String × CJ) :=
  presentationBody b
    ++ [("challenge_sig", CJ.sig b.challengeSig), ("delegations", .arr delegations)]

def bundleCj (b : ProofBundleV2) : V2Result CJ := do
  let delegations ← b.delegations.mapM fun c => certCj c true
  .ok (.obj (bundleBody b delegations))

/-- Canonical challenge-presentation signable (code 0x0002). -/
def presentationV2SignableBytes (b : ProofBundleV2) : V2Result Bytes :=
  canonical (.obj (presentationBody b))

/-- `SHA-384("ratify-protocol-delegations-v2\0" || canonical(certs))`. -/
def delegationDigestV2 (certs : List DelegationCertV2) : V2Result Bytes := do
  let values ← certs.mapM fun c => certCj c true
  let canonicalCerts ← canonical (.arr values)
  .ok (sha384 P [utf8 "ratify-protocol-delegations-v2\x00", canonicalCerts])

def bundleHashOfBytes (encoded : Bytes) : String :=
  "sha384:" ++ hexEncode (sha384 P [utf8 "ratify-protocol-bundle-v2\x00", encoded])

/-- A member that is `null` or bytes. -/
def Obj.optBytes (o : Obj) (key : String) : V2Result (Option Bytes) :=
  match o.present key with
  | none => .ok none
  | some n => do
    let s ← asStr n
    let b ← b64Decode s
    .ok (some b)

/-- The members of a bundle, its certificates already read. -/
def bundleFromObj (o : Obj) (delegations : List DelegationCertV2) : V2Result ProofBundleV2 := do
  let version ← o.i64 "version"
  let verifierId ← o.str "verifier_id"
  let agentId ← o.str "agent_id"
  let agentPubKey ← o.pubKey "agent_pub_key"
  let delegationDigest ← o.bytes "delegation_digest"
  let challenge ← o.bytes "challenge"
  let challengeAt ← o.i64 "challenge_at"
  let challengeSig ← o.sig "challenge_sig"
  let sessionContext ← o.optBytes "session_context"
  let streamId ← o.optBytes "stream_id"
  let streamSeq ← o.optI64 "stream_seq"
  .ok { version, verifierId, agentId, agentPubKey, delegations, delegationDigest, challenge
        challengeAt, challengeSig, sessionContext, streamId, streamSeq }

/-- A bound stream has a 32-byte ID and a positive sequence. -/
def streamBindingRefused (streamId : Option Bytes) (streamSeq : Option Int) : Bool :=
  match streamId, streamSeq with
  | some id, some seq => decide (id.length ≠ 32 ∨ seq ≤ 0)
  | _, _ => false

/-- The checks of the decoder on a bundle it has read. -/
def validateDecodedBundle (b : ProofBundleV2) : V2Result Unit := do
  refuseIf (b.version != 2) "wire v2: version must be 2"
  refuseIf (!validV2Id b.verifierId || !validV2Id b.agentId)
    "wire v2: verifier_id and agent_id must be 64 lowercase hexadecimal characters"
  refuseIf (decide (b.delegations.length > maxDelegationChainDepth))
    "wire v2: delegation chain exceeds MAX_DELEGATION_CHAIN_DEPTH"
  refuseIf (decide (b.challenge.length ≠ 32)) "wire v2: challenge must be 32 bytes"
  refuseIf (!validV2Timestamp b.challengeAt)
    s!"wire v2: challenge_at is outside 0..{v2MaxTimestampSeconds}"
  refuseIf (decide (b.delegationDigest.length ≠ 48))
    "wire v2: delegation_digest must be 48 bytes"
  refuseIf (b.sessionContext.any fun s => decide (s.length ≠ 32))
    "wire v2: session_context must be null or 32 bytes"
  refuseIf (b.streamId.isSome != b.streamSeq.isSome)
    "wire v2: stream_id and stream_seq must both be null or both set"
  refuseIf (streamBindingRefused b.streamId b.streamSeq)
    "wire v2: bound stream requires 32-byte stream_id and positive stream_seq"
  validateSignatureLengths b.challengeSig
  checkEach "wire v2 delegation"
    (fun c => do
      validateDelegationCertV2 P c
      validateSignatureLengths c.signature)
    0 b.delegations

/-- Strictly decode a proof bundle. -/
def decodeProofBundleV2 (data : Bytes) : V2Result ProofBundleV2 :=
  classify .malformed do
    checkV2WireSize data "proof bundle" "MAX_PROOF_BUNDLE_BYTES_V2" maxProofBundleBytesV2
    let root ← parseWire data ["delegation_digest"] []
    let o ← obj root
    o.require bundleFields ["session_context", "stream_id", "stream_seq"]
    let rawCerts ← requireArray o "delegations"
    checkEach "wire v2 delegation" precheckCertNode 0 rawCerts
    o.only bundleFields
    let delegations ← rawCerts.mapM certFromNode
    let bundle ← bundleFromObj o delegations
    validateDecodedBundle P bundle
    .ok bundle

/-- Canonical wire bytes of a proof bundle, decoded once before they are returned. -/
def encodeProofBundleV2 (b : ProofBundleV2) : V2Result Bytes := do
  let v ← bundleCj b
  let encoded ← canonical v
  let _ ← withContext (decodeProofBundleV2 P encoded) "invalid v2 proof bundle"
  .ok encoded

/-- `"sha384:" + hex(SHA-384("ratify-protocol-bundle-v2\0" || canonical bundle))`. -/
def bundleHashV2 (b : ProofBundleV2) : V2Result String := do
  let encoded ← encodeProofBundleV2 P b
  .ok (bundleHashOfBytes P encoded)

/-! ## Signatures -/

/-- Verify one certificate's structure, key IDs and issuer signature. -/
def verifyDelegationCertV2Signature (c : DelegationCertV2) : V2Result Unit := do
  classify .malformed (validateDelegationCertV2 P c)
  classify .malformed (validateSignatureLengths c.signature)
  let signable ← classify .malformed (delegationCertV2SignableBytes c)
  verifyV2Statement P .delegationCertificate signable c.signature c.issuerPubKey

/-- Neighbouring links of a chain, leaf first, with the references already seen. -/
def chainLinked (seen : List (String × String)) : Nat → List DelegationCertV2 → V2Result Unit
  | _, [] => .ok ()
  | i, c :: certs =>
    if seen.contains (c.issuerId, c.certId) then
      err .duplicateCertificateRef "duplicate delegation reference"
    else match certs.head? with
      | some parent =>
        if c.issuerId ≠ parent.subjectId
            ∨ equalKeys c.issuerPubKey parent.subjectPubKey = false then
          err .chainLinkageMismatch s!"delegation chain link {i} does not match parent subject"
        else chainLinked ((c.issuerId, c.certId) :: seen) (i + 1) certs
      | none => .ok ()

/-- Bounds, key IDs, digest, duplicates and linkage of a bundle. -/
def verifyProofBundleV2Structure (b : ProofBundleV2) : V2Result Unit :=
  if b.version ≠ 2 then err .malformed "v2 proof bundle version must be 2"
  else if b.delegations.length > maxDelegationChainDepth ∨ b.challenge.length ≠ 32
      ∨ b.delegationDigest.length ≠ 48 then
    err .malformed
      "v2 proof bundle exceeds a chain bound or has an invalid challenge/digest length"
  else if b.streamSeq.any fun s => decide (s > maxSafe) then
    err .malformed "v2 stream sequence exceeds the safe integer range"
  else if b.sessionContext.any fun s => decide (s.length ≠ 32) then
    err .malformed "v2 session_context must be null or 32 bytes"
  else if b.streamId.isSome != b.streamSeq.isSome
      || streamBindingRefused b.streamId b.streamSeq then
    err .malformed
      "v2 stream_id and stream_seq must both be null or a 32-byte ID and positive sequence"
  else if !validV2Id b.agentId || !validV2Id b.verifierId then
    err .malformed "v2 verifier and agent IDs must be canonical"
  else do
    let agentId ← classify .malformed (keyIdV2 P b.agentPubKey)
    if agentId ≠ b.agentId then
      err .keyIdMismatch "agent_id does not match agent_pub_key"
    else do
      checkEach "delegation" (fun c => classify .malformed (validateDelegationCertV2 P c)) 0
        b.delegations
      let digest ← classify .malformed (delegationDigestV2 P b.delegations)
      if digest ≠ b.delegationDigest then
        err .delegationDigestMismatch "delegation_digest mismatch"
      else do
        chainLinked [] 0 b.delegations
        match b.delegations.head? with
        | some leaf =>
          if leaf.subjectId ≠ b.agentId
              ∨ equalKeys leaf.subjectPubKey b.agentPubKey = false then
            err .chainLinkageMismatch "agent key does not match leaf delegation subject"
          else .ok ()
        | none => .ok ()

/-- Every certificate signature under its own issuer key. -/
def verifyCertSignatures : Nat → List DelegationCertV2 → V2Result Unit
  | _, [] => .ok ()
  | i, c :: certs => do
    let signable ← classify .malformed (delegationCertV2SignableBytes c)
    withContext (verifyV2Statement P .delegationCertificate signable c.signature c.issuerPubKey)
      s!"delegation {i} signature"
    verifyCertSignatures (i + 1) certs

/-- Structure first, then every certificate signature and the challenge signature. -/
def verifyProofBundleV2Signatures (b : ProofBundleV2) : V2Result Unit := do
  verifyProofBundleV2Structure P b
  verifyCertSignatures P 0 b.delegations
  let signable ← classify .malformed (presentationV2SignableBytes b)
  verifyV2Statement P .challengePresentation signable b.challengeSig b.agentPubKey

end RatifyProtocol.V2
