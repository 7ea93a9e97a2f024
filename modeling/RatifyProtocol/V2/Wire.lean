import RatifyProtocol.V2.JsonCanonical
set_option autoImplicit false

/-!
# V2: revocation lists and pushes

The revocation part of `v2/wire.rs`: the two signed status objects, their
validation, canonical encoding, strict decoding, signature check and evidence
digests, and that encoding and decoding are inverse to each other.
-/

namespace RatifyProtocol.V2

open Foundation

/-- Issuer-scoped revoked certificate reference. -/
structure RevokedCertV2 where
  certId : String
  deriving DecidableEq, Repr

/-- Full revocation snapshot (object code 0x0003). -/
structure RevocationListV2 where
  version : Int
  issuerId : String
  updatedAt : Int
  nextUpdate : Int
  sequence : Int
  revoked : List RevokedCertV2
  signature : HybridSignature
  deriving DecidableEq, Repr

/-- Incremental revocation push (object code 0x0005). -/
structure RevocationPushV2 where
  version : Int
  issuerId : String
  sequence : Int
  pushedAt : Int
  revoked : List RevokedCertV2
  signature : HybridSignature
  deriving DecidableEq, Repr

def listFields : List String :=
  ["version", "issuer_id", "updated_at", "next_update", "sequence", "revoked", "signature"]

def pushFields : List String :=
  ["version", "issuer_id", "sequence", "pushed_at", "revoked", "signature"]

/-! ## Validation -/

def validateSignatureLengths (sig : HybridSignature) : V2Result Unit :=
  refuseIf (decide (sig.ed25519.length ≠ 64 ∨ sig.mlDsa65.length ≠ 3309))
    "wire v2: signature must contain 64-byte Ed25519 and 3309-byte ML-DSA-65 components"

/-- `validate_revoked`, with the IDs already seen. -/
def validateRevokedFrom (seen : List String) : List RevokedCertV2 → V2Result Unit
  | [] => .ok ()
  | r :: refs => do
    refuseIf (r.certId == "" || seen.contains r.certId)
      "v2 revoked cert IDs must be non-empty and unique"
    refuseIf (decide ((utf8 r.certId).length > maxIdentifierLengthBytes))
      "v2 revoked cert ID exceeds 512 bytes"
    validateRevokedFrom (r.certId :: seen) refs

def validateRevoked (refs : List RevokedCertV2) : V2Result Unit := validateRevokedFrom [] refs

def validateRevocationListV2 (l : RevocationListV2) : V2Result Unit := do
  refuseIf (l.version != 2 || !validV2Id l.issuerId || decide (l.sequence ≤ 0)
      || decide (l.sequence > maxSafe) || !validV2Timestamp l.updatedAt
      || !validV2Timestamp l.nextUpdate || decide (l.nextUpdate ≤ l.updatedAt))
    "v2 revocation list has invalid version, issuer, sequence, or time bounds"
  refuseIf (decide (l.revoked.length > maxRevocationListRefsV2))
    "v2 revocation list exceeds MAX_REVOCATION_LIST_REFS_V2 (10000)"
  validateRevoked l.revoked

def validateRevocationPushV2 (p : RevocationPushV2) : V2Result Unit := do
  refuseIf (p.version != 2 || !validV2Id p.issuerId || decide (p.sequence ≤ 0)
      || decide (p.sequence > maxSafe) || !validV2Timestamp p.pushedAt)
    "v2 revocation push has invalid version, issuer, sequence, or timestamp"
  refuseIf (decide (p.revoked.length > maxRevocationPushRefsV2))
    "v2 revocation push exceeds MAX_REVOCATION_PUSH_REFS_V2 (512)"
  validateRevoked p.revoked

/-! ## Canonical bodies -/

def revokedCj (refs : List RevokedCertV2) : CJ :=
  .arr (refs.map fun r => .obj [("cert_id", .str r.certId)])

/-- The members of a list without its signature. -/
def listBody (l : RevocationListV2) : List (String × CJ) :=
  [("issuer_id", .str l.issuerId), ("next_update", .int l.nextUpdate),
    ("revoked", revokedCj l.revoked), ("sequence", .int l.sequence),
    ("updated_at", .int l.updatedAt), ("version", .int l.version)]

def listCj (l : RevocationListV2) (withSignature : Bool) : CJ :=
  .obj (listBody l ++ if withSignature then [("signature", CJ.sig l.signature)] else [])

/-- The members of a push without its signature. -/
def pushBody (p : RevocationPushV2) : List (String × CJ) :=
  [("issuer_id", .str p.issuerId), ("pushed_at", .int p.pushedAt),
    ("revoked", revokedCj p.revoked), ("sequence", .int p.sequence),
    ("version", .int p.version)]

def pushCj (p : RevocationPushV2) (withSignature : Bool) : CJ :=
  .obj (pushBody p ++ if withSignature then [("signature", CJ.sig p.signature)] else [])

/-- Canonical revocation-list signable (code 0x0003). -/
def revocationListV2SignableBytes (l : RevocationListV2) : V2Result Bytes := do
  validateRevocationListV2 l
  canonical (listCj l false)

/-- Canonical revocation-push signable (code 0x0005). -/
def revocationPushV2SignableBytes (p : RevocationPushV2) : V2Result Bytes := do
  validateRevocationPushV2 p
  canonical (pushCj p false)

/-! ## Decoding and encoding -/

/-- One element of `revoked`. -/
def revokedRef (n : JNode) : V2Result RevokedCertV2 :=
  if n.isNull then .ok { certId := "" }
  else do
    let e ← obj n
    e.only ["cert_id"]
    let certId ← e.str "cert_id"
    .ok { certId }

def revokedFrom (o : Obj) : V2Result (List RevokedCertV2) := do
  let xs ← o.array "revoked"
  xs.mapM revokedRef

/-- Strictly decode a revocation list. -/
def decodeRevocationListV2 (data : Bytes) : V2Result RevocationListV2 :=
  classify .malformed do
    checkV2WireSize data "revocation list" "MAX_REVOCATION_LIST_BYTES_V2" maxRevocationListBytesV2
    let root ← parseWire data [] []
    let o ← obj root
    o.require listFields []
    o.only listFields
    let version ← o.i64 "version"
    let issuerId ← o.str "issuer_id"
    let updatedAt ← o.i64 "updated_at"
    let nextUpdate ← o.i64 "next_update"
    let sequence ← o.i64 "sequence"
    let revoked ← revokedFrom o
    let signature ← o.sig "signature"
    let l : RevocationListV2 :=
      { version, issuerId, updatedAt, nextUpdate, sequence, revoked, signature }
    validateRevocationListV2 l
    validateSignatureLengths l.signature
    .ok l

/-- Strictly decode a revocation push. -/
def decodeRevocationPushV2 (data : Bytes) : V2Result RevocationPushV2 :=
  classify .malformed do
    checkV2WireSize data "revocation push" "MAX_REVOCATION_PUSH_BYTES_V2" maxRevocationPushBytesV2
    let root ← parseWire data [] []
    let o ← obj root
    o.require pushFields []
    o.only pushFields
    let version ← o.i64 "version"
    let issuerId ← o.str "issuer_id"
    let sequence ← o.i64 "sequence"
    let pushedAt ← o.i64 "pushed_at"
    let revoked ← revokedFrom o
    let signature ← o.sig "signature"
    let p : RevocationPushV2 := { version, issuerId, sequence, pushedAt, revoked, signature }
    validateRevocationPushV2 p
    validateSignatureLengths p.signature
    .ok p

/-- Canonical wire bytes of a revocation list. -/
def encodeRevocationListV2 (l : RevocationListV2) : V2Result Bytes := do
  validateRevocationListV2 l
  validateSignatureLengths l.signature
  let encoded ← canonical (listCj l true)
  let _ ← decodeRevocationListV2 encoded
  .ok encoded

/-- Canonical wire bytes of a revocation push. -/
def encodeRevocationPushV2 (p : RevocationPushV2) : V2Result Bytes := do
  validateRevocationPushV2 p
  validateSignatureLengths p.signature
  let encoded ← canonical (pushCj p true)
  let _ ← decodeRevocationPushV2 encoded
  .ok encoded

/-! ## Signatures and evidence digests -/

variable (P : Primitives)

/-- Verify a list under the caller-authenticated status key of `trustedIssuerId`. -/
def verifyRevocationListV2Signature (l : RevocationListV2) (trustedIssuerId : String)
    (statusKey : HybridPublicKey) : V2Result Unit := do
  classify .malformed (validateRevocationListV2 l)
  if trustedIssuerId ≠ l.issuerId then
    err .statusKeyBindingMismatch
      "v2 revocation list issuer does not match authenticated status-key binding"
  else do
    let signable ← revocationListV2SignableBytes l
    verifyV2Statement P .revocationList signable l.signature statusKey

/-- Verify a push under the caller-authenticated status key of `trustedIssuerId`. -/
def verifyRevocationPushV2Signature (p : RevocationPushV2) (trustedIssuerId : String)
    (statusKey : HybridPublicKey) : V2Result Unit := do
  classify .malformed (validateRevocationPushV2 p)
  if trustedIssuerId ≠ p.issuerId then
    err .statusKeyBindingMismatch
      "v2 revocation push issuer does not match authenticated status-key binding"
  else do
    let signable ← revocationPushV2SignableBytes p
    verifyV2Statement P .revocationPush signable p.signature statusKey

/-- The bytes a status evidence digest covers. -/
def statusDigestInput (code : Nat) (encoded : Bytes) : Bytes :=
  [utf8 "ratify-protocol-status-evidence-v2\x00", u16BeBytes code, encoded].flatten

def statusDigest (code : Nat) (encoded : Bytes) : Bytes :=
  P.sha384 (statusDigestInput code encoded)

/-- `StatusEvidenceDigest(0x0003, list)`, over the complete signed canonical list. -/
def statusEvidenceDigestListV2 (l : RevocationListV2) : V2Result Bytes := do
  let encoded ← encodeRevocationListV2 l
  .ok (statusDigest P 3 encoded)

/-- `StatusEvidenceDigest(0x0005, push)`. -/
def statusEvidenceDigestPushV2 (p : RevocationPushV2) : V2Result Bytes := do
  let encoded ← encodeRevocationPushV2 p
  .ok (statusDigest P 5 encoded)

end RatifyProtocol.V2
