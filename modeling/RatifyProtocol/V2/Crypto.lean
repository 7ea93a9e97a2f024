import RatifyProtocol.V2.Limits
set_option autoImplicit false

/-!
# V2: digests, key identifiers and signature transcripts

`v2/crypto.rs`.  The hash functions and the two signature schemes are third
party code; they enter as one parameter that carries the digest lengths.
-/

namespace RatifyProtocol.V2

open Foundation

/-- A hybrid public key. -/
structure HybridPublicKey where
  ed25519 : Bytes
  mlDsa65 : Bytes
  deriving DecidableEq, Repr

/-- A hybrid signature pair over the same canonical bytes. -/
structure HybridSignature where
  ed25519 : Bytes
  mlDsa65 : Bytes
  deriving DecidableEq, Repr

/-- The third-party cryptography: SHA-2, the Ed25519 point and signature
operations, and ML-DSA-65. -/
structure Primitives where
  sha256 : Bytes → Bytes
  sha384 : Bytes → Bytes
  /-- The encoding decompresses to a curve point. -/
  edPointOnCurve : Bytes → Bool
  /-- The point re-encodes to itself, is not the identity and has no torsion. -/
  edPointPrimeOrder : Bytes → Bool
  edKeyParses : Bytes → Bool
  edSignatureParses : Bytes → Bool
  /-- Key, message, signature. -/
  edVerifyStrict : Bytes → Bytes → Bytes → Bool
  mlKeyParses : Bytes → Bool
  /-- Key, message, signature, context. -/
  mlVerify : Bytes → Bytes → Bytes → Bytes → Bool
  length_sha256 : ∀ b, (sha256 b).length = 32
  length_sha384 : ∀ b, (sha384 b).length = 48

variable (P : Primitives)

/-! ## Object registry -/

/-- The signed-object registry. -/
inductive V2ObjectType where
  | delegationCertificate
  | challengePresentation
  | revocationList
  | keyRotationAuthorization
  | revocationPush
  | witnessEntry
  | transactionPartyStatement
  | verificationReceipt
  | keyRotationProofOfPossession
  deriving DecidableEq, Repr

def V2ObjectType.code : V2ObjectType → Nat
  | .delegationCertificate => 1
  | .challengePresentation => 2
  | .revocationList => 3
  | .keyRotationAuthorization => 4
  | .revocationPush => 5
  | .witnessEntry => 6
  | .transactionPartyStatement => 7
  | .verificationReceipt => 8
  | .keyRotationProofOfPossession => 9

/-- `u16::to_be_bytes`. -/
def u16BeBytes (n : Nat) : Bytes := [UInt8.ofNat (n / 256), UInt8.ofNat (n % 256)]

/-! ## Digests and key identifiers -/

/-- `sha384(parts)`: the digest of the concatenation. -/
def sha384 (parts : List Bytes) : Bytes := P.sha384 parts.flatten

@[simp] theorem length_sha384 (parts : List Bytes) : (sha384 P parts).length = 48 :=
  P.length_sha384 _

def mlDsaPkLen : Nat := 1952
def mlDsaSigLen : Nat := 3309

/-- Full 256-bit key ID: `hex(SHA-256("ratify-key-id-v2\0" || ed25519 || ml_dsa_65))`. -/
def keyIdV2 (key : HybridPublicKey) : V2Result String :=
  if key.ed25519.length ≠ 32 then
    err .malformed s!"Ed25519 public key wrong length: {key.ed25519.length}"
  else if key.mlDsa65.length ≠ mlDsaPkLen then
    err .malformed s!"ML-DSA-65 public key wrong length: {key.mlDsa65.length}"
  else
    .ok (hexEncode (P.sha256 (utf8 "ratify-key-id-v2\x00" ++ key.ed25519 ++ key.mlDsa65)))

/-- `key_id_v2` with its length errors left unclassified. -/
def keyIdPlain (key : HybridPublicKey) : V2Result String :=
  (keyIdV2 P key).mapError fun e => V2Error.plain e.message

def equalKeys (a b : HybridPublicKey) : Bool :=
  a.ed25519 == b.ed25519 && a.mlDsa65 == b.mlDsa65

theorem equalKeys_iff {a b : HybridPublicKey} : equalKeys a b = true ↔ a = b := by
  cases a
  cases b
  simp [equalKeys]

/-- Every byte is a lowercase hexadecimal digit. -/
def lowerHex (value : String) : Bool :=
  (utf8 value).all fun b => (48 ≤ b && b ≤ 57) || (97 ≤ b && b ≤ 102)

/-- 64 lowercase hexadecimal characters. -/
def validV2Id (id : String) : Bool := (utf8 id).length == 64 && lowerHex id

theorem validV2Id_ne_empty {id : String} (h : validV2Id id = true) : id ≠ "" := by
  rintro rfl
  revert h
  decide

theorem keyIdPlain_eq_ok_iff {key : HybridPublicKey} {id : String} :
    keyIdPlain P key = .ok id ↔ keyIdV2 P key = .ok id := by
  unfold keyIdPlain
  cases keyIdV2 P key <;> simp [Except.mapError]

/-- A key ID is always 64 lowercase hexadecimal characters. -/
theorem validV2Id_of_keyIdV2 {key : HybridPublicKey} {id : String}
    (h : keyIdV2 P key = .ok id) : validV2Id id = true := by
  simp only [keyIdV2] at h
  split at h
  · simp at h
  split at h
  · simp at h
  obtain rfl := Except.ok.inj h
  simp only [validV2Id, lowerHex, Bool.and_eq_true, beq_iff_eq, List.all_eq_true]
  refine ⟨?_, fun x hx => ?_⟩
  · rw [length_utf8_hexEncode, P.length_sha256]
  · simpa using mem_utf8_hexEncode hx

/-! ## Statement verification -/

/-- `"ratify-protocol-signature" || 0x00 || 0x02`. -/
def signaturePrefix : Bytes := utf8 "ratify-protocol-signature\x00\x02"

/-- `M = "ratify-protocol-signature\0\x02" || code_be16 || SHA-384(signable)`. -/
def v2SigningMessage (objectType : V2ObjectType) (signable : Bytes) : Bytes :=
  signaturePrefix ++ u16BeBytes objectType.code ++ P.sha384 signable

/-- ML-DSA-65 context string `"ratify-protocol/2/XXXX"`. -/
def v2MldsaContext (objectType : V2ObjectType) : Bytes :=
  utf8 ("ratify-protocol/2/" ++ hexEncode (u16BeBytes objectType.code))

/-- The Ed25519 field modulus, little endian. -/
def fieldModulusLe : Bytes := 0xed :: List.replicate 30 0xff ++ [0x7f]

/-- The Ed25519 group order, little endian. -/
def ed25519OrderLe : Bytes :=
  [0xed, 0xd3, 0xf5, 0x5c, 0x1a, 0x63, 0x12, 0x58, 0xd6, 0x9c, 0xf7, 0xa2, 0xde, 0xf9, 0xde,
    0x14] ++ List.replicate 15 0 ++ [0x10]

/-- Compare two little-endian numbers of one length, most significant byte first. -/
def littleEndianGe (left right : Bytes) : Bool := !decide (left.reverse < right.reverse)

/-- `validate_ed_public_key`: canonical, non-identity, prime-order encodings only. -/
def validateEdPublicKey (encoded : Bytes) : Except String Unit :=
  if encoded.length ≠ 32 then .error "v2 Ed25519 public key must be 32 bytes"
  else if littleEndianGe (encoded.modifyLast (· &&& 0x7f)) fieldModulusLe then
    .error "v2 Ed25519 point encoding is non-canonical"
  else if !P.edPointOnCurve encoded then .error "v2 Ed25519 point is not on curve"
  else if !P.edPointPrimeOrder encoded then
    .error "v2 Ed25519 point must be canonical, non-identity, and prime-order"
  else .ok ()

/-- `validate_ed_signature`: a valid `R` point and a reduced scalar `S`. -/
def validateEdSignature (encoded : Bytes) : Except String Unit :=
  if encoded.length ≠ 64 then .error "v2 Ed25519 signature must be 64 bytes"
  else match validateEdPublicKey P (encoded.take 32) with
    | .error _ => .error "v2 Ed25519 R point is invalid"
    | .ok () =>
      if littleEndianGe (encoded.drop 32) ed25519OrderLe then
        .error "v2 Ed25519 scalar S is non-canonical"
      else .ok ()

/-- `verify_message_unclassified`: both components over the exact transcript. -/
def verifyMessageUnclassified (objectType : V2ObjectType) (message : Bytes)
    (signature : HybridSignature) (publicKey : HybridPublicKey) : Except String Unit :=
  if message.length ≠ 77 || !signaturePrefix.isPrefixOf message
      || (message.drop signaturePrefix.length).take 2 != u16BeBytes objectType.code then
    .error "message is not the v2 signing transcript for this object type"
  else if publicKey.ed25519.length ≠ 32 || publicKey.mlDsa65.length ≠ mlDsaPkLen then
    .error "hybrid public key has invalid component length"
  else if signature.ed25519.length ≠ 64 || signature.mlDsa65.length ≠ mlDsaSigLen then
    .error "hybrid signature has invalid component length"
  else do
    validateEdPublicKey P publicKey.ed25519
    validateEdSignature P signature.ed25519
    if !P.edKeyParses publicKey.ed25519 then .error "Ed25519 v2 public key malformed"
    else if !P.edSignatureParses signature.ed25519 then
      .error "Ed25519 v2 signature malformed"
    else if !P.edVerifyStrict publicKey.ed25519 message signature.ed25519 then
      .error "Ed25519 v2 signature invalid"
    else if !P.mlKeyParses publicKey.mlDsa65 then .error "ML-DSA-65 public key malformed"
    else if !P.mlVerify publicKey.mlDsa65 message signature.mlDsa65
        (v2MldsaContext objectType) then
      .error "ML-DSA-65 v2 signature invalid"
    else .ok ()

/-- Strict verification of both components under a registered code. -/
def verifyV2Statement (objectType : V2ObjectType) (signable : Bytes)
    (signature : HybridSignature) (publicKey : HybridPublicKey) : V2Result Unit :=
  (verifyMessageUnclassified P objectType (v2SigningMessage P objectType signable)
    signature publicKey).mapError fun m => V2Error.new .invalidSignature m

/-- An accepted statement's signature has the registered component lengths. -/
theorem signature_lengths_of_verifyV2Statement {objectType : V2ObjectType} {signable : Bytes}
    {signature : HybridSignature} {publicKey : HybridPublicKey}
    (h : verifyV2Statement P objectType signable signature publicKey = .ok ()) :
    signature.ed25519.length = 64 ∧ signature.mlDsa65.length = mlDsaSigLen := by
  unfold verifyV2Statement verifyMessageUnclassified at h
  split at h
  · simp [Except.mapError] at h
  split at h
  · simp [Except.mapError] at h
  split at h
  · simp [Except.mapError] at h
  · rename_i hlen
    simpa using hlen

/-- An accepted statement was verified under a key of the registered lengths. -/
theorem key_lengths_of_verifyV2Statement {objectType : V2ObjectType} {signable : Bytes}
    {signature : HybridSignature} {publicKey : HybridPublicKey}
    (h : verifyV2Statement P objectType signable signature publicKey = .ok ()) :
    publicKey.ed25519.length = 32 ∧ publicKey.mlDsa65.length = mlDsaPkLen := by
  unfold verifyV2Statement verifyMessageUnclassified at h
  split at h
  · simp [Except.mapError] at h
  split at h
  · simp [Except.mapError] at h
  · rename_i hlen
    simpa using hlen

end RatifyProtocol.V2
