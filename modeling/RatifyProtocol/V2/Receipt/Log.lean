import RatifyProtocol.V2.Receipt.Codec
import RatifyProtocol.V2.Signer
set_option autoImplicit false

/-!
# Receipts: log binding, digest and signing

`v2/receipt.rs`: a prepared body is bound to the next position of a log head and
signed; with `validate_head` of `v2/witness.rs` and the receipt case of
`statement_body_digest_v2` of `v2/rotation.rs`.
-/

namespace RatifyProtocol.V2

open Foundation

/-! ## Log binding -/

/-- Caller-authenticated receipt-log state before a candidate receipt. -/
structure ReceiptV2Head where
  logId : String
  verifierId : String
  sequence : Int
  headHash : Bytes
  acceptedDigests : List (Int × Bytes)
  frozen : Bool
  deriving DecidableEq, Repr

/-- `validate_head`: the accepted digests cover exactly `1 .. sequence`. -/
def validateHead (logId : String) (sequence : Int) (headHash : Bytes)
    (accepted : List (Int × Bytes)) : V2Result Unit :=
  if (utf8 logId).length ≠ 32 || !lowerHex logId || !(0 ≤ sequence && sequence ≤ maxSafe)
      || headHash.length ≠ 48 then
    err .configurationInvalid "caller log head is invalid"
  else
    let zero := headHash.all (· == 0)
    if (sequence == 0 && (!zero || !accepted.isEmpty)) || (decide (sequence > 0) && zero) then
      err .configurationInvalid "caller log head has inconsistent genesis state"
    else if decide (sequence > 0) && (accepted.length : Int) != sequence then
      err .configurationInvalid "caller log head is missing accepted sequence digests"
    else if decide (sequence > 0) && accepted.lookup sequence != some headHash then
      err .configurationInvalid
        "caller log head hash does not match its accepted digest history"
    else if accepted.any fun d =>
        decide (d.1 ≤ 0) || decide (d.1 > sequence) || d.2.length != 48 then
      err .configurationInvalid "caller log head contains invalid accepted digest history"
    else .ok ()

def validateReceiptHead (head : ReceiptV2Head) : V2Result Unit :=
  if !validV2Id head.verifierId then
    err .configurationInvalid "caller receipt head is invalid"
  else validateHead head.logId head.sequence head.headHash head.acceptedDigests

/-- Assign the next position in a caller-authenticated receipt log. -/
def bindVerificationReceiptBodyV2 (data : Bytes) (head : ReceiptV2Head) :
    V2Result VerificationReceiptV2 := do
  validateReceiptHead head
  refuseIf (head.frozen || head.sequence == maxSafe)
    "wire v2: receipt log cannot accept another entry"
  let r ← decodeVerificationReceiptBodyV2 data
  refuseIf (r.verifierId != head.verifierId)
    "wire v2: prepared receipt verifier differs from authenticated log"
  let r : VerificationReceiptV2 :=
    { r with
      logId := head.logId, sequence := head.sequence + 1, previousReceiptHash := head.headHash }
  validateReceipt r false
  .ok r

/-! ## Digest and signing -/

variable (P : Primitives)

/-- The first signature member of a parsed object. -/
def signatureMember (root : JNode) : Option String :=
  match root.v with
  | .obj fields => ["signature", "old_signature", "new_signature"].find? fun f =>
      fields.any fun m => m.1 == f
  | _ => none

/-- `statement_body_digest_v2(0x0008, signable body)`. -/
def receiptBodyDigestV2 (signableBody : Bytes) : V2Result Bytes := do
  let root ← withContext (parseWire signableBody ["previous_receipt_hash"] ["bundle_hash"])
    "signable body"
  match signatureMember root with
  | some f => plain s!"signable body must exclude {debugQuote f}"
  | none => .ok ()
  refuseIf (canonicalNode root != signableBody) "signable body must use RatifyCanonicalJSON"
  validateReceiptSignableBody signableBody
  .ok (P.sha384 (utf8 "ratify-protocol-statement-body-v2\x00" ++ u16BeBytes 8 ++ signableBody))

def verificationReceiptV2Digest (r : VerificationReceiptV2) : V2Result Bytes := do
  validateReceipt r false
  let signable ← canonical (receiptCj r .signable)
  receiptBodyDigestV2 P signable

/-- Sign a receipt under its verifier key. -/
def signVerificationReceiptV2WithSigner (r : VerificationReceiptV2) (signer : SignerV2) :
    V2SignResult VerificationReceiptV2 := do
  liftObject (classify .malformed (validateReceipt r false))
  match keyIdV2 P signer.publicKey with
  | .error e => .error (.invalidSignerKey ("v2 signer public key: " ++ e.message))
  | .ok id =>
    if id ≠ r.verifierId then
      .error (.keyBinding "receipt verifier_id does not match signing key")
    else do
      let body ← liftObject (classify .malformed (verificationReceiptV2SignableBytes r))
      let signature ← signV2StatementWithSigner P .verificationReceipt body signer
      let out := { r with signature }
      let _ ← liftObject (classify .malformed (encodeVerificationReceiptV2 out))
      .ok out

/-- Bind and sign an exact prepared body. -/
def signPreparedVerificationReceiptV2WithSigner (data : Bytes) (head : ReceiptV2Head)
    (signer : SignerV2) : V2SignResult VerificationReceiptV2 := do
  let bound ← liftObject (bindVerificationReceiptBodyV2 data head)
  let signed ← signVerificationReceiptV2WithSigner P bound signer
  match verificationReceiptV2Body signed with
  | .ok b =>
    if b = data then .ok signed
    else .error (.invalidObject (V2Error.new .malformed
      "wire v2: signed receipt differs from prepared body"))
  | .error _ => .error (.invalidObject (V2Error.new .malformed
      "wire v2: signed receipt differs from prepared body"))

end RatifyProtocol.V2
