import RatifyProtocol.V2.JsonSpelling
import RatifyProtocol.V2.Status.Objects
set_option autoImplicit false

/-!
# Status: the wire form of an evidence batch

`v2/status_batch.rs` and the admission of a batch in `v2/status_provenance.rs`.  A
batch is a JSON array of entries with two members, the signed object and its type
code.  The encoder writes each object canonically; the decoder keeps the bytes each
object was received as.
-/

namespace RatifyProtocol.V2

open Foundation

def maxStatusEvidenceBatchBytesV2 : Nat := 8388608
def maxStatusEvidenceBatchObjectsV2 : Nat := 64

/-- One signed status object exactly as received. -/
structure V2StatusEvidenceObject where
  objectType : Nat
  wire : Bytes
  deriving DecidableEq, Repr

/-- What a status provider returns. -/
structure V2StatusEvidenceBatch where
  objects : List V2StatusEvidenceObject
  deriving DecidableEq, Repr

/-! ## Encoding -/

/-- The canonical bytes of an object under its code. -/
def V2StatusEvidenceObject.canonical (object : V2StatusEvidenceObject) : V2Result Bytes :=
  classify .malformed <|
    if object.objectType = LIST then
      decodeRevocationListV2 object.wire >>= encodeRevocationListV2
    else if object.objectType = PUSH then
      decodeRevocationPushV2 object.wire >>= encodeRevocationPushV2
    else
      plain s!"v2 status batch object type 0x{hexEncode (u16BeBytes object.objectType)} is not 3 or 5"

/-- The entries after the first `i`, appended to `buf`. -/
def encodeStatusEntries : Nat → Bytes → List V2StatusEvidenceObject → V2Result Bytes
  | _, buf, [] => .ok buf
  | i, buf, object :: objects => do
    let canonical ← object.canonical
    let buf := if i > 0 then buf ++ utf8 "," else buf
    encodeStatusEntries (i + 1) (buf ++ utf8 "\x7b\"object\":" ++ canonical
      ++ utf8 ",\"object_type_code\":" ++ utf8 (toString object.objectType) ++ utf8 "\x7d") objects

/-- The canonical JSON encoding of `batch`. -/
def encodeV2StatusEvidenceBatch (batch : V2StatusEvidenceBatch) : V2Result Bytes :=
  if batch.objects.length > maxStatusEvidenceBatchObjectsV2 then
    err .malformed s!"v2 status batch exceeds {maxStatusEvidenceBatchObjectsV2} objects"
  else do
    let buf ← encodeStatusEntries 0 (utf8 "[") batch.objects
    let buf := buf ++ utf8 "]"
    if buf.length > maxStatusEvidenceBatchBytesV2 then
      err .malformed s!"v2 status batch exceeds {maxStatusEvidenceBatchBytesV2} bytes"
    else .ok buf

/-! ## Decoding -/

/-- The type code of an entry. -/
def statusObjectTypeCode (code : JNode) : V2Result Nat :=
  match code.v with
  | .num t =>
    if t = "3" then .ok LIST
    else if t = "5" then .ok PUSH
    else plain "wire v2: status evidence object_type_code must be 3 or 5"
  | _ => plain "wire v2: status evidence object_type_code must be 3 or 5"

/-- One entry of a batch, its object kept as received. -/
def decodeStatusEntry (data : Bytes) (entry : Obj) : V2Result V2StatusEvidenceObject :=
  match Obj.get entry "object_type_code", Obj.get entry "object" with
  | some code, some object => do
    refuseIf (entry.length != 2)
      "wire v2: status evidence entry must have exactly object and object_type_code"
    let objectType ← statusObjectTypeCode code
    match object.v with
    | .obj _ =>
      if object.start ≤ object.stop ∧ object.stop ≤ data.length then
        .ok { objectType, wire := spanned data object }
      else plain "wire v2: status evidence object span"
    | _ => plain "wire v2: status evidence object must be a JSON object"
  | _, _ => plain "wire v2: status evidence entry must have exactly object and object_type_code"

/-- The members of one entry, before they are looked at. -/
def statusEntryView (entry : JNode) : V2Result Obj :=
  match obj entry with
  | .ok o => .ok o
  | .error _ => plain "wire v2: status evidence batch must be a JSON array of objects"

/-- Strictly decode a status evidence batch. -/
def decodeV2StatusEvidenceBatch (data : Bytes) : V2Result V2StatusEvidenceBatch :=
  classify .malformed do
    checkV2WireSize data "status evidence batch" "MAX_STATUS_EVIDENCE_BATCH_BYTES_V2"
      maxStatusEvidenceBatchBytesV2
    let root ← parseJson data
    match root.v with
    | .arr entries => do
      let views ← entries.mapM statusEntryView
      refuseIf (decide (views.length > maxStatusEvidenceBatchObjectsV2))
        s!"wire v2: status evidence batch exceeds {maxStatusEvidenceBatchObjectsV2} objects"
      let objects ← views.mapM (decodeStatusEntry data)
      .ok { objects }
    | _ => plain "wire v2: status evidence batch must be a JSON array of objects"

/-! ## The length of the wire form -/

/-- The largest `usize`. -/
def usizeMax : Nat := 2 ^ 64 - 1

/-- `a.saturating_add(b)`. -/
def saturatingAdd (a b : Nat) : Nat := min (a + b) usizeMax

/-- `total` with the entries after the first `i`. -/
def addStatusEntryLengths : Nat → Nat → List V2StatusEvidenceObject → Nat
  | _, total, [] => total
  | i, total, object :: objects =>
    let total := if i > 0 then saturatingAdd total 1 else total
    let total := saturatingAdd total (utf8 "\x7b\"object\":").length
    let total := saturatingAdd total object.wire.length
    let total := saturatingAdd total (utf8 ",\"object_type_code\":").length
    let total := saturatingAdd total (utf8 (toString object.objectType)).length
    addStatusEntryLengths (i + 1) (saturatingAdd total 1) objects

/-- The length of the wire form that carries each object as received. -/
def v2StatusEvidenceBatchEncodedLength (batch : V2StatusEvidenceBatch) : Nat :=
  addStatusEntryLengths 0 2 batch.objects

/-! ## Admission -/

/-- An object that was decoded and authenticated. -/
structure V2VerifiedStatusObject where
  code : Nat
  sequence : Int
  digest : Bytes
  payload : StatusObject
  deriving DecidableEq, Repr

/-- `(a.sequence, a.code, &a.digest) <= (b.sequence, b.code, &b.digest)`. -/
def V2VerifiedStatusObject.le (a b : V2VerifiedStatusObject) : Bool :=
  if a.sequence ≠ b.sequence then decide (a.sequence < b.sequence)
  else if a.code ≠ b.code then decide (a.code < b.code)
  else decide (a.digest ≤ b.digest)

section Verify

variable (P : Primitives) (issuerId : String) (key : HybridPublicKey)

/-- Decode and authenticate one object under its code. -/
def verifyStatusEvidenceObject (object : V2StatusEvidenceObject) :
    V2Result V2VerifiedStatusObject :=
  if object.objectType = LIST then do
    let list ← decodeRevocationListV2 object.wire
    verifyRevocationListV2Signature P list issuerId key
    let digest ← statusEvidenceDigestListV2 P list
    .ok { code := LIST, sequence := list.sequence, digest, payload := .list list }
  else if object.objectType = PUSH then do
    let push ← decodeRevocationPushV2 object.wire
    verifyRevocationPushV2Signature P push issuerId key
    let digest ← statusEvidenceDigestPushV2 P push
    .ok { code := PUSH, sequence := push.sequence, digest, payload := .push push }
  else
    plain s!"v2 status batch contains unsupported object type 0x{hexEncode (u16BeBytes object.objectType)}"

/-- Every object authenticated, in the order of application. -/
def verifyStatusEvidenceObjects (objects : List V2StatusEvidenceObject) :
    V2Result (List V2VerifiedStatusObject) := do
  let out ← objects.mapM (verifyStatusEvidenceObject P issuerId key)
  .ok (out.mergeSort V2VerifiedStatusObject.le)

/-- Decode and authenticate every object of `batch` before any is applied. -/
def verifyV2StatusEvidenceBatch (batch : V2StatusEvidenceBatch) :
    V2Result (List V2VerifiedStatusObject) :=
  if batch.objects.length > maxStatusEvidenceBatchObjectsV2 then
    plain s!"v2 status batch exceeds {maxStatusEvidenceBatchObjectsV2} objects"
  else if v2StatusEvidenceBatchEncodedLength batch > maxStatusEvidenceBatchBytesV2 then
    plain s!"v2 status batch exceeds {maxStatusEvidenceBatchBytesV2} bytes"
  else verifyStatusEvidenceObjects P issuerId key batch.objects

end Verify

end RatifyProtocol.V2
