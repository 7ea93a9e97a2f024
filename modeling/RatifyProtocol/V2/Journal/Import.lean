import RatifyProtocol.V2.Journal.Snapshot
set_option autoImplicit false

/-!
# Journal: importing a snapshot

The import of `v2/journal_snapshot.rs`: canonical snapshot bytes are decoded,
required to be exactly canonical, matched against the anchored head and
validated.
-/

namespace RatifyProtocol.V2

open Foundation

/-! ## Members -/

def u64Member (o : Obj) (key : String) : V2Result Nat := do
  let n ← o.i64 key
  if 0 ≤ n then .ok n.toNat else plain s!"{key} must be a non-negative integer"

def boolMember (o : Obj) (key : String) : V2Result Bool :=
  match o.get key with
  | none => .ok false
  | some n =>
    match n.v with
    | .null => .ok false
    | .bool b => .ok b
    | _ => plain s!"{key} must be a boolean"

def objects (o : Obj) (key : String) : V2Result (List Obj) := do
  let xs ← o.array key
  xs.mapM obj

/-- The bytes a node was read from. -/
def JNode.span (n : JNode) (data : Bytes) : Option Bytes :=
  if n.start ≤ n.stop ∧ n.stop ≤ data.length then some ((data.drop n.start).take (n.stop - n.start))
  else none

/-! ## Records -/

def importKeyRole (r : Obj) : V2Result KeyRoleBindingV2 := do
  r.only ["ed25519_digest", "key_id", "ml_dsa_65_digest", "role"]
  let keyId ← r.str "key_id"
  let ed25519Digest ← r.str "ed25519_digest"
  let mlDsa65Digest ← r.str "ml_dsa_65_digest"
  let role ← r.str "role"
  .ok { keyId, ed25519Digest, mlDsa65Digest, role }

def importStatusKey (b : Obj) : V2Result StatusKeyBindingV2 := do
  b.only ["ed25519_digest", "epoch", "issuer_id", "ml_dsa_65_digest", "status_key_id"]
  let issuerId ← b.str "issuer_id"
  let epoch ← u64Member b "epoch"
  let statusKeyId ← b.str "status_key_id"
  let ed25519Digest ← b.str "ed25519_digest"
  let mlDsa65Digest ← b.str "ml_dsa_65_digest"
  .ok { issuerId, epoch, statusKeyId, ed25519Digest, mlDsa65Digest }

def importObservation (issuerId : String) (ob : Obj) : V2Result RevocationObservationV2 := do
  ob.only ["accepted", "body_digest", "evidence_digest", "fork", "future_dated", "gap",
    "object_type_code", "revoked_cert_ids", "revoked_set_digest", "sequence",
    "status_key_epoch", "status_key_id"]
  let objectType ← ob.u16 "object_type_code"
  let statusKeyEpoch ← u64Member ob "status_key_epoch"
  let statusKeyId ← ob.str "status_key_id"
  let sequence ← ob.i64 "sequence"
  let evidenceDigest ← ob.bytes "evidence_digest"
  let bodyDigest ← ob.bytes "body_digest"
  let revokedSetDigest ← ob.bytes "revoked_set_digest"
  let revokedCertIds ← ob.strArray "revoked_cert_ids"
  let futureDated ← boolMember ob "future_dated"
  let fork ← boolMember ob "fork"
  let gap ← boolMember ob "gap"
  let accepted ← boolMember ob "accepted"
  refuseIf (evidenceDigest.length != 48 || bodyDigest.length != 48
      || revokedSetDigest.length != 48)
    s!"observation digest for issuer {debugQuote issuerId} is not 48 bytes"
  .ok {
    objectType, statusKeyEpoch, statusKeyId, sequence, evidenceDigest, bodyDigest
    revokedSetDigest, revokedCertIds, futureDated, fork, gap, accepted }

/-- No observation sorts before the one it follows. -/
def inCompactionOrder : List RevocationObservationV2 → Bool
  | a :: b :: obs => compareObservations a b ≠ .gt && inCompactionOrder (b :: obs)
  | _ => true

/-- The accepted snapshot, decoded from the bytes it stands in. -/
def importAcceptedSnapshot (snapshot : Bytes) (issuerId : String) (p : Obj) :
    V2Result (Option RevocationListV2) :=
  match p.present "accepted_snapshot" with
  | none => .ok none
  | some raw =>
    match raw.span snapshot with
    | none => plain "accepted snapshot span is out of range"
    | some data => do
      let list ← withContext (decodeRevocationListV2 data)
        s!"accepted snapshot for issuer {debugQuote issuerId}"
      .ok (some list)

/-- Whether there is a preceding checkpoint, its floor and its accepted IDs. -/
def importPreceding (p : Obj) : V2Result (Bool × Int × List String) :=
  match p.present "preceding_checkpoint" with
  | none => .ok (false, 0, [])
  | some cp => do
    let cp ← obj cp
    cp.only ["accepted_cert_ids", "floor"]
    let floor ← cp.i64 "floor"
    let ids ← cp.strArray "accepted_cert_ids"
    .ok (true, floor, ids)

def importIssuer (snapshot : Bytes) (node : JNode) : V2Result RevocationStatusStateV2 := do
  let p ← obj node
  p.only ["accepted_cert_ids", "accepted_snapshot", "deny_union_cert_ids", "floor",
    "fork_sequence", "future_dated_object_observed", "issuer_id", "max_observed_sequence",
    "observations", "preceding_checkpoint", "reconciliation_required",
    "retired_status_key_ids", "status_key_epoch", "status_key_id"]
  let issuerId ← p.str "issuer_id"
  let statusKeyEpoch ← u64Member p "status_key_epoch"
  let statusKeyId ← p.str "status_key_id"
  let retiredStatusKeyIds ← p.strArray "retired_status_key_ids"
  let acceptedCertIds ← p.strArray "accepted_cert_ids"
  let denyUnionCertIds ← p.strArray "deny_union_cert_ids"
  let maxObservedSequence ← p.i64 "max_observed_sequence"
  let forkSequence ← p.i64 "fork_sequence"
  let reconciliationRequired ← boolMember p "reconciliation_required"
  let futureDatedObjectObserved ← boolMember p "future_dated_object_observed"
  let floor ← p.optI64 "floor"
  let acceptedSnapshot ← importAcceptedSnapshot snapshot issuerId p
  let (hasPrecedingCheckpoint, precedingFloor, precedingAcceptedCertIds) ← importPreceding p
  let obs ← objects p "observations"
  let observations ← obs.mapM (importObservation issuerId)
  refuseIf (!inCompactionOrder observations)
    s!"observations for issuer {debugQuote issuerId} are not in compaction order"
  .ok {
    issuerId, statusKeyEpoch, statusKeyId, retiredStatusKeyIds, acceptedSnapshot
    acceptedCertIds, hasPrecedingCheckpoint, precedingFloor, precedingAcceptedCertIds
    denyUnionCertIds, observations, maxObservedSequence, forkSequence
    reconciliationRequired, futureDatedObjectObserved
    hasFloor := floor.isSome
    floor := floor.getD 0 }

/-- The issuers in order; none may repeat. -/
def importIssuers (snapshot : Bytes) (known : OrderedMap String RevocationStatusStateV2) :
    List JNode → V2Result (OrderedMap String RevocationStatusStateV2)
  | [] => .ok known
  | node :: nodes => do
    let state ← importIssuer snapshot node
    refuseIf (known.contains state.issuerId)
      s!"security journal snapshot repeats issuer {debugQuote state.issuerId}"
    importIssuers snapshot (known.insert state.issuerId state) nodes

/-- Decode snapshot bytes; the digest is not set yet. -/
def decodeSnapshot (snapshot : Bytes) : V2Result SecurityJournalV2 := do
  refuseIf (decide (snapshot.length > maxSecurityJournalSnapshotBytes))
    "security journal snapshot exceeds 67108864 bytes"
  refuseIf (fromUtf8 snapshot).isNone "security journal snapshot is not UTF-8"
  let root ← withContext (parseJson snapshot)
    "security journal snapshot is not a single object with unique keys"
  let o ← (obj root).mapError fun _ =>
    V2Error.plain "security journal snapshot is not a single object with unique keys"
  withContext (o.only ["generation", "issuers", "key_role_history", "previous_digest",
    "status_key_history", "version"]) "decode security journal snapshot"
  let version ← o.u16 "version"
  refuseIf (version != securityJournalVersionV2)
    s!"security journal snapshot version {version} is unsupported"
  let generation ← u64Member o "generation"
  let previous ← o.str "previous_digest"
  refuseIf (generation == 0 && previous != genesisPreviousDigest)
    "security journal genesis must have the all-zero predecessor"
  let roles ← objects o "key_role_history"
  let keyRoleHistory ← roles.mapM importKeyRole
  let statusKeys ← objects o "status_key_history"
  let statusKeyHistory ← statusKeys.mapM importStatusKey
  let issuers ← o.array "issuers"
  let statusByIssuer ← importIssuers snapshot .empty issuers
  .ok {
    version
    generation
    previousDigest := if generation == 0 then "" else previous
    statusByIssuer
    keyRoleHistory
    statusKeyHistory }

variable (J : JournalPrimitives)

/-- Require exactly canonical bytes, match the head, set its digest and validate. -/
def anchorImported (snapshot : Bytes) (head : SecurityJournalHeadV2)
    (journal : SecurityJournalV2) : V2Result SecurityJournalV2 := do
  let canonicalBytes ← securityJournalSnapshotBytesV2 journal
  refuseIf (canonicalBytes != snapshot) "security journal snapshot is not in canonical form"
  if head.generation ≠ journal.generation
      ∨ head.digest ≠ securityJournalSnapshotDigestV2 J.toPrimitives snapshot then
    err .logStateMismatch "security journal snapshot does not match the anchored head"
  else do
    validateSecurityJournalInner J { journal with digest := head.digest }
    .ok { journal with digest := head.digest }

def importInner (snapshot : Bytes) (head : SecurityJournalHeadV2) :
    V2Result SecurityJournalV2 := do
  let journal ← decodeSnapshot snapshot
  anchorImported J snapshot head journal

/-- Import a snapshot against an independently anchored head. -/
def importSecurityJournalSnapshotV2 (snapshot : Bytes) (head : SecurityJournalHeadV2) :
    V2Result SecurityJournalV2 :=
  classify .malformed (importInner J snapshot head)

end RatifyProtocol.V2
