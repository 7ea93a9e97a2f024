import RatifyProtocol.V2.Journal.Record
set_option autoImplicit false

/-!
# Journal: the logical snapshot

`v2/journal_snapshot.rs`: the canonical projection of a journal, its digest,
the validation of a record, and exporting and importing a snapshot against an
anchored head.
-/

namespace RatifyProtocol.V2

open Foundation

def securityJournalDigestLabelV2 : Bytes := utf8 "ratify-protocol-security-journal-v2"

/-- Bounds an imported snapshot. -/
def maxSecurityJournalSnapshotBytes : Nat := 67108864

def genesisPreviousDigest : String := String.ofList (List.replicate 96 '0')

/-! ## Canonical form -/

/-- `canonicalize_security_journal_v2`: every set and history in snapshot order. -/
def canonicalizeSecurityJournalV2 (journal : SecurityJournalV2) : SecurityJournalV2 :=
  { journal with
    keyRoleHistory := sortKeyRoleHistory journal.keyRoleHistory
    statusKeyHistory := sortStatusKeyHistory journal.statusKeyHistory
    statusByIssuer := journal.statusByIssuer.mapValues canonicalizeState }

/-- An unsigned value that fits a signed 64-bit integer. -/
def uint (value : Nat) : V2Result CJ :=
  if (value : Int) ≤ 9223372036854775807 then .ok (.int value)
  else plain s!"canonical JSON: integer {value} outside the safe-integer range"

def observationCj (o : RevocationObservationV2) : V2Result CJ := do
  let epoch ← uint o.statusKeyEpoch
  .ok (.obj [
    ("accepted", .bool o.accepted),
    ("body_digest", .bytes o.bodyDigest),
    ("evidence_digest", .bytes o.evidenceDigest),
    ("fork", .bool o.fork),
    ("future_dated", .bool o.futureDated),
    ("gap", .bool o.gap),
    ("object_type_code", .int o.objectType),
    ("revoked_cert_ids", CJ.strs (sortedUnique o.revokedCertIds)),
    ("revoked_set_digest", .bytes o.revokedSetDigest),
    ("sequence", .int o.sequence),
    ("status_key_epoch", epoch),
    ("status_key_id", .str o.statusKeyId)])

/-- The floor and the accepted snapshot of an issuer.  The source splices the
list's encoded text, which is the text of the list's canonical value. -/
def floorCj (issuerId : String) (state : RevocationStatusStateV2) : V2Result (CJ × CJ) :=
  match state.acceptedSnapshot, state.hasFloor with
  | some list, true => do
    let _ ← withContext (encodeRevocationListV2 list)
      s!"encode accepted snapshot for issuer {debugQuote issuerId}"
    .ok (.int state.floor, listCj list true)
  | _, _ => .ok (.null, .null)

def precedingCj (state : RevocationStatusStateV2) : CJ :=
  if state.hasPrecedingCheckpoint then
    .obj [("accepted_cert_ids", CJ.strs state.precedingAcceptedCertIds),
      ("floor", .int state.precedingFloor)]
  else .null

def issuerCj (issuerId : String) (state : RevocationStatusStateV2) : V2Result CJ := do
  refuseIf (state.hasFloor != state.acceptedSnapshot.isSome)
    s!"security journal issuer {debugQuote issuerId} has an accepted snapshot inconsistent with its floor"
  let (floor, acceptedSnapshot) ← floorCj issuerId state
  let observations ← state.observations.mapM observationCj
  let epoch ← uint state.statusKeyEpoch
  .ok (.obj [
    ("accepted_cert_ids", CJ.strs state.acceptedCertIds),
    ("accepted_snapshot", acceptedSnapshot),
    ("deny_union_cert_ids", CJ.strs state.denyUnionCertIds),
    ("floor", floor),
    ("fork_sequence", .int state.forkSequence),
    ("future_dated_object_observed", .bool state.futureDatedObjectObserved),
    ("issuer_id", .str state.issuerId),
    ("max_observed_sequence", .int state.maxObservedSequence),
    ("observations", .arr observations),
    ("preceding_checkpoint", precedingCj state),
    ("reconciliation_required", .bool state.reconciliationRequired),
    ("retired_status_key_ids", CJ.strs state.retiredStatusKeyIds),
    ("status_key_epoch", epoch),
    ("status_key_id", .str state.statusKeyId)])

def keyRoleCj (r : KeyRoleBindingV2) : CJ :=
  .obj [("ed25519_digest", .str r.ed25519Digest), ("key_id", .str r.keyId),
    ("ml_dsa_65_digest", .str r.mlDsa65Digest), ("role", .str r.role)]

def statusKeyCj (b : StatusKeyBindingV2) : V2Result CJ := do
  let epoch ← uint b.epoch
  .ok (.obj [("ed25519_digest", .str b.ed25519Digest), ("epoch", epoch),
    ("issuer_id", .str b.issuerId), ("ml_dsa_65_digest", .str b.mlDsa65Digest),
    ("status_key_id", .str b.statusKeyId)])

/-- The predecessor a snapshot names: all zeros at genesis. -/
def snapshotPrevious (journal : SecurityJournalV2) : String :=
  if journal.generation == 0 then genesisPreviousDigest else journal.previousDigest

def snapshotCj (journal : SecurityJournalV2) : V2Result CJ := do
  let journal := canonicalizeSecurityJournalV2 journal
  refuseIf (journal.generation == 0 && journal.previousDigest != "")
    "security journal genesis has a predecessor"
  let statusKeys ← journal.statusKeyHistory.mapM statusKeyCj
  let issuers ← journal.statusByIssuer.entries.mapM fun e => issuerCj e.1 e.2
  let generation ← uint journal.generation
  .ok (.obj [
    ("generation", generation),
    ("issuers", .arr issuers),
    ("key_role_history", .arr (journal.keyRoleHistory.map keyRoleCj)),
    ("previous_digest", .str (snapshotPrevious journal)),
    ("status_key_history", .arr statusKeys),
    ("version", .int journal.version)])

/-- The canonical snapshot bytes, without validating the journal. -/
def securityJournalSnapshotBytesV2 (journal : SecurityJournalV2) : V2Result Bytes := do
  let v ← snapshotCj journal
  canonical v

/-! ## Digests -/

variable (P : Primitives) (J : JournalPrimitives)

/-- The labelled digest of canonical snapshot bytes. -/
def securityJournalSnapshotDigestV2 (snapshot : Bytes) : String :=
  hexEncode (sha384 P [securityJournalDigestLabelV2, [0], snapshot])

def securityJournalDigestV2 (journal : SecurityJournalV2) : V2Result String :=
  if journal.version = securityJournalVersionV2 then do
    let snapshot ← securityJournalSnapshotBytesV2 journal
    .ok (securityJournalSnapshotDigestV2 J.toPrimitives snapshot)
  else if journal.version = securityJournalLegacyVersion then
    J.legacySecurityJournalDigestV1 journal
  else plain s!"security journal version {journal.version} is unsupported"

/-! ## Validation -/

/-- The checks on one retained observation. -/
def validateJournalObservation (history : List StatusKeyBindingV2) (issuerId : String)
    (o : RevocationObservationV2) : V2Result Unit :=
  refuseIf ((statusBindingAtEpoch history issuerId o.statusKeyEpoch).all
        (fun b => o.statusKeyId != b.statusKeyId)
      || decide (o.sequence ≤ 0) || decide (o.sequence > maxSafe)
      || o.evidenceDigest.length != 48 || o.bodyDigest.length != 48
      || (o.objectType != LIST && o.objectType != PUSH))
    "security journal contains malformed or misbound status evidence"

def validateJournalObservations (history : List StatusKeyBindingV2) (issuerId : String) :
    List RevocationObservationV2 → V2Result Unit
  | [] => .ok ()
  | o :: obs => do
    validateJournalObservation history issuerId o
    validateJournalObservations history issuerId obs

/-- The highest sequence observed in the state's epoch. -/
def highestObserved (state : RevocationStatusStateV2) : Int :=
  ((state.observations.filter fun o => o.statusKeyEpoch == state.statusKeyEpoch).map
    (·.sequence)).foldl max 0

/-- The status keys an issuer retired before `epoch`. -/
def retiredKeys (history : List StatusKeyBindingV2) (issuerId : String) (epoch : Nat) :
    List String :=
  (history.filter fun b => b.issuerId == issuerId && decide (b.epoch < epoch)).map (·.statusKeyId)

/-- The checks on one issuer's status state. -/
def validateIssuerState (history : List StatusKeyBindingV2) (issuerId : String)
    (state : RevocationStatusStateV2) : V2Result Unit := do
  refuseIf (issuerId == "" || state.issuerId != issuerId || state.statusKeyEpoch == 0)
    "security journal contains a misbound issuer status state"
  withContext (validateBinding state issuerId state.statusKeyEpoch)
    s!"invalid status state for issuer {debugQuote issuerId}"
  withContext (validateAcceptedState P state)
    s!"invalid accepted status state for issuer {debugQuote issuerId}"
  refuseIf ((statusBindingAtEpoch history issuerId state.statusKeyEpoch).all
      fun b => b.statusKeyId != state.statusKeyId)
    "current status state has no matching retained key binding"
  validateJournalObservations history issuerId state.observations
  refuseIf (state.maxObservedSequence != highestObserved state
      || !equalSets state.retiredStatusKeyIds (retiredKeys history issuerId state.statusKeyEpoch))
    "status state does not match retained sequence and key history"

def validateIssuerStates (history : List StatusKeyBindingV2) :
    List (String × RevocationStatusStateV2) → V2Result Unit
  | [] => .ok ()
  | e :: entries => do
    validateIssuerState P history e.1 e.2
    validateIssuerStates history entries

/-- Every issuer's state is at its latest retained epoch. -/
def statesAtLatestEpoch (journal : SecurityJournalV2) : Bool :=
  journal.statusKeyHistory.all fun b =>
    (journal.statusByIssuer.get? b.issuerId).any fun state =>
      state.statusKeyEpoch == highestEpoch journal.statusKeyHistory b.issuerId

/-- Record integrity and internal indexes. -/
def validateSecurityJournalInner (journal : SecurityJournalV2) : V2Result Unit := do
  refuseIf ((journal.version != securityJournalVersionV2
        && journal.version != securityJournalLegacyVersion)
      || journal.legacyNullMembers.contains "status_by_issuer"
      || journal.legacyNullMembers.contains "key_role_history"
      || journal.legacyNullMembers.contains "status_key_history")
    "security journal has unsupported or incomplete shape"
  refuseIf (journal.generation == 0 && journal.previousDigest != "")
    "security journal genesis has a predecessor"
  refuseIf (journal.generation == 0 && (!journal.statusByIssuer.entries.isEmpty
      || !journal.keyRoleHistory.isEmpty || !journal.statusKeyHistory.isEmpty))
    "security journal genesis must be empty"
  refuseIf (decide (journal.generation > 0)
      && (journal.previousDigest == "" || (utf8 journal.previousDigest).length != 96))
    "security journal record is missing its predecessor digest"
  let digest ← securityJournalDigestV2 J journal
  refuseIf (journal.digest != digest) "security journal digest mismatch"
  validateIssuerStates J.toPrimitives journal.statusKeyHistory journal.statusByIssuer.entries
  validateKeyRoleHistory journal.keyRoleHistory
  validateStatusKeyHistory journal.statusKeyHistory journal.keyRoleHistory
  refuseIf (!statesAtLatestEpoch journal)
    "security journal status state is not at the latest retained issuer epoch"

/-! ## Export and import -/

/-- Validate a version 2 journal and return its canonical snapshot bytes. -/
def exportSecurityJournalSnapshotV2 (journal : SecurityJournalV2) : V2Result Bytes := do
  if journal.version ≠ securityJournalVersionV2 then
    err .configurationInvalid
      "only version 2 security journals can be exported; migrate first"
  else do
    classify .configurationInvalid (validateSecurityJournalInner J journal)
    classify .configurationInvalid (securityJournalSnapshotBytesV2 journal)

end RatifyProtocol.V2
