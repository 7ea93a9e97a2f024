import RatifyProtocol.V2.Journal.Import
set_option autoImplicit false

/-!
# Journal: validated transitions

`validate_security_journal_transition_inner` of `v2/journal.rs`: what one
journal record may change of the record before it, re-derived independently of
the reducer; and the preparation of a record from an updated journal.
-/

namespace RatifyProtocol.V2

open Foundation

/-- The journal as its logical content is compared: version and place erased. -/
def contentRecord (journal : SecurityJournalV2) : SecurityJournalV2 :=
  { journal with version := securityJournalVersionV2, generation := 1, previousDigest := "" }

/-- The two journals have the same logical content. -/
def sameSecurityJournalContentV2 (a b : SecurityJournalV2) : Bool :=
  match securityJournalSnapshotBytesV2 (contentRecord a),
    securityJournalSnapshotBytesV2 (contentRecord b) with
  | .ok left, .ok right => left == right
  | _, _ => false

/-! ## Retained evidence -/

/-- The last observation with the semantic key of `old`. -/
def compactedObservation (next : RevocationStatusStateV2) (old : RevocationObservationV2) :
    Option RevocationObservationV2 :=
  next.observations.reverse.find? fun o => semanticKey o == semanticKey old

/-- The next state no longer holds what `old` witnessed. -/
def lostObservation (next : RevocationStatusStateV2) (old : RevocationObservationV2) : Bool :=
  if next.observations.contains old then false
  else if !mustRetain next old then false
  else match compactedObservation next old with
    | none => true
    | some c =>
      !containsAll c.revokedCertIds old.revokedCertIds
        || (old.fork && !c.fork)
        || (old.gap && next.reconciliationRequired && !c.gap)
        || (old.futureDated && next.futureDatedObjectObserved && !c.futureDated)

/-- The fail-closed reset a new status-key epoch requires. -/
def epochResetMissing (state next : RevocationStatusStateV2) : Bool :=
  next.statusKeyId == state.statusKeyId
    || state.retiredStatusKeyIds.contains next.statusKeyId
    || !equalSets next.retiredStatusKeyIds (state.retiredStatusKeyIds ++ [state.statusKeyId])
    || next.hasFloor
    || next.floor != 0
    || next.acceptedSnapshot.isSome
    || !next.acceptedCertIds.isEmpty
    || next.hasPrecedingCheckpoint
    || next.precedingFloor != 0
    || !next.precedingAcceptedCertIds.isEmpty
    || next.maxObservedSequence != 0
    || next.forkSequence != 0
    || next.reconciliationRequired
    || next.futureDatedObjectObserved

/-- An accepted list of the epoch at or above `minSequence` and above the fork,
that names the whole deny union. -/
def hasAcceptedSnapshotAfter (state : RevocationStatusStateV2) (epoch : Nat)
    (minSequence forkSequence : Int) (denyUnion : List String) : Bool :=
  state.observations.any fun o => o.statusKeyEpoch == epoch && o.objectType == LIST
    && o.accepted && decide (o.sequence ≥ minSequence)
    && (forkSequence == 0 || decide (o.sequence > forkSequence))
    && containsAll o.revokedCertIds denyUnion

/-- What one issuer's state may become. -/
def validateIssuerTransition (state next : RevocationStatusStateV2) : V2Result Unit := do
  refuseIf (!containsAll next.denyUnionCertIds state.denyUnionCertIds)
    "journal transition removed issuer status or a retained revocation"
  refuseIf (state.observations.any (lostObservation next))
    "journal transition removed authenticated status evidence"
  refuseIf (decide (next.statusKeyEpoch < state.statusKeyEpoch))
    "journal transition rolled back a status-key epoch"
  refuseIf (decide (next.statusKeyEpoch > state.statusKeyEpoch) && epochResetMissing state next)
    "status-key epoch transition did not perform the required fail-closed reset"
  refuseIf (decide (next.statusKeyEpoch > state.statusKeyEpoch)
      && next.observations.any fun o => decide (o.statusKeyEpoch ≥ next.statusKeyEpoch))
    "status-key epoch transition contains evidence from the new epoch before bootstrap"
  refuseIf (next.statusKeyEpoch == state.statusKeyEpoch && state.hasFloor
      && (!next.hasFloor || decide (next.floor < state.floor)))
    "journal transition rolled back the accepted status floor"
  refuseIf (next.statusKeyEpoch == state.statusKeyEpoch
      && decide (next.maxObservedSequence < state.maxObservedSequence))
    "journal transition rolled back the observed status sequence"
  refuseIf (next.statusKeyEpoch == state.statusKeyEpoch
      && state.reconciliationRequired && !next.reconciliationRequired
      && (!hasAcceptedSnapshotAfter next state.statusKeyEpoch state.maxObservedSequence
            state.forkSequence state.denyUnionCertIds
          || !containsAll next.acceptedCertIds state.denyUnionCertIds))
    "journal transition cleared reconciliation without a caught-up full snapshot"

/-- What becomes of one issuer of the current journal. -/
def validateIssuerKept (next : SecurityJournalV2) (issuerId : String)
    (state : RevocationStatusStateV2) : V2Result Unit :=
  match next.statusByIssuer.get? issuerId with
  | none => plain "journal transition removed issuer status or a retained revocation"
  | some nextState => validateIssuerTransition state nextState

/-- The loop over the issuers of the current journal. -/
def validateIssuerTransitions (next : SecurityJournalV2) :
    List (String × RevocationStatusStateV2) → V2Result Unit
  | [] => .ok ()
  | e :: entries => do
    validateIssuerKept next e.1 e.2
    validateIssuerTransitions next entries

/-- An issuer new to the journal whose epoch the key history does not hold. -/
def newIssuerUnbound (current next : SecurityJournalV2) : Bool :=
  next.statusByIssuer.entries.any fun e => !current.statusByIssuer.contains e.1
    && (statusBindingAtEpoch next.statusKeyHistory e.1 e.2.statusKeyEpoch).isNone

variable (J : JournalPrimitives)

/-- Generation continuity, append-only key histories and the evolution of every
issuer's status state. -/
def validateSecurityJournalTransitionInner (current next : SecurityJournalV2) :
    V2Result Unit := do
  withContext (validateSecurityJournalInner J current) "invalid current journal"
  withContext (validateSecurityJournalInner J next) "invalid next journal"
  refuseIf (current.generation + 1 != next.generation || next.previousDigest != current.digest)
    "journal generation or predecessor is not contiguous"
  refuseIf (next.version != securityJournalVersionV2)
    "journal transitions must produce a version 2 record"
  refuseIf (current.version == securityJournalLegacyVersion
      && !sameSecurityJournalContentV2 current next)
    "journal migration must not change logical content"
  refuseIf (!(current.keyRoleHistory.all fun b => next.keyRoleHistory.contains b)
      || !(current.statusKeyHistory.all fun b => next.statusKeyHistory.contains b))
    "journal key binding history was removed or rewritten"
  validateIssuerTransitions next current.statusByIssuer.entries
  refuseIf (newIssuerUnbound current next)
    "new issuer status state lacks authenticated key history"

/-! ## Preparing a record -/

/-- Compact every issuer state. -/
def pruneSecurityJournalObservationsV2 (P : Primitives) (journal : SecurityJournalV2) :
    SecurityJournalV2 :=
  { journal with statusByIssuer := journal.statusByIssuer.mapValues (compact P) }

/-- The record that follows `current` with the content of `next`, before its
digest is set. -/
def chainedRecord (current next : SecurityJournalV2) : SecurityJournalV2 :=
  { next with
    generation := current.generation + 1
    version := securityJournalVersionV2
    previousDigest := current.digest
    digest := "" }

/-- The part of `commit_security_journal_transition_v2` before the store is
asked: the record to commit, or none when the content did not change. -/
def prepareSecurityJournalTransitionV2 (current next : SecurityJournalV2) :
    V2Result (Option SecurityJournalV2) := do
  let next := canonicalizeSecurityJournalV2
    (pruneSecurityJournalObservationsV2 J.toPrimitives next)
  if sameSecurityJournalContentV2 next current then .ok none
  else do
    refuseIf (decide (((current.generation + 1 : Nat) : Int) > maxSafe))
      "security journal generation exhausted"
    let record := chainedRecord current next
    let digest ← securityJournalDigestV2 J record
    withContext (validateSecurityJournalTransitionInner J current { record with digest })
      "invalid security journal transition"
    .ok (some { record with digest })

end RatifyProtocol.V2
