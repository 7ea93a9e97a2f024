import RatifyProtocol.Foundation.SortedSet
import RatifyProtocol.V2.WireCodec
set_option autoImplicit false

/-!
# Status: the reducer's state and its validation

The data model of `v2/status.rs` and the two checks every consumer of a state
runs first: `validate_binding` and `validate_accepted_state`.
-/

namespace RatifyProtocol.V2

open Foundation

abbrev LIST : Nat := 3
abbrev PUSH : Nat := 5

/-- Finite freshness bounds.  A zero maximum means "not configured": status can
then never be current. -/
structure RevocationStatusPolicyV2 where
  maxListLifetimeSeconds : Int
  maxStatusAgeSeconds : Int
  clockSkewSeconds : Int
  deriving DecidableEq, Repr

/-- Authenticated status evidence observation. -/
structure RevocationObservationV2 where
  objectType : Nat
  statusKeyEpoch : Nat
  statusKeyId : String
  sequence : Int
  evidenceDigest : Bytes
  bodyDigest : Bytes
  revokedSetDigest : Bytes
  revokedCertIds : List String
  futureDated : Bool := false
  fork : Bool := false
  gap : Bool := false
  accepted : Bool := false
  deriving DecidableEq, Repr

/-- One issuer's rollback-protected reducer state. -/
structure RevocationStatusStateV2 where
  issuerId : String := ""
  statusKeyEpoch : Nat := 0
  statusKeyId : String := ""
  retiredStatusKeyIds : List String := []
  hasFloor : Bool := false
  floor : Int := 0
  acceptedSnapshot : Option RevocationListV2 := none
  acceptedCertIds : List String := []
  hasPrecedingCheckpoint : Bool := false
  precedingFloor : Int := 0
  precedingAcceptedCertIds : List String := []
  denyUnionCertIds : List String := []
  observations : List RevocationObservationV2 := []
  maxObservedSequence : Int := 0
  forkSequence : Int := 0
  reconciliationRequired : Bool := false
  futureDatedObjectObserved : Bool := false
  deriving DecidableEq, Repr

/-! ## Digests of a revoked set -/

/-- The bytes a revoked-set digest covers. -/
def revokedSetInput (encoded : Bytes) : Bytes :=
  [utf8 "ratify-protocol-revoked-set-v2", [0], encoded].flatten

variable (P : Primitives)

/-- `SHA-384("ratify-protocol-revoked-set-v2" || 0x00 || canonical(sorted cert_ids))`. -/
def revokedSetDigest (refs : List RevokedCertV2) : V2Result Bytes := do
  let encoded ← withContext (canonical (CJ.strs (sortedUnique (revokedIds refs))))
    "encode revoked certificate set"
  .ok (P.sha384 (revokedSetInput encoded))

/-! ## Freshness -/

def beyondSkew (timestamp now skew : Int) : Bool :=
  decide (timestamp > now) && decide (timestamp - now > skew)

def listFresh (l : RevocationListV2) (p : RevocationStatusPolicyV2) (now : Int) : Bool :=
  if p.maxListLifetimeSeconds == 0 || p.maxStatusAgeSeconds == 0
      || decide (l.nextUpdate - l.updatedAt > p.maxListLifetimeSeconds)
      || beyondSkew l.updatedAt now p.clockSkewSeconds
      || decide (now ≥ l.nextUpdate) then
    -- Exclusive deadline: a list is fresh only while `now < next_update`.
    false
  else
    -- Exclusive age deadline: fresh only while `now < updated_at + max_status_age`.
    decide (now < l.updatedAt) || decide (now - l.updatedAt < p.maxStatusAgeSeconds)

def validatePolicy (p : RevocationStatusPolicyV2) : V2Result Unit :=
  refuseIf (decide (p.maxListLifetimeSeconds < 0) || decide (p.maxStatusAgeSeconds < 0)
      || decide (p.clockSkewSeconds < 0)
      || decide (p.maxListLifetimeSeconds > v2MaxStatusLifetimeSeconds)
      || decide (p.maxStatusAgeSeconds > v2MaxStatusLifetimeSeconds)
      || decide (p.clockSkewSeconds > v2MaxFutureSkewSeconds))
    "revocation status policy contains invalid time bounds"

/-! ## Validation -/

/-- The list keeps no value twice. -/
def distinctIds (values : List String) : Bool :=
  (sortedUnique values).length == values.length

def validateBinding (s : RevocationStatusStateV2) (issuerId : String) (epoch : Nat) :
    V2Result Unit := do
  refuseIf (s.issuerId != "" && s.issuerId != issuerId)
    "revocation status state belongs to a different issuer"
  refuseIf (s.issuerId != "" && s.statusKeyEpoch != epoch)
    "revocation status state belongs to a different status-key epoch"
  refuseIf (decide (s.floor < 0) || decide (s.maxObservedSequence < 0)
      || decide (s.forkSequence < 0))
    "revocation status state has negative sequence state"
  refuseIf (decide (s.precedingFloor < 0) || decide (s.precedingFloor > maxSafe)
      || (s.precedingFloor == 0 && !s.precedingAcceptedCertIds.isEmpty)
      || !distinctIds s.precedingAcceptedCertIds)
    "revocation status state has invalid preceding checkpoint"
  refuseIf (s.hasFloor && (s.floor == 0 || decide (s.floor > maxSafe)
      || s.acceptedSnapshot.all fun l => decide (l.sequence ≤ 0) || decide (l.sequence > s.floor)))
    "revocation status state has inconsistent accepted floor"
  refuseIf (!s.hasFloor && (s.floor != 0 || s.acceptedSnapshot.isSome
      || !s.acceptedCertIds.isEmpty))
    "revocation status state has accepted data without a floor"
  refuseIf (decide (s.maxObservedSequence > maxSafe) || decide (s.forkSequence > maxSafe)
      || epoch == 0 || decide ((epoch : Int) > maxSafe))
    "revocation status state has invalid sequence or epoch"
  refuseIf (s.issuerId != "" && !validV2Id s.statusKeyId)
    "revocation status state has an invalid status-key ID"
  refuseIf (!distinctIds s.retiredStatusKeyIds || s.retiredStatusKeyIds.contains s.statusKeyId)
    "revocation status state has invalid retired status-key history"
  refuseIf (s.retiredStatusKeyIds.any fun k => !validV2Id k)
    "revocation status state has an invalid retired status-key ID"

def hasAcceptedObservation (obs : List RevocationObservationV2) (epoch ty : Nat) (seq : Int)
    (digest : Bytes) : Bool :=
  obs.any fun o => o.statusKeyEpoch == epoch && o.objectType == ty && o.sequence == seq
    && o.evidenceDigest == digest && o.accepted && !o.fork && !o.futureDated

/-- The checks on one retained observation. -/
def validateObservation (s : RevocationStatusStateV2) (o : RevocationObservationV2) :
    V2Result Unit := do
  refuseIf (decide (o.sequence ≤ 0) || decide (o.sequence > maxSafe)
      || !validV2Id o.statusKeyId || (o.objectType != LIST && o.objectType != PUSH)
      || o.evidenceDigest.length != 48 || o.bodyDigest.length != 48
      || o.revokedSetDigest.length != 48 || !distinctIds o.revokedCertIds)
    "security journal contains a malformed status observation"
  refuseIf (o.revokedCertIds.any fun id => id == "")
    "status observation contains an invalid certificate ID"
  refuseIf (o.statusKeyEpoch == s.statusKeyEpoch
      && decide (o.sequence > s.maxObservedSequence))
    "observed sequence exceeds its high-water mark"
  refuseIf (!containsAll s.denyUnionCertIds o.revokedCertIds)
    "deny union omits a revocation from authenticated evidence"

/-- The loop over the retained observations; the first refusal decides. -/
def validateObservations (s : RevocationStatusStateV2) :
    List RevocationObservationV2 → V2Result Unit
  | [] => .ok ()
  | o :: obs => do
    validateObservation s o
    validateObservations s obs

/-- An accepted push of the current epoch after the snapshot, up to the floor. -/
def acceptedPushInRange (s : RevocationStatusStateV2) (snap : RevocationListV2)
    (o : RevocationObservationV2) : Bool :=
  o.statusKeyEpoch == s.statusKeyEpoch && o.objectType == PUSH && o.accepted
    && decide (o.sequence > snap.sequence) && decide (o.sequence ≤ s.floor)

/-- The pushes must continue the snapshot one sequence at a time. -/
def walkPushes (expected : Int) : List RevocationObservationV2 → V2Result Int
  | [] => .ok expected
  | p :: pushes => do
    refuseIf (decide (expected ≥ maxSafe) || p.sequence != expected + 1)
      "accepted push observations are not contiguous after the accepted snapshot"
    walkPushes p.sequence pushes

/-- The accepted set follows from the snapshot and the pushes after it. -/
def validateAcceptedHistory (s : RevocationStatusStateV2) (snap : RevocationListV2) :
    V2Result Unit := do
  refuseIf (snap.issuerId != s.issuerId || decide (snap.sequence > s.floor))
    "accepted snapshot does not match issuer or floor"
  let digest ← statusEvidenceDigestListV2 P snap
  refuseIf (!hasAcceptedObservation s.observations s.statusKeyEpoch LIST snap.sequence digest)
    "accepted snapshot has no matching authenticated observation"
  let pushes := s.observations.filter (acceptedPushInRange s snap)
  let accepted := revokedIds snap.revoked ++ pushes.flatMap (·.revokedCertIds)
  let sorted := pushes.insertionSort fun a b => a.sequence ≤ b.sequence
  let reached ← walkPushes snap.sequence sorted
  refuseIf (reached != s.floor) "accepted push history does not reach the recorded floor"
  refuseIf (!equalSets accepted s.acceptedCertIds)
    "accepted certificate set does not follow the accepted snapshot and pushes"

def validateAcceptedState (s : RevocationStatusStateV2) : V2Result Unit := do
  refuseIf (!distinctIds s.denyUnionCertIds || !distinctIds s.acceptedCertIds)
    "revocation status sets are not canonical"
  validateObservations s s.observations
  let observed := s.observations.flatMap (·.revokedCertIds)
  refuseIf (!containsAll observed s.denyUnionCertIds)
    "deny union contains a revocation without a retained authenticated witness"
  let forkRecorded := s.observations.any fun o => o.statusKeyEpoch == s.statusKeyEpoch && o.fork
  refuseIf (decide (s.forkSequence > 0) && (!s.reconciliationRequired || !forkRecorded))
    "unresolved fork state lacks its retained fork marker"
  refuseIf (s.hasFloor && decide (s.floor > s.maxObservedSequence))
    "accepted floor exceeds the observed sequence high-water mark"
  if !s.hasFloor then .ok ()
  else match s.acceptedSnapshot with
    | none => plain "accepted snapshot does not match issuer or floor"
    | some snap => validateAcceptedHistory P s snap

end RatifyProtocol.V2
