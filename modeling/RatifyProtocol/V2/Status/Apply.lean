import RatifyProtocol.V2.Status.Compact
set_option autoImplicit false

/-!
# Status: applying lists, pushes and epoch transitions

`apply_list_inner`, `apply_push_inner` and
`transition_revocation_status_epoch_v2` of `v2/status.rs`.  Each apply function
of the source is one long body with early returns; here its stages are separate
functions in the order the source runs them: the checks on the object, the gate
that answers an object already settled by what is retained, the bookkeeping of a
new sighting, the conflict tests, and the placement of the object.
-/

namespace RatifyProtocol.V2

open Foundation

variable (P : Primitives)

/-! ## State updates -/

def initializeState (s : RevocationStatusStateV2) (issuerId : String) (epoch : Nat) :
    RevocationStatusStateV2 :=
  let s := if s.issuerId == "" then { s with issuerId, statusKeyEpoch := epoch } else s
  { s with
    acceptedCertIds := sortedUnique s.acceptedCertIds
    denyUnionCertIds := sortedUnique s.denyUnionCertIds }

def addRevocations (s : RevocationStatusStateV2) (values : List String) :
    RevocationStatusStateV2 :=
  { s with denyUnionCertIds := sortedUnique (s.denyUnionCertIds ++ values) }

/-- Mark the observation and require reconciliation beyond `sequence`. -/
def markFork (s : RevocationStatusStateV2) (o : RevocationObservationV2) (sequence : Int) :
    RevocationStatusStateV2 × RevocationObservationV2 :=
  ({ s with
      reconciliationRequired := true
      forkSequence := max (max (max s.forkSequence s.floor) sequence) 0 },
    { o with fork := true })

/-- `if conflict { mark_fork(..) }`. -/
def markForkIf (conflict : Bool)
    (p : RevocationStatusStateV2 × RevocationObservationV2) (sequence : Int) :
    RevocationStatusStateV2 × RevocationObservationV2 :=
  if conflict then markFork p.1 p.2 sequence else p

def pushObservation (s : RevocationStatusStateV2) (o : RevocationObservationV2) :
    RevocationStatusStateV2 :=
  { s with observations := s.observations ++ [o] }

/-! ## Lookups and conflict tests -/

/-- The last observation of this type and sequence with this evidence digest. -/
def findObservation (obs : List RevocationObservationV2) (epoch ty : Nat) (seq : Int)
    (digest : Bytes) : Option RevocationObservationV2 :=
  obs.reverse.find? fun o => o.statusKeyEpoch == epoch && o.objectType == ty
    && o.sequence == seq && o.evidenceDigest == digest

/-- The last observation of the same type and sequence with the same revoked set. -/
def findSetObservation (obs : List RevocationObservationV2) (inc : RevocationObservationV2) :
    Option RevocationObservationV2 :=
  obs.reverse.find? fun o => o.statusKeyEpoch == inc.statusKeyEpoch
    && o.objectType == inc.objectType && o.sequence == inc.sequence
    && o.revokedSetDigest == inc.revokedSetDigest

/-- A fork mark at this sequence; type `0` stands for every type. -/
def hasForkedSequence (obs : List RevocationObservationV2) (epoch ty : Nat) (seq : Int) : Bool :=
  obs.any fun o => o.statusKeyEpoch == epoch && (ty == 0 || o.objectType == ty)
    && o.sequence == seq && o.fork

def sequenceConflict (obs : List RevocationObservationV2) (inc : RevocationObservationV2) :
    Bool :=
  obs.any fun o => o.statusKeyEpoch == inc.statusKeyEpoch && o.sequence == inc.sequence
    && o.objectType == inc.objectType
    && ((inc.objectType == LIST && o.revokedSetDigest != inc.revokedSetDigest)
      || (inc.objectType == PUSH && o.bodyDigest != inc.bodyDigest))

/-- Every ID retained at or below `seq` in this epoch. -/
def requiredForSnapshot (obs : List RevocationObservationV2) (epoch : Nat) (seq : Int) :
    List String :=
  sortedUnique ((obs.filter fun o =>
    o.statusKeyEpoch == epoch && decide (o.sequence ≤ seq)).flatMap (·.revokedCertIds))

def snapshotConflictsWithPush (s : RevocationStatusStateV2) (epoch : Nat) (seq : Int)
    (ids : List String) : Bool :=
  (s.observations.filter fun o =>
      o.statusKeyEpoch == epoch && o.objectType == PUSH && o.sequence == seq).any fun o =>
    if s.hasFloor && s.floor == seq - 1 then
      !equalSets ids (s.acceptedCertIds ++ o.revokedCertIds)
    else !containsAll ids o.revokedCertIds

/-- The greatest sequence at which a retained full list omits an ID of `push`. -/
def snapshotOmissionForPush (s : RevocationStatusStateV2) (epoch : Nat)
    (push : RevocationObservationV2) : Option Int :=
  let check (conflicting seq : Int) (revoked : List String) : Int :=
    if decide (seq ≥ push.sequence) && !containsAll revoked push.revokedCertIds
        && decide (seq > conflicting) then seq
    else conflicting
  let conflicting := match s.acceptedSnapshot with
    | some snap =>
      if s.statusKeyEpoch == epoch then check 0 snap.sequence (revokedIds snap.revoked) else 0
    | none => 0
  let conflicting :=
    if s.reconciliationRequired then
      s.observations.foldl (fun conflicting o =>
        if o.statusKeyEpoch == epoch && o.objectType == LIST && decide (o.sequence > s.floor)
            && decide (o.sequence ≥ push.sequence) && (o.fork || o.gap || o.futureDated) then
          check conflicting o.sequence o.revokedCertIds
        else conflicting) conflicting
    else conflicting
  if conflicting != 0 then some conflicting else none

/-- A same-set list that should replace the accepted one: newer, or the smaller
digest of two at one time. -/
def heartbeatPreferred (incoming : RevocationListV2) (incomingDigest : Bytes)
    (accepted : RevocationListV2) : Bool :=
  if incoming.updatedAt != accepted.updatedAt then decide (incoming.updatedAt > accepted.updatedAt)
  else match statusEvidenceDigestListV2 P accepted with
    | .ok d => decide (incomingDigest < d)
    | .error _ => false

def cloneList (l : RevocationListV2) : V2Result RevocationListV2 := do
  let encoded ← encodeRevocationListV2 l
  decodeRevocationListV2 encoded

/-- The accepted snapshot is copied through its wire form, so a snapshot that
does not encode is an error. -/
def cloneState (s : RevocationStatusStateV2) : V2Result RevocationStatusStateV2 :=
  match s.acceptedSnapshot with
  | none => .ok s
  | some list => do
    let copy ← cloneList list
    .ok { s with acceptedSnapshot := some copy }

/-! ## Lists -/

/-- Whether a new list adds nothing to an observation with the same set. -/
def settledBySet (s : RevocationStatusStateV2) (list : RevocationListV2) (digest : Bytes)
    (obs : RevocationObservationV2) (fresh : Bool) (prior : RevocationObservationV2) : Bool :=
  if prior.fork then true
  else if (prior.futureDated || prior.gap) && !obs.futureDated && fresh then
    (s.hasFloor && decide (list.sequence < s.floor))
      || hasForkedSequence s.observations obs.statusKeyEpoch 0 list.sequence
  else if !prior.accepted && !prior.fork && s.hasFloor && list.sequence == s.floor
      && s.acceptedSnapshot.any (fun a => decide (a.sequence < s.floor))
      && !obs.futureDated && fresh then
    -- A fresh same-set snapshot at a push-advanced floor becomes the new base.
    false
  else if prior.accepted && s.hasFloor && list.sequence == s.floor
      && s.acceptedSnapshot.any (heartbeatPreferred P list digest) then
    -- A newer same-set current-floor heartbeat may refresh freshness.
    false
  else true

/-- Whether a redelivered list changes nothing. -/
def settledByDuplicate (s : RevocationStatusStateV2) (list : RevocationListV2)
    (obs : RevocationObservationV2) (fresh : Bool) (prior : RevocationObservationV2) : Bool :=
  prior.accepted || (!prior.futureDated && !prior.gap) || obs.futureDated || !fresh
    || (s.hasFloor && decide (list.sequence < s.floor))
    || hasForkedSequence s.observations obs.statusKeyEpoch 0 list.sequence

/-- Whether the list returns the state unchanged before any bookkeeping. -/
def listSettled (s : RevocationStatusStateV2) (list : RevocationListV2) (digest : Bytes)
    (obs : RevocationObservationV2) (fresh : Bool) (duplicate? : Option RevocationObservationV2) :
    Bool :=
  match duplicate? with
  | some prior => settledByDuplicate s list obs fresh prior
  | none =>
    match findSetObservation s.observations obs with
    | some prior => settledBySet P s list digest obs fresh prior
    | none => false

/-- Bookkeeping of a sighting: the deny union and the high-water mark for a new
object, the flags of a future-dated one. -/
def observeObject (s : RevocationStatusStateV2) (obs : RevocationObservationV2)
    (duplicate : Bool) : RevocationStatusStateV2 :=
  let s :=
    if duplicate then s
    else
      let s := addRevocations s obs.revokedCertIds
      if obs.sequence > s.maxObservedSequence then
        { s with maxObservedSequence := obs.sequence }
      else s
  if obs.futureDated then
    { s with futureDatedObjectObserved := true, reconciliationRequired := true }
  else s

/-- The list disagrees with an observation of its sequence or with the floor. -/
def listContradictsFloor (s : RevocationStatusStateV2) (obs : RevocationObservationV2) : Bool :=
  sequenceConflict s.observations obs
    || (s.hasFloor && obs.sequence == s.floor && !equalSets obs.revokedCertIds s.acceptedCertIds)
    || (s.hasFloor && decide (obs.sequence < s.floor)
      && !containsAll s.acceptedCertIds obs.revokedCertIds)

/-- The list omits an ID retained at or below its sequence. -/
def listOmitsObserved (s : RevocationStatusStateV2) (obs : RevocationObservationV2) : Bool :=
  !containsAll obs.revokedCertIds
    (requiredForSnapshot s.observations obs.statusKeyEpoch obs.sequence)

/-- The three conflict tests of a list. -/
def markListConflicts (s : RevocationStatusStateV2) (obs : RevocationObservationV2) :
    RevocationStatusStateV2 × RevocationObservationV2 :=
  let p := markForkIf (listContradictsFloor s obs) (s, obs) obs.sequence
  let p := markForkIf (listOmitsObserved p.1 p.2) p obs.sequence
  markForkIf (snapshotConflictsWithPush p.1 p.2.statusKeyEpoch obs.sequence p.2.revokedCertIds) p
    obs.sequence

/-- Make the list the accepted snapshot: at the floor only when it is preferred,
above the floor always. -/
def acceptList (s : RevocationStatusStateV2) (list : RevocationListV2) (digest : Bytes)
    (obs : RevocationObservationV2) : V2Result RevocationStatusStateV2 :=
  if s.hasFloor && list.sequence == s.floor then
    let replace := match s.acceptedSnapshot with
      | none => true
      | some a => decide (a.sequence < list.sequence) || heartbeatPreferred P list digest a
    if replace then do
      let copy ← cloneList list
      .ok { s with acceptedSnapshot := some copy }
    else .ok s
  else do
    let copy ← cloneList list
    let s :=
      if s.hasFloor && list.sequence == s.floor + 1 then
        { s with
          hasPrecedingCheckpoint := true
          precedingFloor := s.floor
          precedingAcceptedCertIds := sortedUnique s.acceptedCertIds }
      else
        { s with
          hasPrecedingCheckpoint := false
          precedingFloor := 0
          precedingAcceptedCertIds := [] }
    .ok { s with
      acceptedSnapshot := some copy
      acceptedCertIds := sortedUnique obs.revokedCertIds
      hasFloor := true
      floor := list.sequence }

/-- Drop the reconciliation flags when the accepted list settles everything seen. -/
def recoverAfterList (s : RevocationStatusStateV2) (list : RevocationListV2)
    (obs : RevocationObservationV2) : RevocationStatusStateV2 :=
  if s.reconciliationRequired then
    let recoverable := s.forkSequence == 0
      || (decide (list.sequence > s.forkSequence)
        && decide (list.sequence ≥ s.maxObservedSequence))
    let fully := containsAll obs.revokedCertIds s.denyUnionCertIds
    if recoverable && fully && decide (list.sequence ≥ s.maxObservedSequence) then
      { s with
        reconciliationRequired := false
        futureDatedObjectObserved := false
        forkSequence := 0 }
    else s
  else if decide (list.sequence ≥ s.maxObservedSequence)
      && containsAll obs.revokedCertIds s.denyUnionCertIds then
    { s with reconciliationRequired := false }
  else s

/-- `push_obs`: a redelivered object is not retained twice. -/
def pushUnlessDuplicate (s : RevocationStatusStateV2) (obs : RevocationObservationV2)
    (duplicate : Bool) : RevocationStatusStateV2 :=
  if duplicate then s else pushObservation s obs

/-- Retain the list as it stands and require reconciliation. -/
def leaveGap (s : RevocationStatusStateV2) (obs : RevocationObservationV2) (duplicate : Bool) :
    RevocationStatusStateV2 :=
  pushUnlessDuplicate { s with reconciliationRequired := true } { obs with gap := true } duplicate

/-- Where the list goes once its conflicts are marked. -/
def placeList (s : RevocationStatusStateV2) (list : RevocationListV2) (digest : Bytes)
    (obs : RevocationObservationV2) (fresh : Bool)
    (duplicate? : Option RevocationObservationV2) : V2Result RevocationStatusStateV2 :=
  let duplicate := duplicate?.isSome
  if !fresh then
    if s.hasFloor && decide (list.sequence ≤ s.floor) then
      .ok (pushUnlessDuplicate s obs duplicate)
    else .ok (leaveGap s obs duplicate)
  else if obs.fork then .ok (pushUnlessDuplicate s obs duplicate)
  else if !s.hasFloor && (!containsAll obs.revokedCertIds s.denyUnionCertIds
      || decide (list.sequence < s.maxObservedSequence)) then
    .ok (leaveGap s obs duplicate)
  else if s.hasFloor && decide (list.sequence < s.floor) then
    .ok (pushUnlessDuplicate s obs duplicate)
  else if s.hasFloor && list.sequence == s.floor
      && !equalSets obs.revokedCertIds s.acceptedCertIds then
    let (s, obs) := markFork s obs list.sequence
    .ok (pushUnlessDuplicate s obs duplicate)
  else do
    let s ← acceptList P s list digest obs
    let s := recoverAfterList s list obs
    let obs := { obs with accepted := true }
    let priorAccepted := duplicate?.map (·.accepted)
    .ok (if !duplicate || (obs.accepted && priorAccepted == some false) then
        pushObservation s obs
      else s)

/-- Reduce one authenticated list. -/
def reduceList (s : RevocationStatusStateV2) (list : RevocationListV2) (digest : Bytes)
    (obs : RevocationObservationV2) (fresh : Bool) : V2Result RevocationStatusStateV2 :=
  let duplicate? := findObservation s.observations obs.statusKeyEpoch LIST list.sequence digest
  if listSettled P s list digest obs fresh duplicate? then .ok s
  else
    let s := observeObject s obs duplicate?.isSome
    let (s, obs) := markListConflicts s obs
    placeList P s list digest obs fresh duplicate?

/-- The observation of a list at `now`. -/
def listObservation (list : RevocationListV2) (epoch : Nat) (keyId : String)
    (digest bodyDigest setDigest : Bytes) (policy : RevocationStatusPolicyV2) (now : Int) :
    RevocationObservationV2 where
  objectType := LIST
  statusKeyEpoch := epoch
  statusKeyId := keyId
  sequence := list.sequence
  evidenceDigest := digest
  bodyDigest := bodyDigest
  revokedSetDigest := setDigest
  revokedCertIds := revokedIds list.revoked
  futureDated := beyondSkew list.updatedAt now policy.clockSkewSeconds

/-- The state the object is applied to: copied, bound to the issuer and epoch,
and held to the configured status key. -/
def bindState (state : RevocationStatusStateV2) (issuerId : String) (epoch : Nat)
    (statusKey : HybridPublicKey) (message : String) :
    V2Result (RevocationStatusStateV2 × String) := do
  let next ← cloneState state
  let next := initializeState next issuerId epoch
  let keyId ← keyIdPlain P statusKey
  refuseIf (next.statusKeyId != "" && next.statusKeyId != keyId) message
  .ok ({ next with statusKeyId := keyId }, keyId)

def applyListInner (state : RevocationStatusStateV2) (list : RevocationListV2)
    (boundIssuerId : String) (epoch : Nat) (statusKey : HybridPublicKey)
    (policy : RevocationStatusPolicyV2) (now : Int) : V2Result RevocationStatusStateV2 := do
  validatePolicy policy
  refuseIf (!validV2Timestamp now || epoch == 0 || decide ((epoch : Int) > maxSafe))
    "revocation list application has invalid time or status-key epoch"
  verifyRevocationListV2Signature P list boundIssuerId statusKey
  validateBinding state boundIssuerId epoch
  let digest ← statusEvidenceDigestListV2 P list
  let signable ← revocationListV2SignableBytes list
  let setDigest ← revokedSetDigest P list.revoked
  let (next, keyId) ← bindState P state boundIssuerId epoch statusKey
    "revocation list status key does not match configured epoch binding"
  let obs := listObservation list epoch keyId digest (P.sha384 signable) setDigest policy now
  reduceList P next list digest obs (listFresh list policy now)

/-- A state that belongs to an issuer is compacted after every step. -/
def compactBound (s : RevocationStatusStateV2) : RevocationStatusStateV2 :=
  if s.issuerId == "" then s else compact P s

/-- Verify a list against the caller-authenticated status-key binding and apply it. -/
def applyRevocationListV2 (state : RevocationStatusStateV2) (list : RevocationListV2)
    (boundIssuerId : String) (statusKeyEpoch : Nat) (statusKey : HybridPublicKey)
    (policy : RevocationStatusPolicyV2) (now : Int) : V2Result RevocationStatusStateV2 :=
  classify .statusObjectRejected do
    let r ← applyListInner P state list boundIssuerId statusKeyEpoch statusKey policy now
    .ok (compactBound P r)

/-! ## Pushes -/

/-- A push already retained, by its evidence or by its signed body. -/
def pushSettled (s : RevocationStatusStateV2) (push : RevocationPushV2)
    (obs : RevocationObservationV2) : Bool :=
  (findObservation s.observations obs.statusKeyEpoch PUSH push.sequence
      obs.evidenceDigest).isSome
    || s.observations.any fun o => o.statusKeyEpoch == obs.statusKeyEpoch
      && o.objectType == PUSH && o.sequence == push.sequence && o.bodyDigest == obs.bodyDigest

/-- The two conflict tests of a push. -/
def markPushConflicts (s : RevocationStatusStateV2) (obs : RevocationObservationV2) :
    RevocationStatusStateV2 × RevocationObservationV2 :=
  let p := markForkIf (sequenceConflict s.observations obs) (s, obs) obs.sequence
  match snapshotOmissionForPush p.1 p.2.statusKeyEpoch p.2 with
  | some conflicting => markFork p.1 p.2 conflicting
  | none => p

/-- A push at the floor must repeat what the floor already accepted. -/
def placePushAtFloor (s : RevocationStatusStateV2) (push : RevocationPushV2)
    (obs : RevocationObservationV2) : RevocationStatusStateV2 :=
  let checkpointMismatch := s.hasPrecedingCheckpoint && s.precedingFloor == push.sequence - 1
    && !equalSets s.acceptedCertIds (s.precedingAcceptedCertIds ++ obs.revokedCertIds)
  if checkpointMismatch || !containsAll s.acceptedCertIds obs.revokedCertIds then
    let (s, obs) := markFork s obs push.sequence
    pushObservation s obs
  else if !obs.fork && containsAll s.acceptedCertIds obs.revokedCertIds then
    -- The accepted full set already proves these entries.
    pushObservation s obs
  else pushObservation { s with reconciliationRequired := true } { obs with gap := true }

/-- Where the push goes once its conflicts are marked. -/
def placePush (s : RevocationStatusStateV2) (push : RevocationPushV2)
    (obs : RevocationObservationV2) : RevocationStatusStateV2 :=
  let expected := if s.hasFloor then s.floor + 1 else 1
  if s.hasFloor && decide (push.sequence ≤ s.floor) then
    if push.sequence == s.floor then placePushAtFloor s push obs
    else
      let (s, obs) := markForkIf (!containsAll s.acceptedCertIds obs.revokedCertIds) (s, obs)
        push.sequence
      pushObservation s obs
  else if !s.hasFloor || push.sequence != expected || s.reconciliationRequired
      || obs.futureDated then
    pushObservation { s with reconciliationRequired := true } { obs with gap := !obs.fork }
  else
    pushObservation
      { s with
        acceptedCertIds := sortedUnique (s.acceptedCertIds ++ obs.revokedCertIds)
        hasPrecedingCheckpoint := false
        precedingFloor := 0
        precedingAcceptedCertIds := []
        hasFloor := true
        floor := push.sequence }
      { obs with accepted := true }

/-- Reduce one authenticated push. -/
def reducePush (s : RevocationStatusStateV2) (push : RevocationPushV2)
    (obs : RevocationObservationV2) : RevocationStatusStateV2 :=
  if pushSettled s push obs then s
  else
    let s := observeObject s obs false
    let (s, obs) := markPushConflicts s obs
    placePush s push obs

/-- The observation of a push at `now`. -/
def pushObservationOf (push : RevocationPushV2) (epoch : Nat) (keyId : String)
    (digest bodyDigest setDigest : Bytes) (policy : RevocationStatusPolicyV2) (now : Int) :
    RevocationObservationV2 where
  objectType := PUSH
  statusKeyEpoch := epoch
  statusKeyId := keyId
  sequence := push.sequence
  evidenceDigest := digest
  bodyDigest := bodyDigest
  revokedSetDigest := setDigest
  revokedCertIds := revokedIds push.revoked
  futureDated := beyondSkew push.pushedAt now policy.clockSkewSeconds

def applyPushInner (state : RevocationStatusStateV2) (push : RevocationPushV2)
    (boundIssuerId : String) (epoch : Nat) (statusKey : HybridPublicKey)
    (policy : RevocationStatusPolicyV2) (now : Int) : V2Result RevocationStatusStateV2 := do
  validatePolicy policy
  refuseIf (!validV2Timestamp now || epoch == 0 || decide ((epoch : Int) > maxSafe))
    "revocation push application has invalid time or status-key epoch"
  verifyRevocationPushV2Signature P push boundIssuerId statusKey
  validateBinding state boundIssuerId epoch
  let digest ← statusEvidenceDigestPushV2 P push
  let signable ← revocationPushV2SignableBytes push
  let setDigest ← revokedSetDigest P push.revoked
  let (next, keyId) ← bindState P state boundIssuerId epoch statusKey
    "revocation push status key does not match configured epoch binding"
  let obs := pushObservationOf push epoch keyId digest (P.sha384 signable) setDigest policy now
  .ok (reducePush next push obs)

/-- Verify and apply one signed push.  Noncontiguous or future pushes join the
deny union but make current status unavailable until repaired. -/
def applyRevocationPushV2 (state : RevocationStatusStateV2) (push : RevocationPushV2)
    (boundIssuerId : String) (statusKeyEpoch : Nat) (statusKey : HybridPublicKey)
    (policy : RevocationStatusPolicyV2) (now : Int) : V2Result RevocationStatusStateV2 :=
  classify .statusObjectRejected do
    let r ← applyPushInner P state push boundIssuerId statusKeyEpoch statusKey policy now
    .ok (compactBound P r)

/-! ## Epoch transitions -/

/-- Apply an already-authenticated status-key epoch transition, preserving
issuer-wide denials and making old accepted state unusable. -/
def transitionRevocationStatusEpochV2 (state : RevocationStatusStateV2) (issuerId : String)
    (nextEpoch : Nat) (nextStatusKey : HybridPublicKey) : V2Result RevocationStatusStateV2 :=
  classify .statusObjectRejected do
    refuseIf (issuerId == "" || nextEpoch == 0 || decide ((nextEpoch : Int) > maxSafe))
      "status-key epoch transition has invalid issuer or epoch"
    refuseIf (state.issuerId != issuerId || state.statusKeyEpoch == 0
        || decide ((state.statusKeyEpoch : Int) ≥ maxSafe)
        || nextEpoch != state.statusKeyEpoch + 1)
      "status-key epoch transition must advance exactly one configured issuer epoch"
    withContext (validateBinding state issuerId state.statusKeyEpoch)
      "cannot transition malformed status state"
    withContext (validateAcceptedState P state)
      "cannot transition invalid accepted status state"
    let keyId ← keyIdPlain P nextStatusKey
    refuseIf (keyId == state.statusKeyId || state.retiredStatusKeyIds.contains keyId)
      "status-key epoch transition cannot reuse a current or retired status key"
    let next ← cloneState state
    .ok { next with
      retiredStatusKeyIds := sortedUnique (next.retiredStatusKeyIds ++ [state.statusKeyId])
      statusKeyEpoch := nextEpoch
      statusKeyId := keyId
      hasFloor := false
      floor := 0
      acceptedSnapshot := none
      acceptedCertIds := []
      hasPrecedingCheckpoint := false
      precedingFloor := 0
      precedingAcceptedCertIds := []
      maxObservedSequence := 0
      forkSequence := 0
      reconciliationRequired := false
      futureDatedObjectObserved := false }

end RatifyProtocol.V2
