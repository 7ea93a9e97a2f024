import RatifyProtocol.V2.Status.State
set_option autoImplicit false

/-!
# Status: canonical form and compaction

`canonicalize_state` and `compact` of `v2/status.rs`.  Compaction merges the
observations that share a semantic key and strips revoked IDs that another
observation already witnesses, unless the observation is still needed in full.
-/

namespace RatifyProtocol.V2

open Foundation

variable (P : Primitives)

/-- The components of `semantic_key`, whose rendering separates them by colons. -/
structure SemanticKey where
  statusKeyEpoch : Nat
  objectType : Nat
  sequence : Int
  digest : Bytes
  futureDated : Bool
  fork : Bool
  deriving DecidableEq, Repr

def semanticKey (o : RevocationObservationV2) : SemanticKey where
  statusKeyEpoch := o.statusKeyEpoch
  objectType := o.objectType
  sequence := o.sequence
  digest := if o.objectType == LIST then o.revokedSetDigest else o.bodyDigest
  futureDated := o.futureDated
  fork := o.fork

/-- Whether an observation must keep every ID it names. -/
def mustRetain (s : RevocationStatusStateV2) (o : RevocationObservationV2) : Bool :=
  if o.statusKeyEpoch != s.statusKeyEpoch then false
  else if s.acceptedSnapshot.any fun snap => o.objectType == PUSH && o.accepted
      && decide (o.sequence > snap.sequence) && decide (o.sequence ≤ s.floor) then true
  else s.reconciliationRequired
    && (decide (o.sequence > s.floor) || o.fork || o.gap || o.futureDated)

/-- Every string set in snapshot order; the order of observations stays. -/
def canonicalizeState (s : RevocationStatusStateV2) : RevocationStatusStateV2 :=
  { s with
    retiredStatusKeyIds := sortedUnique s.retiredStatusKeyIds
    acceptedCertIds := sortedUnique s.acceptedCertIds
    precedingAcceptedCertIds := sortedUnique s.precedingAcceptedCertIds
    denyUnionCertIds := sortedUnique s.denyUnionCertIds
    observations := s.observations.map fun o =>
      { o with revokedCertIds := sortedUnique o.revokedCertIds } }

/-- The sort key of an observation: epoch, sequence, type, set digest, body digest. -/
def compareObservations (a b : RevocationObservationV2) : Ordering :=
  (compare a.statusKeyEpoch b.statusKeyEpoch).then <|
  (compare a.sequence b.sequence).then <|
  (compare a.objectType b.objectType).then <|
  (compare a.revokedSetDigest b.revokedSetDigest).then <|
  compare a.bodyDigest b.bodyDigest

/-- The IDs not witnessed yet, in order and each once. -/
def newWitnesses (witnessed : List String) : List String → List String
  | [] => []
  | id :: ids =>
    if witnessed.contains id then newWitnesses witnessed ids
    else id :: newWitnesses (id :: witnessed) ids

/-- The loop state of `compact`: what is retained, under the key each entry was
inserted with, and the IDs already witnessed. -/
structure CompactLoop where
  retained : List (SemanticKey × RevocationObservationV2)
  witnessed : List String

/-- The digest of the accepted snapshot; empty when there is none. -/
def baseDigest (s : RevocationStatusStateV2) : Bytes :=
  match s.acceptedSnapshot with
  | none => []
  | some l =>
    match statusEvidenceDigestListV2 P l with
    | .ok d => d
    | .error _ => []

/-- The observation is the accepted snapshot's own. -/
def acceptedBase (s : RevocationStatusStateV2) (base : Bytes) (o : RevocationObservationV2) :
    Bool :=
  !base.isEmpty && o.statusKeyEpoch == s.statusKeyEpoch && o.objectType == LIST
    && s.acceptedSnapshot.map (·.sequence) == some o.sequence && o.evidenceDigest == base

/-- Fold one more observation of a key into the retained one. -/
def mergeInto (s : RevocationStatusStateV2) (base : Bytes) (o : RevocationObservationV2)
    (ids : List String) (prior : RevocationObservationV2) : RevocationObservationV2 :=
  let accepted := prior.accepted || o.accepted
  let prior := { prior with
    accepted
    fork := prior.fork || o.fork
    gap := prior.gap || o.gap
    futureDated := (prior.futureDated || o.futureDated) && !accepted
    revokedCertIds := sortedUnique (prior.revokedCertIds ++ ids) }
  if acceptedBase s base o then
    { prior with
      evidenceDigest := o.evidenceDigest
      accepted := true
      gap := prior.gap && s.reconciliationRequired
      futureDated := false }
  else prior

/-- One round of `compact`. -/
def compactStep (s : RevocationStatusStateV2) (base : Bytes) (c : CompactLoop)
    (o : RevocationObservationV2) : CompactLoop :=
  let fresh := newWitnesses c.witnessed o.revokedCertIds
  let full := acceptedBase s base o || mustRetain s o
  let ids := if full then o.revokedCertIds else fresh
  let key := semanticKey o
  let witnessed := c.witnessed ++ fresh
  if c.retained.any fun e => e.1 == key then
    { retained := c.retained.map fun e =>
        if e.1 == key then (e.1, mergeInto s base o ids e.2) else e
      witnessed }
  else
    { retained := c.retained ++ [(key, { o with revokedCertIds := ids })], witnessed }

/-- The entry of the accepted snapshot whose gap mark is dropped at the end. -/
def isSettledBase (s : RevocationStatusStateV2) (base : Bytes) (snap : RevocationListV2)
    (o : RevocationObservationV2) : Bool :=
  o.statusKeyEpoch == s.statusKeyEpoch && o.objectType == LIST && o.sequence == snap.sequence
    && o.accepted && !o.futureDated && o.evidenceDigest == base

/-- Apply `f` to the first element that satisfies `p`. -/
def modifyFirst {α : Type} (p : α → Bool) (f : α → α) : List α → List α
  | [] => []
  | x :: xs => if p x then f x :: xs else x :: modifyFirst p f xs

/-- Drop the gap mark of the accepted snapshot when nothing is left to reconcile. -/
def settleBase (s : RevocationStatusStateV2) (base : Bytes)
    (retained : List RevocationObservationV2) : List RevocationObservationV2 :=
  if s.reconciliationRequired then retained
  else match s.acceptedSnapshot with
    | none => retained
    | some snap =>
      modifyFirst (isSettledBase s base snap) (fun o => { o with gap := false }) retained

/-- Merge, strip and canonicalize one issuer's observations. -/
def compact (s : RevocationStatusStateV2) : RevocationStatusStateV2 :=
  let base := baseDigest P s
  let sorted := s.observations.insertionSort fun a b => compareObservations a b ≠ .gt
  let loop := sorted.foldl (compactStep s base) { retained := [], witnessed := [] }
  canonicalizeState { s with observations := settleBase s base (loop.retained.map (·.2)) }

end RatifyProtocol.V2
