import RatifyProtocol.Foundation.Operation
import RatifyProtocol.Foundation.Run
import RatifyProtocol.V2.Journal.Transition
import RatifyProtocol.V2.Status.Objects
set_option autoImplicit false

/-!
# Journal: the anchored store and its writers

The reference store of `v2/reference/journal.rs`, the journal operations of
`v2/journal.rs` and `v2/status_provenance.rs`, and any number of writers that
load, update and compare-and-swap in any order.
-/

namespace RatifyProtocol.V2

open Foundation

variable (J : JournalPrimitives)

/-! ## The reference store -/

/-- The stored snapshot bytes and the anchored head. -/
structure JournalStore where
  head : SecurityJournalHeadV2
  snapshot : Bytes
  deriving DecidableEq, Repr

/-- Why a compare-and-swap did not commit. -/
inductive SecurityJournalStoreErrorV2 where
  | conflict
  | failed (e : V2Error)
  deriving DecidableEq, Repr

/-- The only valid genesis record. -/
def emptySecurityJournalV2 : SecurityJournalV2 :=
  let journal : SecurityJournalV2 := { version := securityJournalVersionV2 }
  { journal with
    digest := match securityJournalDigestV2 J journal with
      | .ok digest => digest
      | .error _ => "" }

namespace JournalStore

/-- A store anchored at the genesis journal. -/
def new : V2Result JournalStore := do
  let genesis := emptySecurityJournalV2 J
  let snapshot ← exportSecurityJournalSnapshotV2 J genesis
  .ok { head := { generation := genesis.generation, digest := genesis.digest }, snapshot }

/-- Import the stored snapshot against the anchored head. -/
def load (store : JournalStore) : V2Result (SecurityJournalV2 × SecurityJournalHeadV2) := do
  let journal ← importSecurityJournalSnapshotV2 J store.snapshot store.head
  .ok (journal, store.head)

/-- Replace head and snapshot together after every check passed. -/
def compareAndSwap (expected : SecurityJournalHeadV2) (next : SecurityJournalV2) :
    Operation JournalStore SecurityJournalStoreErrorV2 Unit := do
  let state ← Operation.get
  if expected ≠ state.head then Operation.fail .conflict
  else do
    let snapshot ← Operation.lift <| Except.mapError .failed do
      let current ← importSecurityJournalSnapshotV2 J state.snapshot state.head
      validateSecurityJournalTransitionInner J current next
      exportSecurityJournalSnapshotV2 J next
    Operation.set { head := { generation := next.generation, digest := next.digest }, snapshot }

end JournalStore

/-! ## Loading and committing -/

/-- Load a version 2 record that matches the head returned with it. -/
def loadAnchoredSecurityJournalV2 (store : JournalStore) : V2Result SecurityJournalV2 := do
  let (current, head) ← withContext (store.load J) "load rollback-protected security journal"
  refuseIf (head.generation != current.generation || head.digest == ""
      || head.digest != current.digest)
    "loaded security journal is not anchored by the store head"
  refuseIf (current.version != securityJournalVersionV2)
    s!"security journal version {current.version} requires migration"
  withContext (validateSecurityJournalInner J current) "validate loaded security journal"
  .ok current

/-- A failure of the store under a label; a conflict stays a conflict. -/
def SecurityJournalStoreErrorV2.context (e : SecurityJournalStoreErrorV2) (label : String) :
    SecurityJournalStoreErrorV2 :=
  match e with
  | .conflict => .conflict
  | .failed e => .failed (e.context label)

/-- Compact, canonicalize, chain, validate and commit `next` against the head
of `current`; return `current` when the content did not change. -/
def commitSecurityJournalTransitionV2 (current next : SecurityJournalV2) :
    Operation JournalStore SecurityJournalStoreErrorV2 SecurityJournalV2 := do
  let prepared ← Operation.lift
    ((prepareSecurityJournalTransitionV2 J current next).mapError .failed)
  match prepared with
  | none => pure current
  | some record => do
    Operation.mapError (·.context "commit rollback-protected security journal")
      (JournalStore.compareAndSwap J
        { generation := current.generation, digest := current.digest } record)
    pure record

/-! ## Updates -/

def requireJournalStatusKeyV2 (P : Primitives) (journal : SecurityJournalV2) (issuerId : String)
    (epoch : Nat) (publicKey : HybridPublicKey) : V2Result Unit := do
  refuseIf (issuerId == "" || epoch == 0) "issuer and status-key epoch are required"
  match statusBindingAtEpoch journal.statusKeyHistory issuerId epoch with
  | none => plain "issuer status key is not present in the retained trust history"
  | some binding => do
    let actual ← statusKeyBindingV2 P issuerId epoch publicKey
    refuseIf (binding != actual)
      "status key does not match the retained issuer and epoch binding"
    refuseIf (!(journal.statusByIssuer.get? issuerId).any fun state =>
        state.statusKeyEpoch == epoch && state.statusKeyId == binding.statusKeyId)
      "status key is not the current issuer epoch"

/-- One issuer's state, empty when the journal holds none. -/
def SecurityJournalV2.issuerState (journal : SecurityJournalV2) (issuerId : String) :
    RevocationStatusStateV2 :=
  (journal.statusByIssuer.get? issuerId).getD {}

def SecurityJournalV2.setIssuerState (journal : SecurityJournalV2) (issuerId : String)
    (state : RevocationStatusStateV2) : SecurityJournalV2 :=
  { journal with statusByIssuer := journal.statusByIssuer.insert issuerId state }

/-- The issuer, status key, policy and time a status object is applied under. -/
structure StatusTarget where
  issuerId : String
  epoch : Nat
  publicKey : HybridPublicKey
  policy : RevocationStatusPolicyV2
  now : Int

/-- One object through the reducer. -/
def StatusTarget.reduce (P : Primitives) (at_ : StatusTarget) (state : RevocationStatusStateV2) :
    StatusObject → V2Result RevocationStatusStateV2
  | .list list =>
    applyRevocationListV2 P state list at_.issuerId at_.epoch at_.publicKey at_.policy at_.now
  | .push push =>
    applyRevocationPushV2 P state push at_.issuerId at_.epoch at_.publicKey at_.policy at_.now

/-- The loop over the objects of a batch. -/
def StatusTarget.reduceAll (P : Primitives) (at_ : StatusTarget)
    (state : RevocationStatusStateV2) : List StatusObject → V2Result RevocationStatusStateV2
  | [] => .ok state
  | object :: objects => do
    let next ← at_.reduce P state object
    at_.reduceAll P next objects

/-- What a writer asks of the journal. -/
inductive JournalUpdate where
  | recordSecurityKeyRole (role : String) (publicKey : HybridPublicKey)
  | configureStatusKeyEpoch (issuerId : String) (epoch : Nat) (publicKey : HybridPublicKey)
  | applyStatusObject (target : StatusTarget) (object : StatusObject)
  | applyStatusBatch (target : StatusTarget) (objects : List StatusObject)

/-- The state of an issuer whose first status key was configured. -/
def firstEpochState (issuerId : String) (epoch : Nat) (keyId : String) :
    RevocationStatusStateV2 :=
  { issuerId, statusKeyEpoch := epoch, statusKeyId := keyId }

/-- The update of `configure_status_key_epoch_v2`. -/
def configureStatusKeyEpoch (P : Primitives) (journal : SecurityJournalV2) (issuerId : String)
    (epoch : Nat) (publicKey : HybridPublicKey) : V2Result SecurityJournalV2 := do
  let journal ← registerStatusKeyEpochInner P journal issuerId epoch publicKey
  match journal.statusByIssuer.get? issuerId with
  | some prior =>
    if epoch = prior.statusKeyEpoch then do
      requireJournalStatusKeyV2 P journal issuerId epoch publicKey
      .ok journal
    else do
      let updated ← transitionRevocationStatusEpochV2 P prior issuerId epoch publicKey
      .ok (journal.setIssuerState issuerId updated)
  | none => do
    refuseIf (epoch != 1) "first status-key epoch must be 1"
    let keyId ← keyIdPlain P publicKey
    .ok (journal.setIssuerState issuerId (firstEpochState issuerId epoch keyId))

namespace JournalUpdate

/-- What the update makes of a loaded journal. -/
def apply (P : Primitives) (journal : SecurityJournalV2) :
    JournalUpdate → V2Result SecurityJournalV2
  | recordSecurityKeyRole role publicKey => do
    refuseIf (role == "status") "status keys must be recorded with their issuer and epoch"
    registerKeyRoleInner P journal role publicKey
  | configureStatusKeyEpoch issuerId epoch publicKey =>
    V2.configureStatusKeyEpoch P journal issuerId epoch publicKey
  | applyStatusObject target object => do
    requireJournalStatusKeyV2 P journal target.issuerId target.epoch target.publicKey
    let state ← target.reduce P (journal.issuerState target.issuerId) object
    .ok (journal.setIssuerState target.issuerId state)
  | applyStatusBatch target objects => do
    let state ← target.reduceAll P (journal.issuerState target.issuerId) objects
    .ok (journal.setIssuerState target.issuerId state)

/-- Update a loaded journal and commit the result. -/
def commit (u : JournalUpdate) (current : SecurityJournalV2) :
    Operation JournalStore SecurityJournalStoreErrorV2 SecurityJournalV2 := do
  let next ← Operation.lift ((u.apply J.toPrimitives current).mapError .failed)
  commitSecurityJournalTransitionV2 J current next

end JournalUpdate

/-! ## Writers -/

/-- The store, what each writer loaded last, and the records committed so far,
which the source does not keep: the answer of every commit that moved the head. -/
structure JournalWorld (ω : Type) where
  store : JournalStore
  loaded : ω → Option SecurityJournalV2
  committed : List SecurityJournalV2

variable {ω : Type} [DecidableEq ω]

/-- A writer loads the journal, or commits an update of the journal it loaded.
Other writers take steps in between. -/
inductive JournalEvent (ω : Type) where
  | load (w : ω)
  | commit (w : ω) (u : JournalUpdate)

namespace JournalWorld

/-- The world before any writer came. -/
def start (store : JournalStore) : JournalWorld ω :=
  { store, loaded := fun _ => none, committed := [emptySecurityJournalV2 J] }

/-- The answer is a record just committed when the head moved. -/
def record (s : JournalWorld ω) (store : JournalStore) (answer : SecurityJournalV2) :
    List SecurityJournalV2 :=
  if store.head = s.store.head then s.committed else s.committed ++ [answer]

def perform (s : JournalWorld ω) : JournalEvent ω → JournalWorld ω
  | .load w =>
    match loadAnchoredSecurityJournalV2 J s.store with
    | .error _ => s
    | .ok current => { s with loaded := fun v => if v = w then some current else s.loaded v }
  | .commit w u =>
    match s.loaded w with
    | none => s
    | some current =>
      match u.commit J current s.store with
      | (.error _, store) => { s with store }
      | (.ok answer, store) => { s with store, committed := s.record store answer }

end JournalWorld

/-- Any interleaving of the writers' steps. -/
abbrev JournalRun (s : JournalWorld ω) (es : List (JournalEvent ω)) (t : JournalWorld ω) : Prop :=
  Run (fun a e b => b = JournalWorld.perform J a e) s es t

end RatifyProtocol.V2
