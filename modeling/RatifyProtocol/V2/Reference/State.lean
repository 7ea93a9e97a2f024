import RatifyProtocol.Foundation.OrderedMap
import RatifyProtocol.Foundation.Operation
import RatifyProtocol.V2.ReleaseRecord
import Mathlib.Data.Prod.Lex
import Mathlib.Data.List.Lex
set_option autoImplicit false

/-!
# Reference store: state

The data model of `v2/reference/store.rs`: the claims, the stream sequences, the
rate counters and the receipt outbox that one store guards, and the anchored
change by which all of them are written.
-/

namespace RatifyProtocol.V2

open Foundation

/-! ## Keys -/

/-- The durable stream-state key. -/
structure StreamKey where
  «namespace» : String
  agentId : String
  streamId : Bytes

theorem map_toNat_injective : Function.Injective (List.map UInt8.toNat) :=
  List.map_injective_iff.mpr fun _ _ h => UInt8.toNat_inj.mp h

instance : LinearOrder StreamKey :=
  LinearOrder.lift'
    (fun k => toLex (k.namespace, toLex (k.agentId, k.streamId.map UInt8.toNat)))
    fun a b h => by
      obtain ⟨hns, h⟩ := Prod.mk.inj (toLex.injective h)
      obtain ⟨hagent, h⟩ := Prod.mk.inj (toLex.injective h)
      have hstream := map_toNat_injective h
      cases a
      cases b
      simp_all

/-- The key of one rolling-window counter. -/
structure RateKey where
  issuerId : String
  certId : String
  windowS : Int

instance : LinearOrder RateKey :=
  LinearOrder.lift' (fun k => toLex (k.issuerId, toLex (k.certId, k.windowS)))
    fun a b h => by
      obtain ⟨hissuer, h⟩ := Prod.mk.inj (toLex.injective h)
      obtain ⟨hcert, h⟩ := Prod.mk.inj (toLex.injective h)
      cases a
      cases b
      simp_all

/-- The counter a sealed reservation draws on. -/
def V2RateReservation.key (item : V2RateReservation) : RateKey :=
  { issuerId := item.issuerId, certId := item.certId, windowS := item.windowS }

/-- The stream a claim advances. -/
def streamKey (claim : V2ChallengeClaim) : StreamKey :=
  { «namespace» := claim.namespace, agentId := claim.agentId,
    streamId := claim.streamId.getD [] }

/-! ## Records -/

inductive ClaimState where
  | evaluating
  | terminal
  deriving DecidableEq, Repr

/-- One claim with its evaluator lease, its terminal result and its release. -/
structure ClaimRecord where
  claim : V2ChallengeClaim
  ownerDigest : Bytes
  leaseExpiresAt : Int
  state : ClaimState
  terminal : Bytes
  receiptBody : Bytes
  allowHorizon : Int
  claimedAt : Int
  finalizedAt : Int
  release : Option V2ReleaseRecord
  progress : V2EvaluationProgress
  abandoned : Bool
  /-- Index into the outbox; `none` until the terminal commit. -/
  outboxIndex : Option Nat
  deriving DecidableEq, Repr

/-- One receipt-log position, assigned at terminal commit.  `wire` is `none`
until the entry is signed and appended. -/
structure OutboxEntry where
  claimId : String
  body : Bytes
  wire : Option Bytes
  digest : Bytes
  ack : Option V2CheckpointAcknowledgement
  deriving DecidableEq, Repr

/-- The complete reference store state. -/
structure StoreState where
  now : Int
  highWater : Int
  leaseSeconds : Int
  claims : OrderedMap String ClaimRecord
  streams : OrderedMap StreamKey Int
  verifierKey : HybridPublicKey
  verifierId : String
  logId : String
  outbox : List OutboxEntry
  ackWithheld : Bool
  logFrozen : Bool
  checkpointFrozen : Bool
  signerFailure : Bool
  rateAtFinalization : Bool
  rateCommits : OrderedMap RateKey (List Int)

variable (P : Primitives)

/-- `Store::new`. -/
def StoreState.new (now leaseSeconds : Int) (logId : String) (verifierKey : HybridPublicKey) :
    V2Result StoreState := do
  let id ← keyIdV2 P verifierKey
  if leaseSeconds ≤ 0 ∨ (utf8 logId).length ≠ 32 then
    err .configurationInvalid
      "v2reference: lease must be positive and log ID 32 hex characters"
  else
    .ok { now, highWater := now, leaseSeconds, claims := .empty, streams := .empty, verifierKey,
          verifierId := id, logId, outbox := [], ackWithheld := false, logFrozen := false,
          checkpointFrozen := false, signerFailure := false, rateAtFinalization := false,
          rateCommits := .empty }

/-! ## The anchor -/

/-- The store with what its anchor writes to. -/
structure Anchored (ω : Type) where
  store : StoreState
  device : ω

variable {ω : Type}

/-- The configured anchor: asked with the state before and after a change, it
answers and may change what it is bound to. -/
abbrev StoreAnchor (ω : Type) := Option (StoreState → StoreState → ω → Except V2Error Unit × ω)

/-- A store operation. -/
abbrev StoreM (ω α : Type) := Operation (Anchored ω) V2StoreError α

/-- The store, read. -/
def getStore : StoreM ω StoreState := fun s => (.ok s.store, s)

/-- A change of the store that needs no anchor. -/
def modifyStore (f : StoreState → StoreState) : StoreM ω Unit :=
  fun s => (.ok (), { s with store := f s.store })

/-- `change_locked`: apply `mutate` as one durable security-state change,
undone when the anchor refuses it. -/
def changeLocked (anchor : StoreAnchor ω) (mutate : StoreState → StoreState) : StoreM ω Unit :=
  fun s =>
    match anchor with
    | none => (.ok (), { s with store := mutate s.store })
    | some ask =>
      let before := s.store
      let after := mutate before
      match ask before after s.device with
      | (.ok (), device) => (.ok (), { store := after, device })
      | (.error e, device) =>
        (storeErr .claimStoreUnavailable
          ("v2reference: durable state change was not anchored: " ++ e.message),
         { store :=
             { after with
               claims := before.claims, streams := before.streams, outbox := before.outbox,
               rateCommits := before.rateCommits, logFrozen := before.logFrozen },
           device })

/-! ## The clock -/

/-- One authoritative reading; a reading below the greatest one already returned
is a clock regression. -/
def readClockLocked : StoreM ω Int := do
  let s ← getStore
  if s.now < s.highWater then
    .fail (.classified (V2Error.new .clockRegressed
      s!"v2reference: authoritative clock {s.now} is below its high-water mark {s.highWater}"))
  else if !(0 ≤ s.now && s.now ≤ v2MaxTimestampSeconds) then
    .fail (.classified (V2Error.new .claimStoreUnavailable
      s!"v2reference: authoritative clock {s.now} is outside the timestamp domain"))
  else do
    modifyStore fun s => { s with highWater := s.now }
    pure s.now

end RatifyProtocol.V2
