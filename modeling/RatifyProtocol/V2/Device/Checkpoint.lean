import RatifyProtocol.V2.Device.Component
import RatifyProtocol.V2.Reference.LogIntegrity
set_option autoImplicit false

/-!
# Device checkpoint and uplink

`v2/reference/offline_device.rs`, the primary's side of the component: submitting
appended entries, and uploading the receipts of the acknowledged prefix.
-/

namespace RatifyProtocol.V2

open Foundation

/-! ## What a primary shows -/

/-- `appended_entry`: the entry hash of an appended receipt-log entry. -/
def appendedEntry (s : StoreState) (sequence : Int) : Option Bytes :=
  if sequence < 1 then none
  else ((s.outbox[(sequence - 1).toNat]?).filter fun e => e.wire.isSome).map (·.digest)

/-- `appended_wire`: the signed wire of an appended receipt-log entry. -/
def appendedWire (s : StoreState) (sequence : Int) : Option Bytes :=
  if sequence < 1 then none else (s.outbox[(sequence - 1).toNat]?).bind (·.wire)

/-- `log_length`: the appended entries at the start of the log. -/
def logLength (s : StoreState) : Nat := (s.outbox.takeWhile fun e => e.wire.isSome).length

/-- A primary, as one call reads it: a store whose receipt log is intact. -/
structure LoggedPrimary (P : Primitives) where
  store : StoreState
  intact : LogIntact P store

/-! ## The checkpoint -/

/-- A component with the check of its signature under the pinned key, given the
message and the signature. -/
structure DeviceCheckpoint where
  component : DeviceComponent
  verify : Bytes → Bytes → Bool

variable (D : DeviceCheckpoint)

def DeviceCheckpoint.toAck (a : DeviceAcknowledgement) :
    Except DeviceError V2CheckpointAcknowledgement :=
  if D.verify (deviceAckMessage a) a.signature then
    .ok { logId := a.logId, sequence := a.sequence, entryHash := a.entryHash,
          timestamp := a.timestamp }
  else .error (.store (.unavailable
    "v2reference: device acknowledgement signature does not verify"))

/-- `acknowledge`: submit the primary's appended entry with the composed
complete-state digest.  `now` is the clock reading taken first. -/
def DeviceCheckpoint.acknowledge (primary : StoreState) (now : V2StoreResult Int)
    (state : V2Result Bytes) (logId : String) (sequence : Int)
    (previousEntryHash entryHash : Bytes) : ComponentM V2CheckpointAcknowledgement :=
  if appendedEntry primary sequence ≠ some entryHash then .fail .notAcknowledged
  else
    match state with
    | .error e => .fail (.store (.classified e))
    | .ok state => do
      let ack ← D.component.commitAt { now, logId, sequence, previousEntryHash, entryHash, state }
      .lift (D.toAck ack)

/-- `resubmit`: retry the exact tuple for `sequence`. -/
def DeviceCheckpoint.resubmit (primary : StoreState) (now : V2StoreResult Int)
    (state : V2Result Bytes) (sequence : Int) : ComponentM V2CheckpointAcknowledgement :=
  match appendedEntry primary sequence with
  | none => .fail .notAcknowledged
  | some entry =>
    match if sequence > 1 then appendedEntry primary (sequence - 1)
      else some (List.replicate 48 0) with
    | none => .fail .notAcknowledged
    | some previous => D.acknowledge primary now state primary.logId sequence previous entry

/-- The component already holds this entry at `sequence`. -/
def alreadyAcknowledged (logId : String) (sequence : Int) (entry : Bytes) (s : ComponentState) :
    Bool :=
  match getRecord logId sequence s with
  | .ok existing => existing.entryHash == entry
  | .error _ => false

/-- `submit_pending`, from entry `next` on: submit, in log order, every appended
entry that the component has not acknowledged with the same entry hash, up to the
first failure.  `ask` gives the clock reading and the composed digest at each
submission. -/
def DeviceCheckpoint.submitPendingFrom (primary : StoreState)
    (ask : Int → V2StoreResult Int × V2Result Bytes) :
    Nat → Int → ComponentState → (List Int × Option DeviceError) × ComponentState
  | 0, _, s => (([], none), s)
  | fuel + 1, next, s =>
    match appendedEntry primary next with
    | none => (([], none), s)
    | some entry =>
      if alreadyAcknowledged primary.logId next entry s then
        submitPendingFrom primary ask fuel (next + 1) s
      else
        match D.resubmit primary (ask next).1 (ask next).2 next s with
        | (.error e, t) => (([], some e), t)
        | (.ok _, t) =>
          let ((acknowledged, failure), u) := submitPendingFrom primary ask fuel (next + 1) t
          ((next :: acknowledged, failure), u)

/-- `submit_pending`; the loop ends at the latest behind the last outbox entry. -/
def DeviceCheckpoint.submitPending (primary : StoreState)
    (ask : Int → V2StoreResult Int × V2Result Bytes) (s : ComponentState) :
    (List Int × Option DeviceError) × ComponentState :=
  D.submitPendingFrom primary ask primary.outbox.length 1 s

/-- The result of the startup comparison. -/
inductive DeviceStartupStatus where
  | ready
  | primaryBehind
  | stateDigestMismatch
  | checkpointFrozen
  deriving DecidableEq, Repr

/-- `startup`: compare the primary with the component head.  `state` is the
complete-state digest recomputed from the primary's records. -/
def startup (primary : StoreState) (state : V2Result Bytes) (s : ComponentState) :
    DeviceStartupStatus :=
  if s.frozen then .checkpointFrozen
  else if logLength primary < s.records.length then .primaryBehind
  else
    match state with
    | .ok state => if s.state = some state then .ready else .stateDigestMismatch
    | .error _ => .stateDigestMismatch

/-! ## The uplink -/

/-- The last uploaded sequence and the receipts uploaded so far. -/
structure UplinkState where
  uploaded : Nat
  collected : List Bytes
  deriving DecidableEq, Repr

def UplinkState.new : UplinkState := { uploaded := 0, collected := [] }

/-- One round of the upload loop: send the next receipt of the primary. -/
def uploadNext (primary : StoreState) (u : UplinkState) : Option UplinkState :=
  (appendedWire primary ((u.uploaded : Int) + 1)).map fun wire =>
    { uploaded := u.uploaded + 1, collected := u.collected ++ [wire] }

/-- The upload loop, for at most the given number of receipts. -/
def uploadFrom (primary : StoreState) : Nat → UplinkState → List Int × UplinkState
  | 0, u => ([], u)
  | rest + 1, u =>
    match uploadNext primary u with
    | none => ([], u)
    | some v =>
      let (sent, w) := uploadFrom primary rest v
      (((u.uploaded : Int) + 1) :: sent, w)

/-- `upload`: send every acknowledged receipt not yet uploaded. -/
def upload (primary : StoreState) (s : ComponentState) (u : UplinkState) :
    List Int × UplinkState :=
  uploadFrom primary (s.records.length - u.uploaded) u

end RatifyProtocol.V2
