import Mathlib.Logic.Function.Basic
import RatifyProtocol.Foundation.Operation
import RatifyProtocol.V2.OperationContext
import RatifyProtocol.V2.Delegation.Bundle
import RatifyProtocol.V2.Release
set_option autoImplicit false

/-!
# Reference: the dual-root approval ledger

`v2/reference/approval_ledger.rs`.  An approval set names one action and two pinned
roots; each root approves through its own released decision, and the set executes
once, when both approvals are recorded and still inside their deadlines.
-/

namespace RatifyProtocol.V2

open Foundation

/-! ## Released decisions -/

/-- `V2ReleasedDecision::receipt`. -/
def V2ReleasedDecision.receipt (d : V2ReleasedDecision) : V2Result VerificationReceiptV2 :=
  if d.receiptWire.isEmpty then err .malformed "v2 released decision carries no receipt"
  else decodeVerificationReceiptV2 d.receiptWire

/-- `V2ReleasedDecision::allowed`, on the answer of the receiver's clock. -/
def V2ReleasedDecision.allowed (d : V2ReleasedDecision) (clock : V2StoreResult Int) : Bool :=
  if d.decision ≠ "allow" ∨ d.receiptWire.isEmpty ∨ d.allowHorizon ≤ 0 then false
  else match readV2AuthoritativeTime clock with
    | .ok now => decide (now < d.challengeExpiresAt) && decide (now < d.allowHorizon)
    | .error _ => false

/-! ## Sets -/

inductive ApprovalErrorTestOnly where
  | notReleased
  | actionMismatch
  | rootMismatch
  | slotFilled
  | reused
  | incomplete
  | expired
  | alreadyExecuted
  | setInvalid
  | setUnknown
  | setAlreadyExists
  | invalidSlot
  deriving DecidableEq, Repr

/-- The authenticated approval set; every field comes from application state. -/
structure ApprovalSetTestOnly where
  approvalSetId : Text
  verifierId : Text
  workspaceId : Text
  sessionId : Text
  agentPublicKey : HybridPublicKey
  requiredScope : String
  requestHash : Buffer
  roots : Fin 2 → HybridPublicKey

structure ApprovalRecord where
  claimId : String
  decision : V2ReleasedDecision
  deriving DecidableEq

structure ApprovalState where
  set : ApprovalSetTestOnly
  agentId : String
  rootIds : Fin 2 → String
  sessionContext : Bytes
  approvals : Fin 2 → Option ApprovalRecord
  executed : Bool

/-- The sets by ID, and each recorded claim with the set it counts toward. -/
structure Ledger where
  sets : OrderedMap String ApprovalState
  recorded : OrderedMap String String

def Ledger.empty : Ledger := { sets := .empty, recorded := .empty }

/-- One operation of the ledger, under its lock. -/
abbrev ApprovalM (α : Type) := Operation Ledger ApprovalErrorTestOnly α

/-- Refuse with `e`, whatever the failure was. -/
def orRefuse {α ε : Type} (e : ApprovalErrorTestOnly) (x : Except ε α) :
    Except ApprovalErrorTestOnly α :=
  x.mapError fun _ => e

def refuseApproval (bad : Prop) [Decidable bad] (e : ApprovalErrorTestOnly) :
    Except ApprovalErrorTestOnly Unit :=
  if bad then .error e else .ok ()

variable (P : Primitives)

/-- The key ID of a key, with the room it takes. -/
def keyIdText (key : HybridPublicKey) : V2Result Text :=
  match h : keyIdV2 P key with
  | .error e => .error e
  | .ok id => .ok ⟨id, by
      have hlen := validV2Id_of_keyIdV2 P h
      simp only [validV2Id, Bool.and_eq_true, beq_iff_eq] at hlen
      rw [hlen.1, isizeMax]
      omega⟩

/-! ## Open -/

/-- What `open` derives from the fields of a set before it takes the lock. -/
def freshApprovalState (set : ApprovalSetTestOnly) :
    Except ApprovalErrorTestOnly ApprovalState := do
  refuseApproval (set.approvalSetId.1 = "" ∨ set.requestHash.1.length ≠ 32) .setInvalid
  orRefuse .setInvalid (validateRequiredScopeV2 set.requiredScope)
  let agentId ← orRefuse .setInvalid (keyIdText P set.agentPublicKey)
  let first ← orRefuse .setInvalid (keyIdText P (set.roots 0))
  let second ← orRefuse .setInvalid (keyIdText P (set.roots 1))
  refuseApproval (first.1 = second.1) .setInvalid
  let sessionContext ← orRefuse .setInvalid (buildSessionContextV2 P
    { verifierId := set.verifierId, workspaceId := set.workspaceId, agentId
      sessionId := set.sessionId, invocationId := set.approvalSetId
      requestHash := set.requestHash })
  .ok { set, agentId := agentId.1, rootIds := fun slot => if slot = 0 then first.1 else second.1
        sessionContext, approvals := fun _ => none, executed := false }

/-- `open`: record an approval set. -/
def openSet (set : ApprovalSetTestOnly) : ApprovalM Unit := do
  let state ← Operation.lift (freshApprovalState P set)
  let ledger ← Operation.get
  if ledger.sets.contains set.approvalSetId.1 then Operation.fail .setAlreadyExists
  else Operation.set { ledger with sets := ledger.sets.insert set.approvalSetId.1 state }

/-! ## Record an approval -/

/-- What a presented approval shows before the ledger is looked at. -/
structure PresentedApproval where
  decision : V2ReleasedDecision
  receipt : VerificationReceiptV2
  bundle : ProofBundleV2

/-- A released allow and the bundle its receipt names. -/
def presentApproval (decision : Option V2ReleasedDecision) (bundleWire : Bytes) :
    Except ApprovalErrorTestOnly PresentedApproval :=
  match decision with
  | none => .error .notReleased
  | some decision => do
    refuseApproval (decision.decision ≠ "allow") .notReleased
    let receipt ← orRefuse .notReleased decision.receipt
    let bundle ← orRefuse .actionMismatch (decodeProofBundleV2 P bundleWire)
    let hash ← orRefuse .actionMismatch (bundleHashV2 P bundle)
    refuseApproval (hash ≠ receipt.bundleHash) .actionMismatch
    .ok { decision, receipt, bundle }

/-- The approval names the set's action and ends at the pinned root of the slot. -/
def bindApproval (state : ApprovalState) (slot : Fin 2) (shown : PresentedApproval) :
    Except ApprovalErrorTestOnly Unit := do
  let set := state.set
  refuseApproval (shown.receipt.verifierId ≠ set.verifierId.1
      ∨ shown.bundle.verifierId ≠ set.verifierId.1
      ∨ shown.receipt.agentId ≠ state.agentId
      ∨ shown.bundle.agentId ≠ state.agentId
      ∨ shown.bundle.agentPubKey ≠ set.agentPublicKey
      ∨ shown.receipt.requiredScope ≠ set.requiredScope
      ∨ shown.bundle.sessionContext ≠ some state.sessionContext)
    .actionMismatch
  match shown.bundle.delegations.getLast? with
  | none => .error .rootMismatch
  | some root =>
    refuseApproval (root.issuerId ≠ state.rootIds slot
        ∨ root.issuerPubKey ≠ set.roots slot
        ∨ state.rootIds slot ∉ shown.receipt.issuerIds)
      .rootMismatch

/-- Both slots hold an approval. -/
def ApprovalState.complete (state : ApprovalState) : Bool :=
  (state.approvals 0).isSome && (state.approvals 1).isSome

/-- The state with `approval` in a slot. -/
def ApprovalState.fill (state : ApprovalState) (slot : Fin 2) (approval : ApprovalRecord) :
    ApprovalState :=
  { state with approvals := Function.update state.approvals slot (some approval) }

/-- The set `setId`, or a refusal. -/
def Ledger.find (ledger : Ledger) (setId : String) : Except ApprovalErrorTestOnly ApprovalState :=
  match ledger.sets.get? setId with
  | none => .error .setUnknown
  | some state => .ok state

/-- `record_approval`: bind a released decision to slot 0 or 1; whether both slots are
filled now. -/
def recordApproval (setId : String) (slot : Nat) (decision : Option V2ReleasedDecision)
    (bundleWire : Bytes) : ApprovalM Bool :=
  if h : slot < 2 then do
    let slot : Fin 2 := ⟨slot, h⟩
    let shown ← Operation.lift (presentApproval P decision bundleWire)
    let ledger ← Operation.get
    let claimId := shown.decision.claimId
    let state ← Operation.lift (ledger.find setId)
    Operation.lift
      (refuseApproval (∃ owner ∈ ledger.recorded.get? claimId, owner ≠ setId) .reused)
    Operation.lift (bindApproval state slot shown)
    match state.approvals slot with
    | some current =>
      if current.claimId ≠ claimId then Operation.fail .slotFilled else pure state.complete
    | none => do
      let filled := state.fill slot { claimId, decision := shown.decision }
      Operation.set
        { sets := ledger.sets.insert setId filled
          recorded := ledger.recorded.insert claimId setId }
      pure filled.complete
  else Operation.fail .invalidSlot

/-! ## Execute -/

/-- `execute`: the clock is read for the first approval and, if that one stands, for the
second. -/
def execute (setId : String) (first second : V2StoreResult Int) : ApprovalM Unit := do
  let ledger ← Operation.get
  let state ← Operation.lift (ledger.find setId)
  if state.executed then Operation.fail .alreadyExecuted
  else match state.approvals 0, state.approvals 1 with
    | some a, some b =>
      if a.decision.allowed first && b.decision.allowed second then
        Operation.set { ledger with sets := ledger.sets.insert setId { state with executed := true } }
      else Operation.fail .expired
    | _, _ => Operation.fail .incomplete

end RatifyProtocol.V2
