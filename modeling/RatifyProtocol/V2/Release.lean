import RatifyProtocol.Foundation.Interaction
import RatifyProtocol.V2.Reference.Calls
set_option autoImplicit false

/-!
# Release: committed versus released

`release_v2_decision` of `v2/release.rs`.  It calls the claim store and the
checkpoint up to five times, so it is an `Interaction`; what it computes between
two calls is a function of the answers, one for each group of its steps.
-/

namespace RatifyProtocol.V2

open Foundation

variable (P : Primitives)

/-! ## Configuration and results -/

/-- Caller-authenticated release configuration; the store and the checkpoint are
what the interaction runs against. -/
structure V2ReleaseConfig where
  verifierPublicKey : HybridPublicKey
  logId : String

/-- The only actionable value. -/
structure V2ReleasedDecision where
  claimId : String
  decision : String
  reason : String
  identityStatus : String
  grantedScope : List String
  receiptWire : Bytes
  releaseTime : Int
  challengeExpiresAt : Int
  allowHorizon : Int
  deriving DecidableEq, Repr

/-- `decision` is present only when `status` is released. -/
structure V2ReleaseResult where
  status : V2ReleaseStatus
  reason : String
  decision : Option V2ReleasedDecision
  deriving DecidableEq, Repr

def releaseResultV2 (status : V2ReleaseStatus) (reason : String) : V2ReleaseResult :=
  { status, reason, decision := none }

/-- What is handed to one release call. -/
structure ReleaseRequest where
  committed : CommittedV2Outcome
  signedReceipt : Option Bytes
  config : V2ReleaseConfig

def CommittedV2Outcome.receiptBodyDigest (committed : CommittedV2Outcome) : String :=
  receiptOutboxDigestV2 P committed.receiptBody

/-! ## Answers of the services -/

/-- The answer to a call whose replies are read by `f`. -/
def replyOf {α : Type} (f : StoreReply → Option α) (answer : V2StoreResult StoreReply) :
    V2StoreResult α := do
  let reply ← answer
  match f reply with
  | some a => .ok a
  | none => .error (.unavailable "v2 store answered another call")

def StoreReply.terminalClaim? : StoreReply → Option V2TerminalClaimRecord
  | terminalClaim record => some record
  | _ => none

def StoreReply.acknowledgement? : StoreReply → Option V2CheckpointAcknowledgement
  | acknowledged ack => some ack
  | _ => none

def StoreReply.time? : StoreReply → Option Int
  | time now => some now
  | _ => none

/-- `read_v2_authoritative_time`: a store-reported clock regression keeps its
class, and a reading outside the timestamp domain is an unavailable clock. -/
def readV2AuthoritativeTime (answer : V2StoreResult Int) : V2Result Int :=
  match answer with
  | .error e => .error e.intoV2
  | .ok now =>
    if validV2Timestamp now then .ok now
    else plain s!"v2 authoritative clock returned {now} outside 0..{v2MaxTimestampSeconds}"

/-! ## Between the calls -/

def stopIf (c : Bool) (r : V2ReleaseResult) : Except V2ReleaseResult Unit :=
  if c then .error r else .ok ()

def okOr {α ε : Type} (x : Except ε α) (r : V2ReleaseResult) : Except V2ReleaseResult α :=
  x.mapError fun _ => r

/-- What is refused before the store is asked. -/
def releasePreflight (request : ReleaseRequest) : Except V2ReleaseResult Unit := do
  stopIf (request.committed.claimId == "" || request.committed.receiptBody.isEmpty)
    (releaseResultV2 .rejected "release_state_mismatch")
  stopIf ((utf8 request.config.logId).length != 32 || !lowerHex request.config.logId)
    (releaseResultV2 .rejected "release_state_mismatch")

/-- Step 1: only an unavailable store is retryable. -/
def releaseLoad (answer : V2StoreResult StoreReply) :
    Except V2ReleaseResult V2TerminalClaimRecord :=
  match replyOf StoreReply.terminalClaim? answer with
  | .ok record => .ok record
  | .error e =>
    if e.cls = some .claimNotFound then .error (releaseResultV2 .rejected "release_state_mismatch")
    else .error (releaseResultV2 .pending "claim_store_unavailable")

/-- Step 1: the committed state and a withheld result that is recorded already. -/
def releaseState (request : ReleaseRequest) (record : V2TerminalClaimRecord) :
    Except V2ReleaseResult Unit := do
  stopIf record.receiptAbandoned (releaseResultV2 .withheld "receipt_abandoned")
  stopIf (!record.terminal
      || record.receiptOutboxDigest != request.committed.receiptBodyDigest P
      || record.challengeExpiresAt != request.committed.challengeExpiresAt
      || record.allowHorizon != request.committed.allowHorizon
      || (keyIdV2 P request.config.verifierPublicKey).toOption
        != some request.committed.verifierId)
    (releaseResultV2 .rejected "release_state_mismatch")
  match record.release with
  | none => .ok ()
  | some release =>
    stopIf (release.claimId != request.committed.claimId
        || !validV2ReleaseRecordOutcome release.outcome release.reason)
      (releaseResultV2 .rejected "release_state_mismatch")
    stopIf (release.outcome == .withheld) (releaseResultV2 .withheld release.reason)

def verifyPublishedV2Receipt (wire : Bytes) (config : V2ReleaseConfig) :
    V2Result VerificationReceiptV2 := do
  let receipt ← decodeVerificationReceiptV2 wire
  if receipt.logId ≠ config.logId then
    err .logStateMismatch "v2 published receipt belongs to an unconfigured log"
  else do
    let body ← verificationReceiptV2SignableBytes receipt
    verifyV2Statement P .verificationReceipt body receipt.signature config.verifierPublicKey
    .ok receipt

/-- A verified published receipt. -/
structure PublishedReceipt where
  wire : Bytes
  receipt : VerificationReceiptV2
  entryHash : Bytes

/-- Steps 2 to 4: the receipt, its body and the same entry as a prior release. -/
def releaseReceipt (request : ReleaseRequest) (record : V2TerminalClaimRecord) :
    Except V2ReleaseResult PublishedReceipt :=
  match request.signedReceipt.filter fun wire => !wire.isEmpty with
  | none => .error (releaseResultV2 .pending "receipt_not_appended")
  | some wire => do
    let receipt ← okOr (verifyPublishedV2Receipt P wire request.config)
      (releaseResultV2 .rejected "receipt_invalid")
    stopIf (receipt.verifierId != request.committed.verifierId)
      (releaseResultV2 .rejected "receipt_invalid")
    let body ← okOr (verificationReceiptV2Body receipt)
      (releaseResultV2 .rejected "receipt_body_mismatch")
    stopIf (body != request.committed.receiptBody)
      (releaseResultV2 .rejected "receipt_body_mismatch")
    let entryHash ← okOr (verificationReceiptV2Digest P receipt)
      (releaseResultV2 .rejected "receipt_invalid")
    stopIf (record.release.any fun release => release.entryHash != entryHash)
      (releaseResultV2 .rejected "release_state_mismatch")
    .ok { wire, receipt, entryHash }

/-- Steps 1 to 4 on the answer of the claim store. -/
def releaseLoaded (request : ReleaseRequest) (answer : V2StoreResult StoreReply) :
    Except V2ReleaseResult (V2TerminalClaimRecord × PublishedReceipt) := do
  let record ← releaseLoad answer
  releaseState P request record
  let published ← releaseReceipt P request record
  .ok (record, published)

/-- Step 5: the predecessor is acknowledged. -/
def releasePredecessor (receipt : VerificationReceiptV2) (answer : V2StoreResult StoreReply) :
    Except V2ReleaseResult Unit := do
  let previous ← okOr (replyOf StoreReply.acknowledgement? answer)
    (releaseResultV2 .pending "acknowledgement_unavailable")
  stopIf (previous.logId != receipt.logId || previous.sequence != receipt.sequence - 1
      || previous.entryHash != receipt.previousReceiptHash)
    (releaseResultV2 .rejected "log_predecessor_mismatch")

/-- Step 6: the entry is acknowledged, at the time a prior release names. -/
def releaseAcknowledged (record : V2TerminalClaimRecord) (published : PublishedReceipt)
    (answer : V2StoreResult StoreReply) : Except V2ReleaseResult V2CheckpointAcknowledgement := do
  let ack ← okOr (replyOf StoreReply.acknowledgement? answer)
    (releaseResultV2 .pending "acknowledgement_unavailable")
  stopIf (ack.logId != published.receipt.logId || ack.sequence != published.receipt.sequence
      || ack.entryHash != published.entryHash)
    (releaseResultV2 .rejected "acknowledgement_mismatch")
  stopIf (record.release.any fun release => release.ackTimestamp != ack.timestamp)
    (releaseResultV2 .rejected "release_state_mismatch")
  .ok ack

/-- Steps 7 and 8: why the decision is withheld at `now`, if it is. -/
def withheldAt (committed : CommittedV2Outcome) (record : V2TerminalClaimRecord)
    (receipt : VerificationReceiptV2) (ackTimestamp now : Int) : Option String :=
  if !validV2Timestamp record.finalizedAt || !validV2Timestamp ackTimestamp
      || decide (record.finalizedAt > ackTimestamp) || decide (ackTimestamp > now) then
    some "clock_regressed"
  else if ackTimestamp ≥ committed.challengeExpiresAt ∨ now ≥ committed.challengeExpiresAt then
    some "challenge_expired"
  else if receipt.decision = "allow" ∧ (committed.allowHorizon ≤ 0
      ∨ ackTimestamp ≥ committed.allowHorizon ∨ now ≥ committed.allowHorizon) then
    some "allow_horizon_passed"
  else none

/-- Steps 7 and 8 on the answer of the clock. -/
def releaseClock (committed : CommittedV2Outcome) (record : V2TerminalClaimRecord)
    (receipt : VerificationReceiptV2) (ackTimestamp : Int) (answer : V2StoreResult StoreReply) :
    Except V2ReleaseResult (Option String) :=
  match readV2AuthoritativeTime (replyOf StoreReply.time? answer) with
  | .ok now => .ok (withheldAt committed record receipt ackTimestamp now)
  | .error e =>
    if e.cls = .clockRegressed ∧ e.explicit = true then .ok (some "clock_regressed")
    else .error (releaseResultV2 .pending "clock_unavailable")

/-- Step 10. -/
def releasedResult (committed : CommittedV2Outcome) (published : PublishedReceipt)
    (ackTimestamp : Int) : V2ReleaseResult :=
  { status := .released
    reason := ""
    decision := some
      { claimId := committed.claimId
        decision := published.receipt.decision
        reason := published.receipt.decisionReason
        identityStatus := published.receipt.identityStatus
        grantedScope := published.receipt.grantedScope
        receiptWire := published.wire
        releaseTime := ackTimestamp
        challengeExpiresAt := committed.challengeExpiresAt
        allowHorizon := if published.receipt.decision = "allow" then committed.allowHorizon else 0 } }

/-! ## The release steps -/

/-- A computation against the claim store and the checkpoint. -/
abbrev StoreInteraction (α : Type) := Interaction StoreCall (V2StoreResult StoreReply) α

/-- Record `outcome` for a claim that has no record, and end with `result`; a store
that is unavailable ends with `unavailable`. -/
def recordOutcome (record : V2TerminalClaimRecord) (release : V2ReleaseRecord)
    (result unavailable : V2ReleaseResult) : StoreInteraction V2ReleaseResult :=
  match record.release with
  | some _ => .ret result
  | none => .call (.recordRelease release) fun
    | .ok _ => .ret result
    | .error .releaseStateMismatch => .ret (releaseResultV2 .rejected "release_state_mismatch")
    | .error _ => .ret unavailable

/-- Steps 7 to 10: what is withheld is recorded too, and a call that cannot record it
is withheld all the same. -/
def releaseAtTime (committed : CommittedV2Outcome) (record : V2TerminalClaimRecord)
    (published : PublishedReceipt) (ack : V2CheckpointAcknowledgement) :
    StoreInteraction V2ReleaseResult :=
  .call .authoritativeTime fun answer =>
    .orElse (releaseClock committed record published.receipt ack.timestamp answer) fun
      | some reason =>
        recordOutcome record
          { claimId := committed.claimId, entryHash := published.entryHash
            ackTimestamp := ack.timestamp, outcome := .withheld, reason }
          (releaseResultV2 .withheld reason) (releaseResultV2 .withheld reason)
      | none =>
        recordOutcome record
          { claimId := committed.claimId, entryHash := published.entryHash
            ackTimestamp := ack.timestamp, outcome := .released, reason := "" }
          (releasedResult committed published ack.timestamp)
          (releaseResultV2 .pending "claim_store_unavailable")

/-- Steps 6 to 10. -/
def releaseAcknowledgement (committed : CommittedV2Outcome) (record : V2TerminalClaimRecord)
    (published : PublishedReceipt) : StoreInteraction V2ReleaseResult :=
  .call (.getAcknowledgement published.receipt.logId published.receipt.sequence) fun answer =>
    .orElse (releaseAcknowledged record published answer)
      (releaseAtTime committed record published)

/-- Steps 5 to 10. -/
def releasePublished (committed : CommittedV2Outcome) (record : V2TerminalClaimRecord)
    (published : PublishedReceipt) : StoreInteraction V2ReleaseResult :=
  if published.receipt.sequence > 1 then
    .call (.getAcknowledgement published.receipt.logId (published.receipt.sequence - 1))
      fun answer => .orElse (releasePredecessor published.receipt answer) fun _ =>
        releaseAcknowledgement committed record published
  else releaseAcknowledgement committed record published

/-- `release_v2_decision`: the release steps in order, stopping at the first that
does not pass. -/
def releaseV2Decision (request : ReleaseRequest) : StoreInteraction V2ReleaseResult :=
  .orElse (releasePreflight request) fun _ =>
    .call (.loadTerminal request.committed.claimId) fun answer =>
      .orElse (releaseLoaded P request answer) fun loaded =>
        releasePublished request.committed loaded.1 loaded.2

end RatifyProtocol.V2
