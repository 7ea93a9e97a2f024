import RatifyProtocol.V2.Reference.State
set_option autoImplicit false

/-!
# Reference store: operations

The operations of `v2/reference/store.rs`.  Every one of them runs under the
store's one lock, so each is one step; what varies from call to call (the
random owner token, the signature of a publication) is an argument.
-/

namespace RatifyProtocol.V2

open Foundation

variable {ω : Type} (P : Primitives) (anchor : StoreAnchor ω)

def errNotAcknowledged : String := "v2reference: checkpoint refused the acknowledgement"
def errHeadOfLineBlocked : String := "v2reference: an earlier receipt-log entry is still pending"
def errSignerUnavailable : String := "v2reference: receipt signer unavailable"
def errLogFrozen : String := "v2reference: the receipt log is frozen after abandonment"

/-- A classified store failure. -/
def failWith {α : Type} (cls : V2ErrorClass) (message : String) : StoreM ω α :=
  .fail (.classified (V2Error.new cls message))

/-- Two's complement 64-bit wrapping. -/
def wrapI64 (n : Int) : Int := n.bmod (2 ^ 64)

/-! ## Claims -/

/-- Why the owner check of a live, evaluating claim failed. -/
inductive OwnerFailure where
  | failed (e : V2StoreError)
  | terminal (e : V2StoreError)
  deriving DecidableEq, Repr

/-- `owner_locked`: the evaluator capability of a live, evaluating claim, with
the reading its lease was checked at. -/
def ownerLocked (claimId : String) (ownerToken : Bytes) : StoreM ω (Except OwnerFailure Int) := do
  let s ← getStore
  match s.claims.get? claimId with
  | none =>
    pure (.error (.failed (.classified (V2Error.new .claimNotFound
      "v2reference: unknown claim"))))
  | some record =>
    if P.sha256 ownerToken ≠ record.ownerDigest then
      pure (.error (.failed (.classified (V2Error.new .claimLeaseLost
        "v2reference: evaluator owner mismatch"))))
    else if record.state = .terminal then
      pure (.error (.terminal (.classified (V2Error.new .claimAlreadyTerminal
        "v2reference: claim already terminal"))))
    else do
      match ← Operation.attempt readClockLocked with
      | .error e => pure (.error (.failed e))
      | .ok now =>
        if now < record.claimedAt then
          pure (.error (.failed (.classified (V2Error.new .clockRegressed
            s!"v2reference: clock {now} is before T_claim {record.claimedAt}"))))
        else if now ≥ record.leaseExpiresAt then
          pure (.error (.failed (.classified (V2Error.new .claimLeaseLost
            "v2reference: evaluator lease expired"))))
        else pure (.ok now)

/-- The outbox entry of a terminal commit. -/
def committedEntry (claimId : String) (body : Bytes) : OutboxEntry :=
  { claimId, body, wire := none, digest := [], ack := none }

/-- A claim record with its terminal result. -/
def ClaimRecord.commit (record : ClaimRecord) (terminal body : Bytes) (allowHorizon finalAt : Int)
    (index : Nat) : ClaimRecord :=
  { record with
    state := .terminal, terminal, receiptBody := body, allowHorizon, finalizedAt := finalAt,
    outboxIndex := some index }

/-- `commit_terminal_locked`: make a terminal result immutable and assign its
receipt-log position. -/
def commitTerminalLocked (claimId : String) (terminal body : Bytes) (allowHorizon finalAt : Int)
    (s : StoreState) : StoreState :=
  match s.claims.get? claimId with
  | none => s
  | some record =>
    { s with
      claims := s.claims.insert claimId
        (record.commit terminal body allowHorizon finalAt s.outbox.length),
      outbox := s.outbox ++ [committedEntry claimId body] }

/-- The outcome of an atomic claim. -/
inductive V2ClaimDisposition where
  | created
  | inProgress
  | terminalReplay
  deriving DecidableEq, Repr

structure V2ClaimResult where
  disposition : V2ClaimDisposition
  claimedAt : Int
  ownerToken : Bytes
  deriving DecidableEq, Repr

/-- The stream advance a claim asks for, checked against the last accepted
sequence. -/
def claimStreamAdvance (s : StoreState) (claim : V2ChallengeClaim) :
    V2StoreResult (Option (StreamKey × Int)) :=
  match claim.streamId, claim.streamSeq with
  | none, none => .ok none
  | some _, some seq => do
    let last := s.streams.get? (streamKey claim)
    liftV2 (checkV2StreamSequence last.isSome (last.getD 0) seq)
    .ok (some (streamKey claim, seq))
  | _, _ =>
    storeErr .malformed "v2reference: stream_id and stream_seq must appear together"

/-- The record of a newly created claim. -/
def newClaimRecord (claim : V2ChallengeClaim) (ownerDigest : Bytes)
    (leaseExpiresAt now : Int) : ClaimRecord :=
  { claim, ownerDigest, leaseExpiresAt, state := .evaluating, terminal := [], receiptBody := [],
    allowHorizon := 0, claimedAt := now, finalizedAt := 0, release := none,
    progress := initialV2EvaluationProgress, abandoned := false, outboxIndex := none }

/-- Advance the stream and insert the record, one durable change. -/
def insertClaim (advance : Option (StreamKey × Int)) (record : ClaimRecord) (s : StoreState) :
    StoreState :=
  { s with
    streams := match advance with
      | some (k, seq) => s.streams.insert k seq
      | none => s.streams,
    claims := s.claims.insert record.claim.claimId record }

/-- `claim_v2`: the atomic claim.  `owner` is what the random source answers. -/
def claimV2 (claim : V2ChallengeClaim) (owner : Except String Bytes) :
    StoreM ω V2ClaimResult := do
  if !claimIdMatchesKey P claim then
    failWith .configurationInvalid
      ("v2reference: claim ID is not derived from the claim's namespace, replay epoch and "
        ++ "challenge digest")
  else do
    match ← Operation.attempt readClockLocked with
    | .error e => failWith .claimStoreUnavailable e.text
    | .ok now => do
      let s ← getStore
      match s.claims.get? claim.claimId with
      | some existing =>
        if existing.claim ≠ claim then .fail .claimProofConflict
        else if existing.abandoned then
          failWith .receiptAbandoned
            ("v2reference: the receipt for this claim was abandoned; a fresh challenge is "
              ++ "required")
        else
          pure { disposition :=
                   if existing.state = .terminal then .terminalReplay else .inProgress,
                 claimedAt := existing.claimedAt, ownerToken := [] }
      | none =>
        if !challengeClaimTimeCurrentV2 claim now then
          failWith .challengeNotFresh
            "v2reference: challenge is not current at the store clock"
        else do
          let advance ← .lift (claimStreamAdvance s claim)
          match owner with
          | .error m => .fail (.unavailable m)
          | .ok token => do
            changeLocked anchor (insertClaim advance
              (newClaimRecord claim (P.sha256 token) (wrapI64 (now + s.leaseSeconds)) now))
            pure { disposition := .created, claimedAt := now, ownerToken := token }

/-! ## Finalization -/

/-- The admitted times of `item`'s counter that are still inside its window.  The subtraction
stays in `i64`: the clock does not go back behind a claim's time, which is a timestamp, and
the window of a sealed claim is positive. -/
def activeCommits (s : StoreState) (finalAt : Int) (item : V2RateReservation) : Nat :=
  (((s.rateCommits.get? item.key).getD []).filter fun at_ =>
    decide (at_ > finalAt - item.windowS)).length

/-- The counter of `item` has no capacity left at `finalAt`. -/
def rateExhausted (s : StoreState) (finalAt : Int) (item : V2RateReservation) : Bool :=
  decide ((activeCommits s finalAt item : Int) ≥ item.limit)

/-- Take one slot of every counter of a batch. -/
def admitBatch (finalAt : Int) (batch : List V2RateReservation) (s : StoreState) : StoreState :=
  { s with
    rateCommits := batch.foldl (fun m item =>
      m.insert item.key ((m.get? item.key).getD [] ++ [finalAt])) s.rateCommits }

/-- An allow carries a positive horizon inside the timestamp domain and every
other decision carries none. -/
def horizonOk (decision : String) (allowValidUntil : Int) : Bool :=
  if decision = "allow" then
    decide (allowValidUntil > 0) && decide (allowValidUntil ≤ v2MaxTimestampSeconds)
  else allowValidUntil == 0

/-- `finalize_v2_claim`: commit the evaluator's terminal result while its lease
is live.  An identical repeat answers `false`. -/
def finalizeV2Claim (claimId : String) (ownerToken terminalResult receiptBody : Bytes)
    (allowValidUntil : Int) : StoreM ω Bool := do
  match ← ownerLocked P claimId ownerToken with
  | .error (.terminal e) => do
    let s ← getStore
    if (s.claims.get? claimId).any fun r =>
        r.terminal == terminalResult && r.receiptBody == receiptBody then pure false
    else .fail e
  | .error (.failed e) => .fail e
  | .ok finalAt => do
    let s ← getStore
    match s.claims.get? claimId with
    | none => failWith .claimNotFound "v2reference: unknown claim"
    | some record => do
      .lift (liftV2 (validateV2FinalizationPayload record.claim terminalResult receiptBody))
      let body ← .lift (liftV2 (decodeVerificationReceiptBodyV2 receiptBody))
      if !horizonOk body.decision allowValidUntil then
        failWith .configurationInvalid
          "v2reference: the allow horizon does not match the decision"
      else if allowValidUntil > 0
          ∧ (finalAt ≥ allowValidUntil ∨ finalAt ≥ record.claim.expiresAt) then
        failWith .allowHorizonPassed "v2reference: allow is at or beyond its horizon"
      else do
        let batch := record.claim.rateBatch
        let admitRate := decide (allowValidUntil > 0) && s.rateAtFinalization && !batch.isEmpty
        if admitRate && batch.any (rateExhausted s finalAt) then .fail .rateLimitExceeded
        else do
          changeLocked anchor fun s =>
            commitTerminalLocked claimId terminalResult receiptBody allowValidUntil finalAt
              (if admitRate then admitBatch finalAt batch s else s)
          pure true

/-- `record_v2_evaluation_progress`: stored only while the claim is evaluating
and its lease is live. -/
def recordV2EvaluationProgress (claimId : String) (ownerToken : Bytes)
    (progress : V2EvaluationProgress) : StoreM ω Unit := do
  match ← ownerLocked P claimId ownerToken with
  | .error (.failed e) => .fail e
  | .error (.terminal e) => .fail e
  | .ok _ => do
    match validateV2EvaluationProgressInner progress with
    | .error e => .fail (.classified (e.classify .malformed))
    | .ok () =>
      changeLocked anchor fun s =>
        { s with claims := s.claims.modify claimId fun r => { r with progress } }

/-! ## Recovery -/

/-- `load_v2_interrupted_claim`: refused while the lease is live, so the
returned progress is final. -/
def loadV2InterruptedClaim (claimId : String) : StoreM ω V2InterruptedClaim := do
  let s ← getStore
  match s.claims.get? claimId with
  | none => failWith .claimNotFound "v2reference: unknown claim"
  | some record => do
    let now ← readClockLocked
    if record.state = .evaluating ∧ now < record.leaseExpiresAt then
      failWith .claimLeaseLive "v2reference: evaluator lease is still live"
    else
      pure { claim := record.claim, claimedAt := record.claimedAt, progress := record.progress }

/-- `recover_interrupted_v2_claim`: commit the canonical interrupted result
after the lease expired. -/
def recoverInterruptedV2Claim (claimId : String) (terminalResult receiptBody : Bytes) :
    StoreM ω Bool := do
  let s ← getStore
  match s.claims.get? claimId with
  | none => failWith .claimNotFound "v2reference: unknown claim"
  | some record =>
    if record.state = .terminal then
      if record.terminal = terminalResult ∧ record.receiptBody = receiptBody then pure false
      else failWith .claimAlreadyTerminal "v2reference: claim already terminal"
    else do
      let now ← readClockLocked
      if now < record.leaseExpiresAt then
        failWith .claimLeaseLive "v2reference: evaluator lease is still live"
      else do
        .lift (liftV2 (validateV2FinalizationPayload record.claim terminalResult receiptBody))
        let body ← .lift (liftV2 (decodeVerificationReceiptBodyV2 receiptBody))
        if body.decision ≠ "indeterminate" ∨ body.decisionReason ≠ "evaluation_interrupted" then
          failWith .configurationInvalid
            "v2reference: recovery may commit only indeterminate/evaluation_interrupted"
        else do
          changeLocked anchor
            (commitTerminalLocked claimId terminalResult receiptBody 0 now)
          pure true

/-- `load_v2_committed_claim`: a terminal claim exactly as it was committed. -/
def loadV2CommittedClaim (claimId : String) : StoreM ω V2CommittedClaim := do
  let s ← getStore
  match s.claims.get? claimId with
  | none => failWith .claimNotFound "v2reference: unknown claim"
  | some record =>
    if record.state ≠ .terminal then do
      let now ← readClockLocked
      if now < record.leaseExpiresAt then
        failWith .claimLeaseLive "v2reference: evaluator lease is still live"
      else
        failWith .claimLeaseLost "v2reference: claim is not terminal; recover it first"
    else
      pure { claim := record.claim, terminalResult := record.terminal,
             receiptBody := record.receiptBody, allowHorizon := record.allowHorizon }

/-! ## Release records -/

/-- `load_v2_terminal_claim`. -/
def loadV2TerminalClaim (claimId : String) : StoreM ω V2TerminalClaimRecord := do
  let s ← getStore
  match s.claims.get? claimId with
  | none => failWith .claimNotFound "v2reference: unknown claim"
  | some record =>
    let terminal := decide (record.state = .terminal)
    pure { terminal,
           receiptOutboxDigest :=
             if terminal then receiptOutboxDigestV2 P record.receiptBody else "",
           challengeExpiresAt := record.claim.expiresAt, allowHorizon := record.allowHorizon,
           finalizedAt := record.finalizedAt, receiptAbandoned := record.abandoned,
           release := record.release }

/-- `record_v2_release`: the first record for a claim wins, an identical repeat
is a no-op, and any different record is refused. -/
def recordV2Release (release : V2ReleaseRecord) : StoreM ω Unit := do
  let s ← getStore
  if !validV2ReleaseRecordOutcome release.outcome release.reason then
    failWith .configurationInvalid
      s!"v2reference: invalid release record outcome {debugQuote release.outcome.asStr} reason {debugQuote release.reason}"
  else
    match s.claims.get? release.claimId with
    | none => .fail .releaseStateMismatch
    | some record =>
      if record.state ≠ .terminal then .fail .releaseStateMismatch
      else match record.release with
        | some existing =>
          if existing.entryHash = release.entryHash
              ∧ existing.ackTimestamp = release.ackTimestamp
              ∧ existing.outcome = release.outcome ∧ existing.reason = release.reason then
            pure ()
          else .fail .releaseStateMismatch
        | none =>
          changeLocked anchor fun s =>
            { s with
              claims := s.claims.modify release.claimId fun r =>
                { r with release := some release } }

/-! ## Publication -/

/-- The log head before position `index` of the outbox. -/
def outboxHead (s : StoreState) (index : Nat) : ReceiptV2Head :=
  { logId := s.logId, verifierId := s.verifierId, sequence := index,
    headHash := if index = 0 then zeroHash
      else ((s.outbox[index - 1]?).map (·.digest)).getD zeroHash,
    acceptedDigests := (s.outbox.take index).zipIdx.map fun e => ((e.2 : Int) + 1, e.1.digest),
    frozen := false }

/-- Acknowledge every appended entry up to the first that is not, from position
`sequence` on; earlier acknowledgements stay. -/
def acknowledgeEntries (logId : String) (timestamp : Int) : Int → List OutboxEntry →
    List OutboxEntry
  | _, [] => []
  | sequence, e :: es =>
    if e.wire.isNone then e :: es
    else
      (if e.ack.isSome then e
       else { e with ack := some { logId, sequence, entryHash := e.digest, timestamp } })
        :: acknowledgeEntries logId timestamp (sequence + 1) es

/-- `acknowledge_pending_locked`: submit every appended entry to the reference
checkpoint in log order.  The clock is read once, at the first entry that has
no acknowledgement; while it is regressed nothing is acknowledged. -/
def acknowledgePendingLocked : StoreM ω Unit := do
  let s ← getStore
  if s.checkpointFrozen then pure ()
  else if (s.outbox.takeWhile fun e => e.wire.isSome).any fun e => e.ack.isNone then do
    match ← Operation.attempt readClockLocked with
    | .error _ => pure ()
    | .ok timestamp =>
      modifyStore fun s =>
        { s with outbox := acknowledgeEntries s.logId timestamp 1 s.outbox }
  else pure ()

/-- The outbox position of a committed claim with this body. -/
def committedIndex (s : StoreState) (claimId : String) (receiptBody : Bytes) : Option Nat :=
  match s.claims.get? claimId with
  | none => none
  | some r =>
    if r.state = .terminal ∧ r.receiptBody = receiptBody then
      r.outboxIndex.filter fun i => decide (i < s.outbox.length)
    else none

/-- `publish_v2_receipt`: sign and append the committed outbox body at its log
position, or return the receipt already appended.  `sign` is the signer's answer
to this call. -/
def publishV2Receipt (claimId : String) (receiptBody : Bytes)
    (sign : V2ObjectType → Bytes → V2SignResult HybridSignature) : StoreM ω Bytes := do
  let s ← getStore
  match committedIndex s claimId receiptBody with
  | none =>
    .fail (.unavailable "v2reference: no committed outbox body for this claim matches")
  | some index =>
    match (s.outbox[index]?).bind (·.wire) with
    | some wire => pure wire
    | none =>
      if s.logFrozen then .fail (.unavailable errLogFrozen)
      else if index > 0 ∧ (s.outbox[index - 1]?).any (·.wire.isNone) then
        .fail (.unavailable errHeadOfLineBlocked)
      else if s.signerFailure then .fail (.unavailable errSignerUnavailable)
      else
        match signPreparedVerificationReceiptV2WithSigner P receiptBody (outboxHead s index)
            { publicKey := s.verifierKey, sign } with
        | .error e => .fail (.unavailable e.text)
        | .ok receipt => do
          let wire ← .lift (liftV2 (encodeVerificationReceiptV2 receipt))
          let digest ← .lift (liftV2 (verificationReceiptV2Digest P receipt))
          changeLocked anchor fun s =>
            { s with
              outbox := s.outbox.modify index fun e => { e with wire := some wire, digest } }
          let s ← getStore
          if s.ackWithheld then pure wire
          else do
            acknowledgePendingLocked
            pure wire

/-! ## The checkpoint -/

/-- The entry hash the checkpoint links position `index` to: its predecessor has
to be acknowledged. -/
def acknowledgedLink (s : StoreState) (index : Nat) : Option Bytes :=
  if index = 0 then some zeroHash
  else match s.outbox[index - 1]? with
    | some p => if p.ack.isSome then some p.digest else none
    | none => none

/-- `acknowledge_v2_receipt`: accept only the next appended entry of the log.  A
different entry hash at an acknowledged sequence is a fork and freezes the
checkpoint. -/
def acknowledgeV2Receipt (logId : String) (sequence : Int)
    (previousEntryHash entryHash : Bytes) : StoreM ω V2CheckpointAcknowledgement := do
  let s ← getStore
  if logId ≠ s.logId ∨ sequence < 1 ∨ sequence > s.outbox.length then
    .fail (.unavailable errNotAcknowledged)
  else
    let index := (sequence - 1).toNat
    match s.outbox[index]? with
    | none => .fail (.unavailable errNotAcknowledged)
    | some e =>
      if e.ack.any fun a => a.entryHash != entryHash then do
        modifyStore fun s => { s with checkpointFrozen := true }
        .fail (.unavailable (errNotAcknowledged
          ++ s!": a different entry hash at acknowledged sequence {sequence} is a fork; the log is frozen"))
      else if s.checkpointFrozen ∧ e.ack.isNone then
        .fail (.unavailable (errNotAcknowledged ++ ": the log is frozen after a fork"))
      else if e.wire.isNone ∨ e.digest ≠ entryHash then .fail (.unavailable errNotAcknowledged)
      else if acknowledgedLink s index ≠ some previousEntryHash then
        .fail (.unavailable errNotAcknowledged)
      else
        match e.ack with
        | some ack => pure ack
        | none => do
          let now ← readClockLocked
          let ack : V2CheckpointAcknowledgement := { logId, sequence, entryHash, timestamp := now }
          modifyStore fun s =>
            { s with outbox := s.outbox.modify index fun e => { e with ack := some ack } }
          pure ack

/-- `get_v2_acknowledgement`. -/
def getV2Acknowledgement (logId : String) (sequence : Int) :
    StoreM ω V2CheckpointAcknowledgement := do
  let s ← getStore
  if logId ≠ s.logId ∨ sequence < 1 then .fail .acknowledgementNotFound
  else match (s.outbox[(sequence - 1).toNat]?).bind (·.ack) with
    | some ack => pure ack
    | none => .fail .acknowledgementNotFound

/-! ## Settings and abandonment -/

/-- `set_time`. -/
def setTime (now : Int) : StoreM ω Unit := modifyStore fun s => { s with now }

/-- `set_signer_failure`. -/
def setSignerFailure (failing : Bool) : StoreM ω Unit :=
  modifyStore fun s => { s with signerFailure := failing }

/-- `with_rate_at_finalization`. -/
def withRateAtFinalization : StoreM ω Unit :=
  modifyStore fun s => { s with rateAtFinalization := true }

/-- `set_acknowledgement_withheld`: resuming acknowledges every pending entry. -/
def setAcknowledgementWithheld (withheld : Bool) : StoreM ω Unit := do
  modifyStore fun s => { s with ackWithheld := withheld }
  if withheld then pure () else acknowledgePendingLocked

/-- The claims of the outbox entries that are not appended, in log order. -/
def pendingClaims (s : StoreState) : List String :=
  (s.outbox.filter fun e => e.wire.isNone).map (·.claimId)

/-- Freeze the log and mark every pending claim abandoned. -/
def abandonPending (s : StoreState) : StoreState :=
  { s with
    logFrozen := true,
    claims := (pendingClaims s).foldl
      (fun m id => m.modify id fun r => { r with abandoned := true }) s.claims }

/-- `abandon_pending_receipts`. -/
def abandonPendingReceipts : StoreM ω (List String) := do
  let s ← getStore
  match ← Operation.attempt (changeLocked anchor abandonPending) with
  | .error _ => pure []
  | .ok () => pure (pendingClaims s)

end RatifyProtocol.V2
