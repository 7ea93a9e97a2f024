import RatifyProtocol.V2.Interrupted
import RatifyProtocol.V2.OperationContext
import RatifyProtocol.V2.Receipt.Binding
import RatifyProtocol.V2.Reference.Runs
import RatifyProtocol.V2.StatementBody
set_option autoImplicit false

/-!
# Reference store: calls that go through

What a call does when nothing refuses it: a claim, its progress, its finalization
or recovery, its publication.  A run of them takes two claims on one rate
limit from their creation to the receipt log.
-/

namespace RatifyProtocol.V2

open Foundation

variable {ω : Type} {P : Primitives} {anchor : StoreAnchor ω}

/-! ## Calls that succeed -/

/-- The anchor, if there is one, accepts every change. -/
def AnchorAccepts (anchor : StoreAnchor ω) : Prop :=
  ∀ ask, anchor = some ask → ∀ before after device, (ask before after device).1 = .ok ()

theorem AnchorAccepts.none : AnchorAccepts (none : StoreAnchor ω) := by
  intro ask h
  cases h

theorem AnchorAccepts.changeLocked (h : AnchorAccepts anchor) (f : StoreState → StoreState)
    (s : Anchored ω) :
    ∃ device, V2.changeLocked anchor f s = (.ok (), { store := f s.store, device }) := by
  cases anchor with
  | none => exact ⟨s.device, rfl⟩
  | some ask =>
    have hask := h ask rfl s.store (f s.store) s.device
    rcases hanswer : ask s.store (f s.store) s.device with ⟨r, device⟩
    rw [hanswer] at hask
    simp only at hask
    subst hask
    exact ⟨device, by simp only [V2.changeLocked, hanswer]⟩

theorem ClockReady.readClockLocked {s : Anchored ω} (h : ClockReady s.store) :
    V2.readClockLocked s = (.ok s.store.now, s.tick) := by
  have hdomain : (decide (0 ≤ s.store.now) && decide (s.store.now ≤ v2MaxTimestampSeconds)) = true := by
    simp [h.nonneg, h.bounded]
  simp only [V2.readClockLocked, getStore_bind]
  rw [if_neg (not_lt.mpr h.notRegressed), if_neg (by simp [hdomain])]
  rfl

/-- A current claim of an unused key is created. -/
theorem claimV2_creates (haccepts : AnchorAccepts anchor) {claim : V2ChallengeClaim}
    {token : Bytes} {advance : Option (StreamKey × Int)} {s : Anchored ω}
    (hready : ClockReady s.store) (hkey : claimIdMatchesKey P claim = true)
    (hunused : s.store.claims.get? claim.claimId = none)
    (hcurrent : challengeClaimTimeCurrentV2 claim s.store.now = true)
    (hstream : claimStreamAdvance s.store claim = .ok advance) :
    ∃ t : Anchored ω, claimV2 P anchor claim (.ok token) s
        = (.ok { disposition := .created, claimedAt := s.store.now, ownerToken := token }, t)
      ∧ t.store = insertClaim advance (newClaimRecord claim (P.sha256 token)
          (wrapI64 (s.store.now + s.store.leaseSeconds)) s.store.now) s.store.ticked := by
  obtain ⟨device, hchange⟩ := haccepts.changeLocked (insertClaim advance (newClaimRecord claim
    (P.sha256 token) (wrapI64 (s.store.now + s.store.leaseSeconds)) s.store.now)) s.tick
  refine ⟨{ store := _, device }, ?_, rfl⟩
  have hunused' : s.tick.store.claims.get? claim.claimId = none := hunused
  have hstream' : claimStreamAdvance s.tick.store claim = .ok advance := hstream
  rw [claimV2, if_neg (by simp [hkey]), Operation.bind_apply_ok (Operation.attempt_apply _ _),
    hready.readClockLocked]
  simp only [getStore_bind, hunused', hcurrent, Bool.not_true, Bool.false_eq_true, if_false]
  rw [Operation.bind_apply_ok (a := advance) (t := s.tick) (by rw [Operation.lift_apply, hstream'])]
  exact Operation.bind_apply_ok hchange

/-- The owner's check passes while its lease is live. -/
theorem OwnerLive.ownerLocked {claimId : String} {token : Bytes} {record : ClaimRecord}
    {s : Anchored ω} (h : OwnerLive P claimId token record s.store) :
    V2.ownerLocked P claimId token s = (.ok (.ok s.store.now), s.tick) := by
  simp only [V2.ownerLocked, getStore_bind, h.found]
  rw [if_neg (not_not.mpr h.owner), if_neg (by simp [h.evaluating]),
    Operation.bind_apply_ok (Operation.attempt_apply _ _), h.ready.readClockLocked]
  simp only
  rw [if_neg (not_lt.mpr h.afterClaim), if_neg (not_le.mpr h.leaseLive)]
  rfl

/-- Valid progress of the live owner is stored. -/
theorem recordV2EvaluationProgress_records (haccepts : AnchorAccepts anchor) {claimId : String}
    {token : Bytes} {progress : V2EvaluationProgress} {record : ClaimRecord} {s : Anchored ω}
    (hlive : OwnerLive P claimId token record s.store)
    (hvalid : validateV2EvaluationProgressInner progress = .ok ()) :
    ∃ t : Anchored ω, recordV2EvaluationProgress P anchor claimId token progress s = (.ok (), t)
      ∧ t.store = { s.store.ticked with
        claims := s.store.claims.insert claimId { record with progress } } := by
  obtain ⟨device, hchange⟩ := haccepts.changeLocked
    (fun s => { s with claims := s.claims.modify claimId fun r => { r with progress } }) s.tick
  have hfound : s.tick.store.claims.get? claimId = some record := hlive.found
  refine ⟨{ store := { s.store.ticked with
    claims := s.store.claims.insert claimId { record with progress } }, device }, ?_, rfl⟩
  rw [recordV2EvaluationProgress, Operation.bind_apply_ok hlive.ownerLocked]
  simp only [hvalid]
  rw [hchange, OrderedMap.modify_of_get? hfound]
  rfl

/-- The evaluation of a claim was interrupted: its lease has passed and nothing
is committed. -/
structure LeasePassed (claimId : String) (record : ClaimRecord) (s : StoreState) : Prop where
  ready : ClockReady s
  found : s.claims.get? claimId = some record
  evaluating : record.state = .evaluating
  leaseExpired : record.leaseExpiresAt ≤ s.now

theorem LeasePassed.loadV2InterruptedClaim {claimId : String} {record : ClaimRecord}
    {s : Anchored ω} (h : LeasePassed claimId record s.store) :
    V2.loadV2InterruptedClaim claimId s
      = (.ok { claim := record.claim, claimedAt := record.claimedAt,
               progress := record.progress }, s.tick) := by
  simp only [V2.loadV2InterruptedClaim, getStore_bind, h.found]
  rw [Operation.bind_apply_ok h.ready.readClockLocked,
    if_neg fun hlive => absurd hlive.2 (not_lt.mpr h.leaseExpired)]
  rfl

/-- The interrupted result is committed once the lease has passed. -/
theorem recoverInterruptedV2Claim_commits (haccepts : AnchorAccepts anchor) {claimId : String}
    {terminal body : Bytes} {record : ClaimRecord} {receipt : VerificationReceiptV2}
    {s : Anchored ω} (h : LeasePassed claimId record s.store)
    (hpayload : validateV2FinalizationPayload record.claim terminal body = .ok ())
    (hdecoded : decodeVerificationReceiptBodyV2 body = .ok receipt)
    (hdecision : receipt.decision = "indeterminate")
    (hreason : receipt.decisionReason = "evaluation_interrupted") :
    ∃ t : Anchored ω, recoverInterruptedV2Claim anchor claimId terminal body s = (.ok true, t)
      ∧ t.store = committedState claimId record terminal body 0 false s.store := by
  obtain ⟨device, hchange⟩ := haccepts.changeLocked
    (commitTerminalLocked claimId terminal body 0 s.store.now) s.tick
  refine ⟨{ store := _, device }, ?_, commitTerminalLocked_eq false h.found⟩
  simp only [recoverInterruptedV2Claim, getStore_bind, h.found]
  rw [if_neg (by simp [h.evaluating]), Operation.bind_apply_ok h.ready.readClockLocked,
    if_neg (not_lt.mpr h.leaseExpired),
    Operation.bind_apply_ok (a := ()) (t := s.tick)
      (by rw [Operation.lift_apply, liftV2_eq_ok_iff.mpr hpayload]),
    Operation.bind_apply_ok (a := receipt) (t := s.tick)
      (by rw [Operation.lift_apply, liftV2_eq_ok_iff.mpr hdecoded]),
    if_neg (by simp [hdecision, hreason])]
  exact Operation.bind_apply_ok hchange

theorem performs_of_apply {α : Type} {f : α → StoreReply} {m : StoreM ω α} {call : StoreCall}
    {s t : Anchored ω} {a : α} (hcall : call.perform P anchor = .reply f m)
    (h : m s = (.ok a, t)) : Performs P anchor s (call, .ok (f a)) t := by
  simp only [Performs, hcall, Operation.reply_apply, h]
  rfl

theorem performs_of_refused {α : Type} {f : α → StoreReply} {m : StoreM ω α} {call : StoreCall}
    {s t : Anchored ω} {e : V2StoreError} (hcall : call.perform P anchor = .reply f m)
    (h : m s = (.error e, t)) : Performs P anchor s (call, .error e) t := by
  simp only [Performs, hcall, Operation.reply_apply, h]
  rfl

/-! ## Finalization -/

/-- What the owner of a terminal claim is answered. -/
theorem finalizeV2Claim_of_terminal {claimId : String} {ownerToken terminal body : Bytes}
    {horizon : Int} {s : Anchored ω} {record : ClaimRecord} (hfound : s.store.claims.get? claimId = some record)
    (howner : P.sha256 ownerToken = record.ownerDigest) (hterminal : record.state = .terminal) :
    finalizeV2Claim P anchor claimId ownerToken terminal body horizon s
      = (if record.terminal == terminal && record.receiptBody == body then .ok false
          else .error (.classified (V2Error.new .claimAlreadyTerminal
            "v2reference: claim already terminal")), s) := by
  have howned : ownerLocked P claimId ownerToken s
      = (.ok (.error (.terminal (.classified (V2Error.new .claimAlreadyTerminal
          "v2reference: claim already terminal")))), s) := by
    simp only [ownerLocked, getStore_bind, hfound, if_neg (not_not.mpr howner), if_pos hterminal]
    rfl
  rw [finalizeV2Claim, Operation.bind_apply_ok howned]
  simp only [getStore_bind, hfound, Option.any_some]
  split <;> rfl

/-- A payload that passes comes to the rate limits. -/
theorem finalizeV2Claim_live {claimId : String} {ownerToken terminal body : Bytes}
    {horizon : Int} {record : ClaimRecord} {receipt : VerificationReceiptV2} {s : Anchored ω}
    (hlive : OwnerLive P claimId ownerToken record s.store)
    (hpayload : validateV2FinalizationPayload record.claim terminal body = .ok ())
    (hdecoded : decodeVerificationReceiptBodyV2 body = .ok receipt)
    (hhorizon : horizonOk receipt.decision horizon = true)
    (hinTime : ¬ (horizon > 0 ∧ (s.store.now ≥ horizon ∨ s.store.now ≥ record.claim.expiresAt))) :
    finalizeV2Claim P anchor claimId ownerToken terminal body horizon s
      = (if admitsRate s.store record horizon
            && record.claim.rateBatch.any (rateExhausted s.tick.store s.store.now) then
          .fail .rateLimitExceeded
        else do
          changeLocked anchor fun u => commitTerminalLocked claimId terminal body horizon s.store.now
            (if admitsRate s.store record horizon then
              admitBatch s.store.now record.claim.rateBatch u
            else u)
          pure true : StoreM ω Bool) s.tick := by
  have hfound : s.tick.store.claims.get? claimId = some record := hlive.found
  rw [finalizeV2Claim, Operation.bind_apply_ok hlive.ownerLocked]
  simp only [getStore_bind, hfound]
  rw [Operation.bind_apply_ok (a := ()) (t := s.tick)
      (by rw [Operation.lift_apply, liftV2_eq_ok_iff.mpr hpayload]),
    Operation.bind_apply_ok (a := receipt) (t := s.tick)
      (by rw [Operation.lift_apply, liftV2_eq_ok_iff.mpr hdecoded]),
    if_neg (by rw [hhorizon]; simp), if_neg hinTime]
  rfl

/-- The live owner commits a payload that passes. -/
theorem finalizeV2Claim_commits (haccepts : AnchorAccepts anchor) {claimId : String}
    {ownerToken terminal body : Bytes} {horizon : Int} {record : ClaimRecord}
    {receipt : VerificationReceiptV2} {s : Anchored ω}
    (hlive : OwnerLive P claimId ownerToken record s.store)
    (hpayload : validateV2FinalizationPayload record.claim terminal body = .ok ())
    (hdecoded : decodeVerificationReceiptBodyV2 body = .ok receipt)
    (hhorizon : horizonOk receipt.decision horizon = true)
    (hinTime : ¬ (horizon > 0 ∧ (s.store.now ≥ horizon ∨ s.store.now ≥ record.claim.expiresAt)))
    (hcapacity : (admitsRate s.store record horizon
      && record.claim.rateBatch.any (rateExhausted s.tick.store s.store.now)) = false) :
    ∃ t : Anchored ω, finalizeV2Claim P anchor claimId ownerToken terminal body horizon s
      = (.ok true, t) ∧ t.store = committedState claimId record terminal body horizon
        (admitsRate s.store record horizon) s.store := by
  obtain ⟨device, hchange⟩ := haccepts.changeLocked
    (fun u => commitTerminalLocked claimId terminal body horizon s.store.now
      (if admitsRate s.store record horizon then admitBatch s.store.now record.claim.rateBatch u
        else u)) s.tick
  refine ⟨{ store := _, device }, ?_, commitTerminalLocked_eq _ hlive.found⟩
  rw [finalizeV2Claim_live hlive hpayload hdecoded hhorizon hinTime, if_neg (by rw [hcapacity]; simp)]
  exact Operation.bind_apply_ok hchange

/-- A payload that passes is refused once a limit of its batch is used up. -/
theorem finalizeV2Claim_limited {claimId : String} {ownerToken terminal body : Bytes}
    {horizon : Int} {record : ClaimRecord} {receipt : VerificationReceiptV2} {s : Anchored ω}
    (hlive : OwnerLive P claimId ownerToken record s.store)
    (hpayload : validateV2FinalizationPayload record.claim terminal body = .ok ())
    (hdecoded : decodeVerificationReceiptBodyV2 body = .ok receipt)
    (hhorizon : horizonOk receipt.decision horizon = true)
    (hinTime : ¬ (horizon > 0 ∧ (s.store.now ≥ horizon ∨ s.store.now ≥ record.claim.expiresAt)))
    (hexhausted : (admitsRate s.store record horizon
      && record.claim.rateBatch.any (rateExhausted s.tick.store s.store.now)) = true) :
    finalizeV2Claim P anchor claimId ownerToken terminal body horizon s
      = (.error .rateLimitExceeded, s.tick) := by
  rw [finalizeV2Claim_live hlive hpayload hdecoded hhorizon hinTime, if_pos hexhausted]
  rfl

/-! ## Publication -/

/-- A committed body waits at the head of the log. -/
structure Appendable (claimId : String) (body : Bytes) (index : Nat) (s : StoreState) : Prop where
  committed : committedIndex s claimId body = some index
  pending : (s.outbox[index]?).bind (·.wire) = none
  open_ : s.logFrozen = false
  next : ¬ (index > 0 ∧ (s.outbox[index - 1]?).any (·.wire.isNone) = true)
  signing : s.signerFailure = false

/-- A waiting body that is signed is appended; while acknowledgements are withheld
the checkpoint is not asked. -/
theorem publishV2Receipt_appends (haccepts : AnchorAccepts anchor) {claimId : String}
    {body wire digest : Bytes} {index : Nat} {s : Anchored ω} {receipt : VerificationReceiptV2}
    {sign : V2ObjectType → Bytes → V2SignResult HybridSignature}
    (h : Appendable claimId body index s.store)
    (hsigned : signPreparedVerificationReceiptV2WithSigner P body (outboxHead s.store index)
      { publicKey := s.store.verifierKey, sign } = .ok receipt)
    (hwire : encodeVerificationReceiptV2 receipt = .ok wire)
    (hdigest : verificationReceiptV2Digest P receipt = .ok digest) :
    ∃ t : Anchored ω, publishV2Receipt P anchor claimId body sign s = (.ok wire, t)
      ∧ (s.store.ackWithheld = true → t.store = { s.store with
        outbox := s.store.outbox.modify index fun e => { e with wire := some wire, digest } }) := by
  obtain ⟨device, hchange⟩ := haccepts.changeLocked
    (fun s => { s with
      outbox := s.outbox.modify index fun e => { e with wire := some wire, digest } }) s
  have hcall : publishV2Receipt P anchor claimId body sign s
      = (do
          let s ← getStore
          if s.ackWithheld then pure wire
          else do
            acknowledgePendingLocked
            pure wire : StoreM ω Bytes)
        { store := { s.store with
            outbox := s.store.outbox.modify index fun e => { e with wire := some wire, digest } }
          device } := by
    rw [publishV2Receipt, getStore_bind]
    conv_lhs =>
      simp only [h.committed, h.pending, h.open_, h.next, h.signing, Bool.false_eq_true,
        ↓reduceIte, hsigned]
    rw [Operation.bind_apply_ok (a := wire) (t := s)
        (by rw [Operation.lift_apply, liftV2_eq_ok_iff.mpr hwire]),
      Operation.bind_apply_ok (a := digest) (t := s)
        (by rw [Operation.lift_apply, liftV2_eq_ok_iff.mpr hdigest]),
      Operation.bind_apply_ok hchange]
  rw [hcall, getStore_bind]
  by_cases hwithheld : s.store.ackWithheld = true
  · rw [if_pos hwithheld]
    exact ⟨_, rfl, fun _ => rfl⟩
  · rw [if_neg hwithheld]
    rcases hack : acknowledgePendingLocked (ω := ω) _ with ⟨r, t⟩
    obtain ⟨rfl, -⟩ := acknowledgePendingLocked_cases hack
    exact ⟨t, Operation.bind_apply_ok hack, fun h => absurd h hwithheld⟩

/-- Acknowledgements that were withheld are given when they are resumed. -/
theorem setAcknowledgementWithheld_resumes {s : Anchored ω} (hready : ClockReady s.store)
    (hopen : s.store.checkpointFrozen = false)
    (hpending : ((s.store.outbox.takeWhile fun e => e.wire.isSome).any fun e => e.ack.isNone)
      = true) :
    V2.setAcknowledgementWithheld false s
      = (.ok (), { s with store := { s.store.ticked with
          ackWithheld := false
          outbox := acknowledgeEntries s.store.logId s.store.now 1 s.store.outbox } }) := by
  let u : Anchored ω := { s with store := { s.store with ackWithheld := false } }
  have hclock : ClockReady u.store := ⟨hready.notRegressed, hready.nonneg, hready.bounded⟩
  have hopen' : u.store.checkpointFrozen = false := hopen
  have hpending' : ((u.store.outbox.takeWhile fun e => e.wire.isSome).any fun e => e.ack.isNone)
      = true := hpending
  have hstart : V2.setAcknowledgementWithheld false s = acknowledgePendingLocked u := rfl
  rw [hstart, acknowledgePendingLocked, getStore_bind, hopen', if_neg Bool.false_ne_true,
    if_pos hpending', Operation.bind_apply_ok (Operation.attempt_apply _ _),
    hclock.readClockLocked]
  rfl

/-! ## Steps without an anchor -/

theorem Anchored.eq_of_store {t : Anchored Unit} {s : StoreState} (h : t.store = s) :
    t = { store := s, device := () } := by
  subst h
  rfl

/-- A current claim of an unused key is created, with its first owner. -/
theorem performs_claim {claim : V2ChallengeClaim} {token : Bytes} {s : StoreState}
    (hready : ClockReady s) (hkey : claimIdMatchesKey P claim = true)
    (hunused : s.claims.get? claim.claimId = none)
    (hcurrent : challengeClaimTimeCurrentV2 claim s.now = true)
    (hstream : claimStreamAdvance s claim = .ok none) :
    Performs P (none : StoreAnchor Unit) { store := s, device := () }
      (.claim claim (.ok token), .ok (.claimed
        { disposition := .created, claimedAt := s.now, ownerToken := token }))
      { store := insertClaim none (newClaimRecord claim (P.sha256 token)
          (wrapI64 (s.now + s.leaseSeconds)) s.now) s.ticked, device := () } := by
  obtain ⟨t, hclaim, ht⟩ := @claimV2_creates Unit P none AnchorAccepts.none claim token none
    { store := s, device := () } hready hkey hunused hcurrent hstream
  obtain rfl := Anchored.eq_of_store ht
  exact performs_of_apply rfl hclaim

/-- The live owner finalizes its claim with a payload that passes. -/
theorem performs_finalization {claimId : String} {ownerToken terminal body : Bytes} {horizon : Int}
    {record : ClaimRecord} {receipt : VerificationReceiptV2} {s : StoreState}
    (hlive : OwnerLive P claimId ownerToken record s)
    (hpayload : validateV2FinalizationPayload record.claim terminal body = .ok ())
    (hdecoded : decodeVerificationReceiptBodyV2 body = .ok receipt)
    (hhorizon : horizonOk receipt.decision horizon = true)
    (hinTime : ¬ (horizon > 0 ∧ (s.now ≥ horizon ∨ s.now ≥ record.claim.expiresAt)))
    (hcapacity : (admitsRate s record horizon
      && record.claim.rateBatch.any (rateExhausted s.ticked s.now)) = false) :
    Performs P (none : StoreAnchor Unit) { store := s, device := () }
      (.finalize claimId ownerToken terminal body horizon, .ok (.committed true))
      { store := committedState claimId record terminal body horizon (admitsRate s record horizon) s
        device := () } := by
  obtain ⟨t, hcommit, ht⟩ := @finalizeV2Claim_commits Unit P none AnchorAccepts.none claimId
    ownerToken terminal body horizon record receipt { store := s, device := () } hlive hpayload
    hdecoded hhorizon hinTime hcapacity
  obtain rfl := Anchored.eq_of_store ht
  exact performs_of_apply rfl hcommit

/-- A claim whose lease has passed is recovered with its interrupted result. -/
theorem performs_recover {record : ClaimRecord} {s : StoreState} {terminal body : Bytes}
    (hpassed : LeasePassed record.claim.claimId record s)
    (hresult : v2EvaluationInterruptedResult record.claim record.claimedAt record.progress
      = .ok (terminal, body))
    (hpayload : validateV2FinalizationPayload record.claim terminal body = .ok ()) :
    Performs P (none : StoreAnchor Unit) { store := s, device := () }
      (.recover record.claim.claimId terminal body, .ok (.committed true))
      { store := committedState record.claim.claimId record terminal body 0 false s
        device := () } := by
  obtain ⟨receipt, hdecoded, hdecision, hreason⟩ := interruptedResult_decoded hresult
  obtain ⟨t, hcommit, ht⟩ := @recoverInterruptedV2Claim_commits Unit none AnchorAccepts.none
    record.claim.claimId terminal body record receipt { store := s, device := () } hpassed hpayload
    hdecoded hdecision hreason
  obtain rfl := Anchored.eq_of_store ht
  exact performs_of_apply rfl hcommit

/-- A waiting body is published where the signature verifies. -/
theorem performs_publish {claimId : String} {body wire digest : Bytes} {index : Nat} {s : StoreState}
    {receipt : VerificationReceiptV2} {sign : V2ObjectType → Bytes → V2SignResult HybridSignature}
    (h : Appendable claimId body index s) (hwithheld : s.ackWithheld = true)
    (hsigned : signPreparedVerificationReceiptV2WithSigner P body (outboxHead s index)
      { publicKey := s.verifierKey, sign } = .ok receipt)
    (hwire : encodeVerificationReceiptV2 receipt = .ok wire)
    (hdigest : verificationReceiptV2Digest P receipt = .ok digest) :
    Performs P (none : StoreAnchor Unit) { store := s, device := () }
      (.publish claimId body sign, .ok (.published wire))
      { store := { s with
          outbox := s.outbox.modify index fun e => { e with wire := some wire, digest } }
        device := () } := by
  obtain ⟨t, hpublish, ht⟩ := @publishV2Receipt_appends Unit P none AnchorAccepts.none claimId body
    wire digest index { store := s, device := () } receipt sign h hsigned hwire hdigest
  obtain rfl := Anchored.eq_of_store (ht hwithheld)
  exact performs_of_apply rfl hpublish

/-! ## A first claim -/

/-- A claim of one delegated agent at time 100. -/
def firstClaim : V2ChallengeClaim where
  claimId := ((protocolClaimIdFromDigestV2 (tabled []) "n" 0 (List.replicate 48 0)).toOption).getD ""
  «namespace» := "n"
  replayEpoch := 0
  challengeDigest := "sha384:" ++ hexEncode (List.replicate 48 0)
  proofDigest := "sha384:" ++ hexEncode (List.replicate 48 0)
  bundleHash := "sha384:" ++ hexEncode (List.replicate 48 0)
  issuerIds := [hexEncode (2 :: List.replicate 31 0)]
  requiredScope := "data:read"
  contextPolicyDigest := "sha384:" ++ hexEncode (List.replicate 48 0)
  verifierId := hexEncode (1 :: List.replicate 31 0)
  agentId := hexEncode (3 :: List.replicate 31 0)
  requiresRate := false
  rateBatch := []
  issuedAt := 100
  expiresAt := 1000
  maxAgeSeconds := 500
  clockSkewSeconds := 5
  streamId := none
  streamSeq := none
  constraintEvaluators := []

theorem firstClaim_key : claimIdMatchesKey (tabled []) firstClaim = true :=
  @claimIdMatchesKey_of_derived (tabled []) _ (List.replicate 48 0) rfl
    List.length_replicate rfl

theorem hexEncode_first (n : UInt8) : validV2Id (hexEncode (n :: List.replicate 31 0)) = true :=
  validV2Id_of_keyIdV2 (tabled []) (keyIdV2_tabled n)

theorem hexEncode_first_ne {m n : UInt8} (h : m ≠ n) :
    hexEncode (m :: List.replicate 31 0) ≠ hexEncode (n :: List.replicate 31 0) :=
  hexEncode_injective.ne fun heq => h (List.cons.inj heq).1

theorem firstClaim_wellFormed : SealedWellFormed firstClaim :=
  { verifierId := hexEncode_first 1
    agentId := .inr (hexEncode_first 3)
    bundleHash := validPrefixedDigest_hexEncode List.length_replicate
    issuerIds := by
      intro id hid
      rw [List.mem_singleton.mp hid]
      exact hexEncode_first 2
    requiredScope := rfl
    evaluators := rfl
    delegated := fun _ => List.cons_ne_nil _ _ }

theorem progressStatable_initial (claim : V2ChallengeClaim) :
    ProgressStatable claim initialV2EvaluationProgress :=
  { reached := fun _ => rfl, evidence := rfl
    evaluated := fun h => by simp [initialV2EvaluationProgress] at h
    history := fun h => by simp [initialV2EvaluationProgress] at h }

/-- A claim under one issuer, for reading data, with no evaluators. -/
structure PlainClaim (claim : V2ChallengeClaim) : Prop where
  sealed : SealedWellFormed claim
  issuer : ∃ id, claim.issuerIds = [id]
  scope : claim.requiredScope = "data:read"
  evaluators : claim.constraintEvaluators = []

/-- The interrupted receipt of a plain claim is short. -/
theorem PlainClaim.shortReceipt {claim : V2ChallengeClaim} (h : PlainClaim claim) :
    ShortReceipt (bodyAtEnd (interruptedReceipt claim 100 initialV2EvaluationProgress)) where
  position := positionValid_atEnd _
  body := bodyValid_atEnd_iff.mpr ((bodyValid_interrupted_iff
    (validateV2EvaluationProgressInner_eq_ok_iff.mp initialV2EvaluationProgress_valid)).mpr
      ⟨rfl, h.sealed, progressStatable_initial claim⟩)
  signature := signatureLengths_placeholder
  words := by
    change ∀ s ∈ ["current", "not_evaluated", "indeterminate", "evaluation_interrupted",
      "authorization_unverified", claim.requiredScope, "not_evaluated", "not_evaluated"], _
    rw [h.scope]
    decide
  human := rfl
  evaluators := h.evaluators
  policy := fun _ hpolicy => by cases hpolicy
  issuers := by
    obtain ⟨id, hissuer⟩ := h.issuer
    have hlength := length_id_le (h.sealed.issuerIds id (by rw [hissuer]; exact List.mem_cons_self))
    have hunique : sortedUnique claim.issuerIds = [id] := by rw [hissuer]; rfl
    change textLength (CJ.strs (sortedUnique claim.issuerIds)) ≤ 512
    rw [hunique, textLength_strs_singleton]
    omega
  granted := show textLength (CJ.strs []) ≤ 512 by decide
  evidence := show textLength (evidenceCj []) ≤ 2048 by decide

/-- A plain claim is recoverable before anything was evaluated. -/
theorem PlainClaim.recoverable {claim : V2ChallengeClaim} (h : PlainClaim claim) :
    Recoverable claim 100 initialV2EvaluationProgress where
  sealed := h.sealed
  statable := progressStatable_initial claim
  policy := rfl
  fits := h.shortReceipt.exists_body.1

theorem PlainClaim.passes {claim : V2ChallengeClaim} (h : PlainClaim claim) :
    InterruptedResultPasses claim 100 initialV2EvaluationProgress :=
  (interruptedResultPasses_iff (validateV2EvaluationProgressInner_eq_ok_iff.mp
    initialV2EvaluationProgress_valid) rfl).mpr h.recoverable

theorem firstClaim_plain : PlainClaim firstClaim :=
  { sealed := firstClaim_wellFormed, issuer := ⟨_, rfl⟩, scope := rfl, evaluators := rfl }

/-- The evaluator capability of the first claim. -/
def firstToken : Bytes := List.replicate 32 7

/-- The record of the first claim with progress `p`. -/
def firstRecord (p : V2EvaluationProgress) : ClaimRecord :=
  { newClaimRecord firstClaim ((tabled []).sha256 firstToken) 160 100 with progress := p }

/-- The first store with the first claim at progress `p`. -/
def claimedStore (now : Int) (p : V2EvaluationProgress) : StoreState :=
  { firstStore with
    now
    claims := OrderedMap.empty.insert firstClaim.claimId (firstRecord p) }

theorem found_claimedStore (now : Int) (p : V2EvaluationProgress) :
    (claimedStore now p).claims.get? firstClaim.claimId = some (firstRecord p) :=
  OrderedMap.get?_insert_self _ _ _

theorem ready_claimedStore {now : Int} (hlow : 100 ≤ now) (hhigh : now ≤ v2MaxTimestampSeconds)
    (p : V2EvaluationProgress) : ClockReady (claimedStore now p) :=
  { notRegressed := hlow
    nonneg := by
      change 0 ≤ now
      omega
    bounded := hhigh }

theorem clockReady_first {s : StoreState} (hnow : s.now = firstStore.now)
    (hhigh : s.highWater = firstStore.highWater) : ClockReady s := by
  have hready : ClockReady firstStore := ⟨by decide, by decide, by decide⟩
  exact ⟨by rw [hnow, hhigh]; exact hready.notRegressed, by rw [hnow]; exact hready.nonneg,
    by rw [hnow]; exact hready.bounded⟩

theorem leasePassed_claimedStore (p : V2EvaluationProgress) :
    LeasePassed firstClaim.claimId (firstRecord p) (claimedStore 160 p) :=
  { ready := ready_claimedStore (by omega) (by simp [v2MaxTimestampSeconds]) p
    found := found_claimedStore 160 p, evaluating := rfl
    leaseExpired := le_refl _ }

theorem firstClaim_named : firstClaim.claimId ≠ "" := claimId_ne_empty _ firstClaim_key

theorem performs_firstClaim :
    Performs (tabled []) (none : StoreAnchor Unit) { store := firstStore, device := () }
      (.claim firstClaim (.ok firstToken), .ok (.claimed
        { disposition := .created, claimedAt := 100, ownerToken := firstToken }))
      { store := claimedStore 100 initialV2EvaluationProgress, device := () } :=
  performs_claim (clockReady_first rfl rfl) firstClaim_key rfl rfl rfl

/-! ## The first receipt -/

/-- The receipt of the first claim, interrupted before anything was evaluated. -/
def firstInterrupted : VerificationReceiptV2 :=
  interruptedReceipt firstClaim 100 initialV2EvaluationProgress

/-- The head of an empty log of the first store. -/
def firstHead : ReceiptV2Head :=
  { logId := "00000000000000000000000000000000", verifierId := hexEncode (1 :: List.replicate 31 0)
    sequence := 0, headHash := zeroHash, acceptedDigests := [], frozen := false }

theorem logId_firstHead : (utf8 firstHead.logId).length = 32 ∧ lowerHex firstHead.logId = true := by
  decide

theorem positionValid_firstHead (r : VerificationReceiptV2) (signature : HybridSignature) :
    PositionValid ((r.atHead firstHead).signed signature) :=
  { logId := logId_firstHead.1
    hex := logId_firstHead.2
    sequence_pos := show (0 : Int) < 0 + 1 by omega
    sequence_le := show (0 : Int) + 1 ≤ maxSafe by simp [maxSafe]
    previous := List.length_replicate
    link := rfl }

theorem validateReceiptHead_first : validateReceiptHead firstHead = .ok () := by
  have hid : validV2Id firstHead.verifierId = true := hexEncode_first 1
  have hlog : ((utf8 firstHead.logId).length ≠ 32 || !lowerHex firstHead.logId
      || !(0 ≤ firstHead.sequence && firstHead.sequence ≤ maxSafe)
      || firstHead.headHash.length ≠ 48) = false := by
    have hhash : firstHead.headHash.length = 48 := List.length_replicate
    simp only [logId_firstHead.1, logId_firstHead.2, hhash]
    decide
  simp only [validateReceiptHead, hid, validateHead]
  rw [if_neg (by simp), if_neg (by rw [hlog]; exact Bool.false_ne_true)]
  rfl

/-- Where every signature verifies, a prepared body is signed at an open head of its
verifier's log. -/
theorem Accepting.sign_atHead (h : Accepting P) {r : VerificationReceiptV2} {body : Bytes}
    {head : ReceiptV2Head} (hbody : verificationReceiptV2Body r = .ok body)
    (hhead : validateReceiptHead head = .ok ()) (hopen : head.frozen = false)
    (hroom : head.sequence < maxSafe) (hverifier : r.verifierId = head.verifierId)
    (hown : r.verifierId = hexEncode (1 :: List.replicate 31 0)) :
    ∃ wire digest, encodeVerificationReceiptV2 ((r.atHead head).signed tabledSignature) = .ok wire
      ∧ verificationReceiptV2Digest P ((r.atHead head).signed tabledSignature) = .ok digest
      ∧ signPreparedVerificationReceiptV2WithSigner P body head
          { publicKey := tabledKey 1, sign := fun _ _ => .ok tabledSignature }
        = .ok ((r.atHead head).signed tabledSignature) := by
  obtain ⟨wire, hbound⟩ := exists_boundBody (decodeVerificationReceiptBodyV2_body hbody) hhead hopen
    hroom hverifier signatureLengths_tabled
  have hwire : encodeVerificationReceiptV2 ((r.atHead head).signed tabledSignature) = .ok wire :=
    hbound.encoded
  obtain ⟨hposition, hvalid, -⟩ := encodeVerificationReceiptV2_eq_ok_iff.mp hwire
  obtain ⟨digest, hdigest⟩ := exists_verificationReceiptV2Digest P hposition hvalid
  refine ⟨wire, digest, hwire, hdigest, ?_⟩
  refine signPreparedVerificationReceiptV2WithSigner_ok hbody hbound.bound ?_ ?_ hwire
  · rw [hown]
    exact h.keyIdV2 1
  · intro signable _
    simp only [signV2StatementWithSigner, h.keyIdV2, h.verify]

/-- The receipt of the first claim, signed at the head of the log. -/
def firstSigned : VerificationReceiptV2 := (firstInterrupted.atHead firstHead).signed tabledSignature

theorem Accepting.sign_first (h : Accepting P) {body : Bytes}
    (hbody : verificationReceiptV2Body firstInterrupted = .ok body) :
    ∃ wire digest, encodeVerificationReceiptV2 firstSigned = .ok wire
      ∧ verificationReceiptV2Digest P firstSigned = .ok digest
      ∧ signPreparedVerificationReceiptV2WithSigner P body firstHead
          { publicKey := tabledKey 1, sign := fun _ _ => .ok tabledSignature } = .ok firstSigned :=
  h.sign_atHead hbody validateReceiptHead_first rfl (by simp [firstHead, maxSafe]) rfl rfl

/-- The first claim, committed at the lease's end in a store that withholds
acknowledgements. -/
def firstCommitted (terminal body : Bytes) : StoreState :=
  committedState firstClaim.claimId (firstRecord initialV2EvaluationProgress) terminal body 0 false
    { claimedStore 160 initialV2EvaluationProgress with ackWithheld := true }

theorem appendable_firstCommitted (terminal body : Bytes) :
    Appendable firstClaim.claimId body 0 (firstCommitted terminal body) := by
  refine { committed := ?_, pending := rfl, open_ := rfl, next := by simp, signing := rfl }
  have hfound : (firstCommitted terminal body).claims.get? firstClaim.claimId
      = some ((firstRecord initialV2EvaluationProgress).commit terminal body 0 160 0) :=
    OrderedMap.get?_insert_self _ _ _
  simp only [committedIndex, hfound, ClaimRecord.commit, and_self, ↓reduceIte]
  rfl

/-- A run that publishes one receipt. -/
theorem exists_published_first :
    ∃ (events : List StoreEvent) (t : Anchored Unit) (e : OutboxEntry),
      StoreRun (tabled []) (none : StoreAnchor Unit) { store := firstStore, device := () } events t
        ∧ t.store.outbox = [e] ∧ e.wire.isSome = true := by
  obtain ⟨terminal, body, hresult, hpayload⟩ := firstClaim_plain.passes
  have hbody : verificationReceiptV2Body firstInterrupted = .ok body :=
    (v2EvaluationInterruptedResult_eq_ok_iff.mp hresult).2.2.1
  have hwithhold : Performs (tabled []) (none : StoreAnchor Unit)
      { store := claimedStore 100 initialV2EvaluationProgress, device := () }
      (.setAcknowledgementWithheld true, .ok .configured)
      { store := { claimedStore 100 initialV2EvaluationProgress with ackWithheld := true },
        device := () } := rfl
  have hset : Performs (tabled []) (none : StoreAnchor Unit)
      { store := { claimedStore 100 initialV2EvaluationProgress with ackWithheld := true },
        device := () } (.setTime 160, .ok .configured)
      { store := { claimedStore 160 initialV2EvaluationProgress with ackWithheld := true },
        device := () } := rfl
  have hready := (leasePassed_claimedStore initialV2EvaluationProgress).ready
  have hrecover := @performs_recover (tabled []) (firstRecord initialV2EvaluationProgress)
    { claimedStore 160 initialV2EvaluationProgress with ackWithheld := true } terminal body
    { ready := ⟨hready.notRegressed, hready.nonneg, hready.bounded⟩
      found := found_claimedStore 160 _, evaluating := rfl, leaseExpired := le_refl _ }
    hresult hpayload
  obtain ⟨wire, digest, hwire, hdigest, hsigned⟩ := accepting_tabled.sign_first (P := tabled []) hbody
  have hpublish := performs_publish (appendable_firstCommitted terminal body) rfl hsigned hwire hdigest
  exact ⟨_, _, { committedEntry firstClaim.claimId body with wire := some wire, digest },
    ((((Run.single performs_firstClaim).snoc hwithhold).snoc hset).snoc hrecover).snoc hpublish,
    rfl, rfl⟩

/-! ## An allow -/

theorem protocolClaimIdFromDigestV2_plain {P : Primitives} {epoch : Int} (hepoch : 0 ≤ epoch ∧ epoch ≤ maxSafe) :
    protocolClaimIdFromDigestV2 P "n" epoch (List.replicate 48 0)
      = .ok (hexEncode (P.sha256 (utf8 "ratify-protocol-claim-id-v2\x00"
          ++ u64BeBytes (utf8 "n").length ++ utf8 "n" ++ u64BeBytes epoch.toNat
          ++ List.replicate 48 0))) := by
  have hdomain : validateNamespaceEpoch "n" epoch = .ok () := by
    simp [validateNamespaceEpoch, hepoch]
  rw [protocolClaimIdFromDigestV2, hdomain, ok_bind, if_neg (by simp)]

/-- Claims of different epochs have different IDs. -/
theorem claimIds_counting {table : List Bytes} {a b : Int} (ha : 0 ≤ a ∧ a ≤ maxSafe)
    (hb : 0 ≤ b ∧ b ≤ maxSafe) (hne : a ≠ b) :
    ((protocolClaimIdFromDigestV2 (counting table) "n" a (List.replicate 48 0)).toOption).getD ""
      ≠ ((protocolClaimIdFromDigestV2 (counting table) "n" b
          (List.replicate 48 0)).toOption).getD "" := by
  have hlen : (utf8 "ratify-protocol-claim-id-v2\x00" ++ u64BeBytes (utf8 "n").length
      ++ utf8 "n").length = 37 := by
    have h : (utf8 "ratify-protocol-claim-id-v2\x00").length = 28 ∧ (utf8 "n").length = 1 := ⟨rfl, rfl⟩
    simp [h]
  have hepoch : ∀ e : Int, (((counting table).sha256 (utf8 "ratify-protocol-claim-id-v2\x00"
      ++ u64BeBytes (utf8 "n").length ++ utf8 "n" ++ u64BeBytes e.toNat
      ++ List.replicate 48 0)).drop 20).take 8 = u64BeBytes e.toNat := by
    intro e
    generalize utf8 "ratify-protocol-claim-id-v2\x00" ++ u64BeBytes (utf8 "n").length
      ++ utf8 "n" = named at hlen
    have hu := length_u64BeBytes e.toNat
    have hsha : (counting table).sha256 (named ++ u64BeBytes e.toNat ++ List.replicate 48 0)
        = named.drop 17 ++ u64BeBytes e.toNat ++ List.replicate 4 0 := by
      have hfront : (named.drop 17).take 32 = named.drop 17 :=
        List.take_of_length_le (by simp [hlen])
      have hback : (u64BeBytes e.toNat).take 12 = u64BeBytes e.toNat :=
        List.take_of_length_le (by simp)
      simp [counting, List.drop_append, List.take_append, hlen, hu, hfront, hback]
    rw [hsha, List.append_assoc, List.drop_left' (by simp [hlen]), List.take_left' hu]
  intro heq
  rw [protocolClaimIdFromDigestV2_plain ha, protocolClaimIdFromDigestV2_plain hb] at heq
  have hbytes := hexEncode_injective heq
  have h64 := (hepoch a).symm.trans ((congrArg (fun x => (x.drop 20).take 8) hbytes).trans (hepoch b))
  have hnat := u64BeBytes_injOn (by simp only [maxSafe] at ha; omega) (by simp only [maxSafe] at hb; omega) h64
  omega

/-- A claim under the root `tabledKey n`, on a bundle and with a batch of reservations. -/
def rootClaim (epoch : Int) (n : UInt8) (bundleHash : String) (rateBatch : List V2RateReservation) :
    V2ChallengeClaim :=
  { firstClaim with
    claimId := ((protocolClaimIdFromDigestV2 (counting []) "n" epoch
      (List.replicate 48 0)).toOption).getD ""
    replayEpoch := epoch, bundleHash, issuerIds := [hexEncode (n :: List.replicate 31 0)]
    requiresRate := !rateBatch.isEmpty, rateBatch }

theorem rootClaim_plain (epoch : Int) (n : UInt8) {bundleHash : String}
    (hbundle : validPrefixedDigest bundleHash = true) (rateBatch : List V2RateReservation) :
    PlainClaim (rootClaim epoch n bundleHash rateBatch) where
  sealed :=
    { firstClaim_wellFormed with
      bundleHash := hbundle
      issuerIds := by
        intro id hid
        rw [List.mem_singleton.mp hid]
        exact hexEncode_first n
      delegated := fun _ => List.cons_ne_nil _ _ }
  issuer := ⟨_, rfl⟩
  scope := rfl
  evaluators := rfl

/-- A receipt that allows the action of a claim under the root `tabledKey n`. -/
def allowReceipt (n : UInt8) (bundleHash : String) : VerificationReceiptV2 where
  version := 2
  logId := firstHead.logId
  sequence := 1
  verifierId := hexEncode (1 :: List.replicate 31 0)
  agentId := hexEncode (3 :: List.replicate 31 0)
  humanId := ""
  bundleHash := bundleHash
  issuerIds := [hexEncode (n :: List.replicate 31 0)]
  decision := "allow"
  decisionReason := "authorized"
  identityStatus := "authorized_agent"
  trustAssessment := "trusted"
  statusAssessment := "current"
  challengeAssessment := "current"
  constraintEvaluators := []
  contextAssessment := "bound"
  contextPolicyDigest := some ("sha384:" ++ hexEncode (List.replicate 48 0))
  verifiedAt := 100
  requiredScope := "data:read"
  grantedScope := ["data:read"]
  statusEvidence :=
    [{ issuerId := hexEncode (n :: List.replicate 31 0)
       statusKeyId := hexEncode (9 :: List.replicate 31 0), sequence := 1, objectType := 3
       digest := "sha384:" ++ hexEncode (List.replicate 48 0) }]
  previousReceiptHash := zeroHash
  signature := tabledSignature

theorem issuers_allow (n : UInt8) (bundleHash : String) :
    validateReceiptIssuers (allowReceipt n bundleHash) = .ok () := by
  have hids : sortedUniqueIds (allowReceipt n bundleHash).issuerIds = true := by
    simp [-List.reduceReplicate, allowReceipt, sortedUniqueIds, ascendingBy, hexEncode_first]
  have hscope : withContext (requiredScopeV2 (allowReceipt n bundleHash).requiredScope) "wire v2"
      = .ok () := rfl
  simp only [validateReceiptIssuers, refuseIf_bind_eq_ok_iff, hids, hscope]
  simp [allowReceipt]

theorem assessments_allow {n : UInt8} (hn : n ≠ 9) (bundleHash : String) :
    validateReceiptAssessments (allowReceipt n bundleHash) = .ok () := by
  have hevidence : sortedEvidence (allowReceipt n bundleHash).statusEvidence
      (allowReceipt n bundleHash).issuerIds (allowReceipt n bundleHash).verifierId
      (allowReceipt n bundleHash).agentId = true := by
    have hdigest := @validPrefixedDigest_hexEncode (List.replicate 48 0) List.length_replicate
    have hissuer := hexEncode_first_ne hn.symm
    have hverifier := hexEncode_first_ne (show (9 : UInt8) ≠ 1 by decide)
    have hagent := hexEncode_first_ne (show (9 : UInt8) ≠ 3 by decide)
    simp [-List.reduceReplicate, allowReceipt, sortedEvidence, evidenceEntriesOk, evidenceEntryOk,
      ascendingBy, hissuer, hverifier, hagent, hexEncode_first, hdigest, maxSafe]
  have hgranted : sortedGranted (allowReceipt n bundleHash).grantedScope = true :=
    show sortedGranted ["data:read"] = true by decide
  have hpolicy := @validPrefixedDigest_hexEncode (List.replicate 48 0) List.length_replicate
  have hhistory : hasAcceptedStatusHistoryPerIssuer (allowReceipt n bundleHash).statusEvidence
      (allowReceipt n bundleHash).issuerIds = true := by
    simp [-List.reduceReplicate, allowReceipt, hasAcceptedStatusHistoryPerIssuer,
      hasAcceptedStatusHistory, historyScan]
  have hdecision : validateDecision (allowReceipt n bundleHash) = .ok () := by
    simp only [validateDecision, refuseIf_bind_eq_ok_iff]
    simp [-List.reduceReplicate, validateAllow, allowReceipt, decisionReasons]
  simp only [validateReceiptAssessments, refuseIf_bind_eq_ok_iff, hevidence, hgranted, hhistory,
    hdecision]
  simp [-List.reduceReplicate, allowReceipt, hpolicy, validConstraintEvaluatorRefsV2, ascendingBy]

theorem bodyValid_allow {n : UInt8} (hn : n ≠ 9) {bundleHash : String}
    (hbundle : validPrefixedDigest bundleHash = true) : BodyValid (allowReceipt n bundleHash) where
  version := rfl
  verifiedAt := show (0 : Int) ≤ 100 ∧ (100 : Int) ≤ v2MaxTimestampSeconds by decide
  verifierId := hexEncode_first 1
  agentId := .inr (hexEncode_first 3)
  bundleHash := hbundle
  issuers := issuers_allow n bundleHash
  assessments := assessments_allow hn bundleHash

/-- An allow is short, whichever root and bundle it names. -/
theorem shortReceipt_allow {n : UInt8} (hn : n ≠ 9) {bundleHash : String}
    (hbundle : validPrefixedDigest bundleHash = true) : ShortReceipt (allowReceipt n bundleHash) where
  position := { positionValid_firstHead (allowReceipt n bundleHash) tabledSignature with }
  body := bodyValid_allow hn hbundle
  signature := signatureLengths_tabled
  words := show ∀ s ∈ ["current", "bound", "allow", "authorized", "authorized_agent", "data:read",
    "current", "trusted"], _ by decide
  human := rfl
  evaluators := rfl
  policy := fun _ h => Option.some.inj h ▸ validPrefixedDigest_hexEncode List.length_replicate
  issuers := by
    have hissuer := length_id_le (hexEncode_first n)
    show textLength (CJ.strs [hexEncode (n :: List.replicate 31 0)]) ≤ 512
    rw [textLength_strs_singleton]
    omega
  granted := show textLength (CJ.strs ["data:read"]) ≤ 512 by decide
  evidence := by
    have hissuer := length_id_le (hexEncode_first n)
    have hstatus := length_id_le (hexEncode_first 9)
    have hdigest := length_prefixedDigest_le (validPrefixedDigest_hexEncode
      (List.length_replicate : (List.replicate 48 (0 : UInt8)).length = 48))
    have hkeys : (encodeString "digest".toList).length = 8 ∧
        (encodeString "issuer_id".toList).length = 11 ∧
        (encodeString "object_type_code".toList).length = 18 ∧
        (encodeString "sequence".toList).length = 10 ∧
        (encodeString "status_key_id".toList).length = 15 := ⟨rfl, rfl, rfl, rfl, rfl⟩
    have hints : (encodeInt 1).length = 1 ∧ (encodeInt ((3 : Nat) : Int)).length = 1 := ⟨rfl, rfl⟩
    simp only [allowReceipt, evidenceCj, evidenceEntryCj, List.map_cons, List.map_nil,
      textLength, membersLength, itemsLength, hkeys, hints, List.length_cons, List.length_nil]
    omega

/-- The allow carries what its claims have sealed. -/
theorem carriesClaim_allow (epoch : Int) (n : UInt8) (bundleHash : String)
    (rateBatch : List V2RateReservation) :
    CarriesClaim (rootClaim epoch n bundleHash rateBatch) (allowReceipt n bundleHash) where
  verifierId := rfl
  agentId := rfl
  bundleHash := rfl
  issuerIds := rfl
  requiredScope := rfl
  policyDigest := by
    have hpolicy : firstClaim.contextPolicyDigest ≠ "" := by simp [firstClaim]
    exact (if_pos ⟨(by decide : "bound" ≠ "not_evaluated"), hpolicy⟩).symm
  evaluators := rfl

/-- The allow has a terminal result and a body, and they finalize its claims. -/
theorem exists_allowResult {n : UInt8} (hn : n ≠ 9) {bundleHash : String}
    (hbundle : validPrefixedDigest bundleHash = true) :
    ∃ terminal body, verificationReceiptV2Body (allowReceipt n bundleHash) = .ok body
      ∧ ∀ epoch rateBatch, validateV2FinalizationPayload
          (rootClaim epoch n bundleHash rateBatch) terminal body = .ok () := by
  obtain ⟨-, body, hbody⟩ := (shortReceipt_allow hn hbundle).atEnd.exists_body
  obtain ⟨terminal, hterminal⟩ := exists_terminalResultJson "allow" "authorized" "authorized_agent"
  refine ⟨terminal, body, hbody, fun epoch rateBatch => ?_⟩
  exact (validateV2FinalizationPayload_body_iff hbody).mpr
    ⟨carriesClaim_allow epoch n bundleHash rateBatch, hterminal⟩

/-- The allow, signed at a head of the log. -/
def signedAllow (n : UInt8) (bundleHash : String) (head : ReceiptV2Head) : VerificationReceiptV2 :=
  ((allowReceipt n bundleHash).atHead head).signed tabledSignature

/-- The texts of an allow: its terminal result, its body, and its wire form and signable
body at a head of the log. -/
structure AllowTexts (n : UInt8) (bundleHash : String) (head : ReceiptV2Head)
    (terminal body wire signable : Bytes) : Prop where
  payload : ∀ epoch rateBatch, validateV2FinalizationPayload
    (rootClaim epoch n bundleHash rateBatch) terminal body = .ok ()
  body : verificationReceiptV2Body (allowReceipt n bundleHash) = .ok body
  wire : encodeVerificationReceiptV2 (signedAllow n bundleHash head) = .ok wire
  signable : verificationReceiptV2SignableBytes (signedAllow n bundleHash head) = .ok signable

/-- An allow can be signed at every open head of its verifier's log. -/
theorem exists_allowTexts {n : UInt8} (hn : n ≠ 9) {bundleHash : String}
    (hbundle : validPrefixedDigest bundleHash = true) {head : ReceiptV2Head}
    (hhead : validateReceiptHead head = .ok ()) (hopen : head.frozen = false)
    (hroom : head.sequence < maxSafe)
    (hverifier : hexEncode (1 :: List.replicate 31 0) = head.verifierId) :
    ∃ terminal body wire signable, AllowTexts n bundleHash head terminal body wire signable := by
  obtain ⟨terminal, body, hbody, hpayload⟩ := exists_allowResult hn hbundle
  obtain ⟨wire, digest, hwire, hdigest, -⟩ := (accepting_counting []).sign_atHead hbody hhead hopen
    hroom hverifier rfl
  obtain ⟨-, signable, hsignable, -⟩ := verificationReceiptV2Digest_eq_ok_iff.mp hdigest
  exact ⟨terminal, body, wire, signable, hpayload, hbody, hwire, hsignable⟩

namespace AllowTexts

variable {n : UInt8} {bundleHash : String} {head : ReceiptV2Head}
  {terminal body wire signable : Bytes}

theorem wire_ne_nil (h : AllowTexts n bundleHash head terminal body wire signable) : wire ≠ [] :=
  canonical_obj_ne_nil (encodeVerificationReceiptV2_eq_ok_iff.mp h.wire).2.2.2.1

/-- The wire form decodes to the signed allow. -/
theorem decoded (h : AllowTexts n bundleHash head terminal body wire signable) :
    decodeVerificationReceiptV2 wire = .ok (signedAllow n bundleHash head) :=
  decodeVerificationReceiptV2_encode h.wire

theorem digest (h : AllowTexts n bundleHash head terminal body wire signable) (P : Primitives) :
    verificationReceiptV2Digest P (signedAllow n bundleHash head)
      = .ok (P.sha384 (statementBodyText 8 signable)) := by
  obtain ⟨hposition, hbody, -⟩ := encodeVerificationReceiptV2_eq_ok_iff.mp h.wire
  exact verificationReceiptV2Digest_of_signable hposition hbody h.signable

/-- The body is signed to the signed allow. -/
theorem signs (h : AllowTexts n bundleHash head terminal body wire signable) (hP : Accepting P)
    (hhead : validateReceiptHead head = .ok ()) (hopen : head.frozen = false)
    (hroom : head.sequence < maxSafe)
    (hverifier : hexEncode (1 :: List.replicate 31 0) = head.verifierId) :
    signPreparedVerificationReceiptV2WithSigner P body head
        { publicKey := tabledKey 1, sign := fun _ _ => .ok tabledSignature }
      = .ok (signedAllow n bundleHash head) := by
  obtain ⟨_, _, -, -, hsigned⟩ := hP.sign_atHead h.body hhead hopen hroom hverifier rfl
  exact hsigned

end AllowTexts

/-! ## Two claims on one limit -/

/-- One allow in an hour. -/
def hourlyBatch : List V2RateReservation :=
  [{ issuerId := hexEncode (4 :: List.replicate 31 0), certId := "cert", windowS := 3600, limit := 1 }]

def zeroDigest : String := "sha384:" ++ hexEncode (List.replicate 48 0)

/-- A claim that takes the hour's allow. -/
def hourlyClaim (epoch : Int) : V2ChallengeClaim := rootClaim epoch 4 zeroDigest hourlyBatch

theorem hourlyClaim_plain (epoch : Int) : PlainClaim (hourlyClaim epoch) :=
  rootClaim_plain epoch 4 (validPrefixedDigest_hexEncode List.length_replicate) hourlyBatch

theorem hourlyClaim_ids : (hourlyClaim 1).claimId ≠ (hourlyClaim 2).claimId :=
  @claimIds_counting [] 1 2 ⟨by decide, by decide⟩ ⟨by decide, by decide⟩ (by decide)

def hourlyRecord (epoch : Int) : ClaimRecord :=
  newClaimRecord (hourlyClaim epoch) ((counting []).sha256 firstToken) 160 100

/-- Both claims, evaluated by one token in a store that withholds acknowledgements. -/
def hourlyStore : StoreState :=
  { firstStore with
    rateAtFinalization := true, ackWithheld := true
    claims := (OrderedMap.empty.insert (hourlyClaim 1).claimId (hourlyRecord 1)).insert
      (hourlyClaim 2).claimId (hourlyRecord 2) }

/-- The first claim is allowed. -/
def allowedHourly (terminal body : Bytes) : StoreState :=
  committedState (hourlyClaim 1).claimId (hourlyRecord 1) terminal body 500 true hourlyStore

/-- The second is interrupted after its lease. -/
def interruptedHourly (terminal body terminal' body' : Bytes) : StoreState :=
  committedState (hourlyClaim 2).claimId (hourlyRecord 2) terminal' body' 0 false
    { allowedHourly terminal body with now := 160 }

/-- The allow is published and acknowledged. -/
def publishedHourly (terminal body terminal' body' wire digest : Bytes) : StoreState :=
  { interruptedHourly terminal body terminal' body' with
    outbox := (interruptedHourly terminal body terminal' body').outbox.modify 0
      fun e => { e with wire := some wire, digest } }

def acknowledgedHourly (terminal body terminal' body' wire digest : Bytes) : StoreState :=
  { publishedHourly terminal body terminal' body' wire digest with
    ackWithheld := false
    outbox := acknowledgeEntries firstStore.logId 160 1
      (publishedHourly terminal body terminal' body' wire digest).outbox }

/-- Both claims are made and only the first is allowed: the second is refused by the
rate limit, and recovered after its lease. -/
def hourlyEvents (terminal body terminal' body' wire : Bytes) : List StoreEvent :=
  [(.setAcknowledgementWithheld true, .ok .configured),
    (.claim (hourlyClaim 1) (.ok firstToken), .ok (.claimed
      { disposition := .created, claimedAt := 100, ownerToken := firstToken })),
    (.claim (hourlyClaim 2) (.ok firstToken), .ok (.claimed
      { disposition := .created, claimedAt := 100, ownerToken := firstToken })),
    (.finalize (hourlyClaim 1).claimId firstToken terminal body 500, .ok (.committed true)),
    (.finalize (hourlyClaim 2).claimId firstToken terminal body 500, .error .rateLimitExceeded),
    (.finalize (hourlyClaim 1).claimId firstToken terminal body 500, .ok (.committed false)),
    (.setTime 160, .ok .configured),
    (.recover (hourlyClaim 2).claimId terminal' body', .ok (.committed true)),
    (.publish (hourlyClaim 1).claimId body fun _ _ => .ok tabledSignature, .ok (.published wire)),
    (.setAcknowledgementWithheld false, .ok .configured)]

theorem run_hourlyStore :
    StoreRun (counting []) (none : StoreAnchor Unit)
      { store := { firstStore with rateAtFinalization := true }, device := () }
      ((hourlyEvents [] [] [] [] []).take 3) { store := hourlyStore, device := () } := by
  have hwithhold : Performs (counting []) (none : StoreAnchor Unit)
      { store := { firstStore with rateAtFinalization := true }, device := () }
      (.setAcknowledgementWithheld true, .ok .configured)
      { store := { firstStore with rateAtFinalization := true, ackWithheld := true }
        device := () } := rfl
  have hfirst := @performs_claim (counting []) (hourlyClaim 1) firstToken
    { firstStore with rateAtFinalization := true, ackWithheld := true }
    (clockReady_first rfl rfl)
    (claimIdMatchesKey_of_derived _ rfl List.length_replicate rfl) rfl rfl rfl
  have hsecond := @performs_claim (counting []) (hourlyClaim 2) firstToken
    { firstStore with
      rateAtFinalization := true, ackWithheld := true
      claims := OrderedMap.empty.insert (hourlyClaim 1).claimId (hourlyRecord 1) }
    (clockReady_first rfl rfl)
    (claimIdMatchesKey_of_derived _ rfl List.length_replicate rfl)
    (OrderedMap.get?_insert_of_ne _ _ hourlyClaim_ids.symm) rfl rfl
  exact ((Run.single hwithhold).snoc hfirst).snoc hsecond

theorem live_hourlyStore :
    OwnerLive (counting []) (hourlyClaim 1).claimId firstToken (hourlyRecord 1) hourlyStore where
  ready := clockReady_first rfl rfl
  found := (OrderedMap.get?_insert_of_ne _ _ hourlyClaim_ids).trans (OrderedMap.get?_insert_self _ _ _)
  owner := rfl
  evaluating := rfl
  afterClaim := le_refl _
  leaseLive := by decide

theorem found_allowedHourly (terminal body : Bytes) :
    (allowedHourly terminal body).claims.get? (hourlyClaim 2).claimId = some (hourlyRecord 2) :=
  (OrderedMap.get?_insert_of_ne _ _ hourlyClaim_ids.symm).trans (OrderedMap.get?_insert_self _ _ _)

theorem live_allowedHourly (terminal body : Bytes) :
    OwnerLive (counting []) (hourlyClaim 2).claimId firstToken (hourlyRecord 2)
      (allowedHourly terminal body) where
  ready := ⟨le_refl (100 : Int), live_hourlyStore.ready.nonneg, live_hourlyStore.ready.bounded⟩
  found := found_allowedHourly terminal body
  owner := rfl
  evaluating := rfl
  afterClaim := le_refl _
  leaseLive := live_hourlyStore.leaseLive

/-- The hour's allow is taken. -/
theorem exhausted_allowedHourly (terminal body : Bytes) :
    hourlyBatch.any (rateExhausted (allowedHourly terminal body) 100) = true := by
  have hcommits : ∀ item ∈ hourlyBatch, (allowedHourly terminal body).rateCommits.get? item.key
      = some [100] := by
    intro item hitem
    rw [List.mem_singleton.mp hitem]
    exact OrderedMap.get?_insert_self _ _ _
  obtain ⟨item, hitem, hlimit, hwindow⟩ : ∃ item ∈ hourlyBatch, item.limit = 1 ∧ item.windowS = 3600 :=
    ⟨_, List.mem_cons_self, rfl, rfl⟩
  refine List.any_eq_true.mpr ⟨item, hitem, ?_⟩
  rw [rateExhausted, activeCommits, hcommits item hitem, hlimit, hwindow]
  rfl

/-- The record of the claim that is allowed. -/
def allowedRecord (terminal body : Bytes) : ClaimRecord :=
  (hourlyRecord 1).commit terminal body 500 100 0

theorem found_interruptedHourly (terminal body terminal' body' : Bytes) :
    (interruptedHourly terminal body terminal' body').claims.get? (hourlyClaim 1).claimId
      = some (allowedRecord terminal body) :=
  (OrderedMap.get?_insert_of_ne _ _ hourlyClaim_ids).trans (OrderedMap.get?_insert_self _ _ _)

theorem run_hourly : ∃ terminal body terminal' body' wire digest,
    (∃ receipt, decodeVerificationReceiptBodyV2 body = .ok receipt ∧ receipt.decision = "allow")
    ∧ StoreRun (counting []) (none : StoreAnchor Unit)
      { store := { firstStore with rateAtFinalization := true }, device := () }
      (hourlyEvents terminal body terminal' body' wire)
      { store := acknowledgedHourly terminal body terminal' body' wire digest, device := () } := by
  have hzero : validPrefixedDigest zeroDigest = true :=
    validPrefixedDigest_hexEncode List.length_replicate
  obtain ⟨terminal, body, hbody, hpayload⟩ := @exists_allowResult 4 (by decide) _ hzero
  have hdecoded := decodeVerificationReceiptBodyV2_body hbody
  have hallow := @performs_finalization (counting []) (hourlyClaim 1).claimId firstToken terminal body
    500 (hourlyRecord 1) _ hourlyStore live_hourlyStore (hpayload 1 hourlyBatch) hdecoded rfl
    (by decide) rfl
  -- The second allow finds the limit used up, and the first is answered again.
  have hlimited := @finalizeV2Claim_limited Unit (counting []) none (hourlyClaim 2).claimId
    firstToken terminal body 500 (hourlyRecord 2) _
    { store := allowedHourly terminal body, device := () } (live_allowedHourly terminal body)
    (hpayload 2 hourlyBatch) hdecoded rfl
    (show ¬ ((500 : Int) > 0 ∧ ((100 : Int) ≥ 500 ∨ (100 : Int) ≥ 1000)) by decide)
    (exhausted_allowedHourly terminal body)
  have hrefused := @performs_of_refused _ (counting []) none _ StoreReply.committed _
    (StoreCall.finalize (hourlyClaim 2).claimId firstToken terminal body 500) _ _ _ rfl hlimited
  have hfound : (allowedHourly terminal body).claims.get? (hourlyClaim 1).claimId
      = some (allowedRecord terminal body) := OrderedMap.get?_insert_self _ _ _
  have hrepeat : finalizeV2Claim (counting []) (none : StoreAnchor Unit) (hourlyClaim 1).claimId
      firstToken terminal body 500 { store := allowedHourly terminal body, device := () }
      = (.ok false, { store := allowedHourly terminal body, device := () }) := by
    rw [finalizeV2Claim_of_terminal hfound rfl rfl, if_pos]
    simp only [allowedRecord, ClaimRecord.commit, beq_self_eq_true, Bool.and_self]
  have hrepeated := @performs_of_apply _ (counting []) none _ StoreReply.committed _
    (StoreCall.finalize (hourlyClaim 1).claimId firstToken terminal body 500) _ _ _ rfl hrepeat
  have hset : Performs (counting []) (none : StoreAnchor Unit)
      { store := allowedHourly terminal body, device := () } (.setTime 160, .ok .configured)
      { store := { allowedHourly terminal body with now := 160 }, device := () } := rfl
  obtain ⟨terminal', body', hresult', hpayload'⟩ := (hourlyClaim_plain 2).passes
  have hrecover := @performs_recover (counting []) (hourlyRecord 2)
    { allowedHourly terminal body with now := 160 } terminal' body'
    { ready := ⟨show (100 : Int) ≤ 160 by decide, show (0 : Int) ≤ 160 by decide,
        show (160 : Int) ≤ v2MaxTimestampSeconds by decide⟩
      found := found_allowedHourly terminal body
      evaluating := rfl, leaseExpired := le_refl _ } hresult' hpayload'
  obtain ⟨wire, digest, hwire, hdigest, hsigned⟩ := (accepting_counting []).sign_atHead hbody
    validateReceiptHead_first rfl (by simp [firstHead, maxSafe]) rfl rfl
  have hpublish := @performs_publish (counting []) (hourlyClaim 1).claimId body wire digest 0
    (interruptedHourly terminal body terminal' body') _ (fun _ _ => .ok tabledSignature)
    { committed := by
        simp only [committedIndex, found_interruptedHourly, allowedRecord, ClaimRecord.commit,
          and_self, ↓reduceIte]
        rfl
      pending := rfl, open_ := rfl, next := by simp, signing := rfl } rfl hsigned hwire hdigest
  have hresume := @setAcknowledgementWithheld_resumes Unit
    { store := publishedHourly terminal body terminal' body' wire digest, device := () }
    ⟨le_refl (160 : Int), show (0 : Int) ≤ 160 by decide,
      show (160 : Int) ≤ v2MaxTimestampSeconds by decide⟩ rfl rfl
  have hacknowledged := @performs_of_apply _ (counting []) none _ (fun _ => StoreReply.configured) _
    (StoreCall.setAcknowledgementWithheld false) _ _ _ rfl hresume
  exact ⟨terminal, body, terminal', body', wire, digest, ⟨_, hdecoded, rfl⟩,
    ((((((run_hourlyStore.snoc hallow).snoc hrefused).snoc hrepeated).snoc hset).snoc hrecover).snoc
      hpublish).snoc hacknowledged⟩

end RatifyProtocol.V2
