import RatifyProtocol.V2.Reference.Effects
import RatifyProtocol.Foundation.Run
import RatifyProtocol.V2.Status.TableHash
set_option autoImplicit false

/-!
# Reference store: runs

A run is a list of calls with their replies.  `CallEffect` gathers what the
operations do under one relation, so that an invariant of runs is one case
analysis.
-/

namespace RatifyProtocol.V2

open Foundation

variable {ω : Type} {P : Primitives} {anchor : StoreAnchor ω}

/-! ## Effects of calls -/

/-- The reply tells of a new claim or of a new terminal commit. -/
def StoreReply.fresh : StoreReply → Bool
  | claimed result => decide (result.disposition = .created)
  | committed fresh => fresh
  | _ => false

/-- What one call did to the store. -/
inductive CallEffect (P : Primitives) :
    StoreCall → StoreState → V2StoreResult StoreReply → StoreState → Prop
  | quiet {call : StoreCall} {s t : StoreState} {r : V2StoreResult StoreReply}
      (quiet : Quiet s t) (reply : ∀ a, r = .ok a → a.fresh = false) : CallEffect P call s r t
  | created {claim : V2ChallengeClaim} {token : Bytes} {advance : Option (StreamKey × Int)}
      {s t : StoreState} (new : ClaimCreated P claim token advance s t) :
      CallEffect P (.claim claim (.ok token)) s
        (.ok (.claimed { disposition := .created, claimedAt := s.now, ownerToken := token })) t
  | progressed {claimId : String} {token : Bytes} {progress : V2EvaluationProgress}
      {record : ClaimRecord} {s t : StoreState}
      (new : ProgressRecorded P claimId token progress record s t) :
      CallEffect P (.recordProgress claimId token progress) s (.ok .progressRecorded) t
  | finalized {claimId : String} {token terminal body : Bytes} {horizon : Int}
      {record : ClaimRecord} {receipt : VerificationReceiptV2} {s t : StoreState}
      (new : FinalizeCommitted P claimId token terminal body horizon record receipt s t) :
      CallEffect P (.finalize claimId token terminal body horizon) s (.ok (.committed true)) t
  | recovered {claimId : String} {terminal body : Bytes} {record : ClaimRecord}
      {receipt : VerificationReceiptV2} {s t : StoreState}
      (new : RecoverCommitted claimId terminal body record receipt s t) :
      CallEffect P (.recover claimId terminal body) s (.ok (.committed true)) t
  | released {release : V2ReleaseRecord} {record : ClaimRecord} {s t : StoreState}
      (new : ReleaseRecorded release record s t) :
      CallEffect P (.recordRelease release) s (.ok .releaseRecorded) t
  | appended {claimId : String} {body : Bytes}
      {sign : V2ObjectType → Bytes → V2SignResult HybridSignature} {index : Nat}
      {receipt : VerificationReceiptV2} {wire digest : Bytes} {entry : OutboxEntry}
      {s t u : StoreState}
      (new : EntryAppended P claimId body sign index receipt wire digest entry s t)
      (submitted : u = t ∨ EntriesAcknowledged t u) :
      CallEffect P (.publish claimId body sign) s (.ok (.published wire)) u
  | acknowledged {logId : String} {sequence : Int} {previous entryHash : Bytes} {index : Nat}
      {entry : OutboxEntry} {s t : StoreState}
      (new : EntryAcknowledged logId sequence entryHash index entry s t) :
      CallEffect P (.acknowledge logId sequence previous entryHash) s
        (.ok (.acknowledged { logId, sequence, entryHash, timestamp := s.now })) t
  | forked {logId : String} {sequence : Int} {previous entryHash : Bytes} {e : V2StoreError}
      {s : StoreState} :
      CallEffect P (.acknowledge logId sequence previous entryHash) s (.error e)
        { s with checkpointFrozen := true }
  | timeSet {now : Int} {s : StoreState} :
      CallEffect P (.setTime now) s (.ok .configured) { s with now }
  | signerSet {failing : Bool} {s : StoreState} :
      CallEffect P (.setSignerFailure failing) s (.ok .configured)
        { s with signerFailure := failing }
  | withheldSet {withheld : Bool} {s t : StoreState}
      (submitted : t = { s with ackWithheld := withheld }
        ∨ EntriesAcknowledged { s with ackWithheld := withheld } t) :
      CallEffect P (.setAcknowledgementWithheld withheld) s (.ok .configured) t
  | rateEnabled {s : StoreState} :
      CallEffect P .withRateAtFinalization s (.ok .configured)
        { s with rateAtFinalization := true }
  | abandoned {s : StoreState} :
      CallEffect P .abandonPendingReceipts s (.ok (.abandoned (pendingClaims s)))
        (abandonPending s)

/-- A reply under another name came from a run of the operation. -/
theorem reply_eq {α : Type} {f : α → StoreReply} {m : StoreM ω α} {s t : Anchored ω}
    {r : V2StoreResult StoreReply} (h : Operation.reply f m s = (r, t)) :
    ∃ r', m s = (r', t) ∧ r = r'.map f := by
  rcases hm : m s with ⟨r', u⟩
  simp only [Operation.reply_apply, hm, Prod.mk.injEq] at h
  exact ⟨r', by rw [h.2], h.1.symm⟩

theorem map_eq_ok {α β : Type} {f : α → β} {r : V2StoreResult α} {b : β}
    (h : r.map f = .ok b) : ∃ a, r = .ok a ∧ f a = b := by
  cases r with
  | error e => cases h
  | ok a =>
    cases h
    exact ⟨a, rfl, rfl⟩

/-- A call that only reads. -/
theorem CallEffect.ofRead {α : Type} {call : StoreCall} {s t : StoreState} {f : α → StoreReply}
    {r : V2StoreResult α} (h : Quiet s t) (hf : ∀ a, (f a).fresh = false) :
    CallEffect P call s (r.map f) t := by
  refine .quiet h fun b hb => ?_
  obtain ⟨a, -, rfl⟩ := map_eq_ok hb
  exact hf a

theorem perform_effect {call : StoreCall} {s t : Anchored ω} {r : V2StoreResult StoreReply}
    (h : call.perform P anchor s = (r, t)) : CallEffect P call s.store r t.store := by
  cases call with
  | claim claim owner =>
    obtain ⟨r', hm, rfl⟩ := reply_eq h
    rcases claimV2_cases hm with ⟨hquiet, hr⟩ | ⟨token, advance, rfl, hnew, rfl⟩
    · refine .quiet hquiet fun b hb => ?_
      obtain ⟨a, ha, rfl⟩ := map_eq_ok hb
      simpa [StoreReply.fresh] using hr a ha
    · exact .created hnew
  | recordProgress claimId token progress =>
    obtain ⟨r', hm, rfl⟩ := reply_eq h
    rcases recordV2EvaluationProgress_cases hm with hquiet | ⟨⟨record, hnew⟩, rfl⟩
    · exact .ofRead hquiet fun _ => rfl
    · exact .progressed hnew
  | finalize claimId token terminal body horizon =>
    obtain ⟨r', hm, rfl⟩ := reply_eq h
    rcases finalizeV2Claim_cases hm with ⟨hquiet, hr, -⟩ | ⟨record, receipt, hnew, rfl⟩
    · refine .quiet hquiet fun b hb => ?_
      obtain ⟨a, ha, rfl⟩ := map_eq_ok hb
      cases a
      · rfl
      · exact absurd ha hr
    · exact .finalized hnew
  | loadInterrupted claimId =>
    obtain ⟨r', hm, rfl⟩ := reply_eq h
    exact .ofRead (loadV2InterruptedClaim_quiet hm) fun _ => rfl
  | recover claimId terminal body =>
    obtain ⟨r', hm, rfl⟩ := reply_eq h
    rcases recoverInterruptedV2Claim_cases hm with ⟨hquiet, hr⟩ | ⟨record, receipt, hnew, rfl⟩
    · refine .quiet hquiet fun b hb => ?_
      obtain ⟨a, ha, rfl⟩ := map_eq_ok hb
      cases a
      · rfl
      · exact absurd ha hr
    · exact .recovered hnew
  | loadCommitted claimId =>
    obtain ⟨r', hm, rfl⟩ := reply_eq h
    exact .ofRead (loadV2CommittedClaim_quiet hm) fun _ => rfl
  | loadTerminal claimId =>
    obtain ⟨r', hm, rfl⟩ := reply_eq h
    exact .ofRead (loadV2TerminalClaim_quiet hm) fun _ => rfl
  | recordRelease release =>
    obtain ⟨r', hm, rfl⟩ := reply_eq h
    rcases recordV2Release_cases hm with ⟨hs, -⟩ | ⟨⟨record, hnew⟩, rfl⟩
    · exact .ofRead (.inl hs) fun _ => rfl
    · exact .released hnew
  | publish claimId body sign =>
    obtain ⟨r', hm, rfl⟩ := reply_eq h
    have houtcome := publishV2Receipt_cases hm
    generalize t.store = u at houtcome
    cases houtcome with
    | refused => exact .ofRead (.refl _) fun _ => rfl
    | original committed found happended => exact .ofRead (.refl _) fun _ => rfl
    | appended hnew submitted => exact .appended hnew submitted
  | acknowledge logId sequence previous entryHash =>
    obtain ⟨r', hm, rfl⟩ := reply_eq h
    have houtcome := acknowledgeV2Receipt_cases hm
    generalize t.store = u at houtcome
    cases houtcome with
    | refused => exact .ofRead (.refl _) fun _ => rfl
    | fork => exact .forked
    | original => exact .ofRead (.refl _) fun _ => rfl
    | acknowledged hnew => exact .acknowledged hnew
  | getAcknowledgement logId sequence =>
    obtain ⟨r', hm, rfl⟩ := reply_eq h
    exact .ofRead (getV2Acknowledgement_quiet hm) fun _ => rfl
  | authoritativeTime =>
    obtain ⟨r', hm, rfl⟩ := reply_eq h
    rcases readClockLocked_cases s with ⟨e, he⟩ | ⟨hready, hok⟩
    · rw [he] at hm
      cases hm
      exact .ofRead (.refl _) fun _ => rfl
    · rw [hok] at hm
      cases hm
      exact .ofRead (.ticked hready) fun _ => rfl
  | setTime now =>
    obtain ⟨r', hm, rfl⟩ := reply_eq h
    cases hm
    exact .timeSet
  | setSignerFailure failing =>
    obtain ⟨r', hm, rfl⟩ := reply_eq h
    cases hm
    exact .signerSet
  | setAcknowledgementWithheld withheld =>
    obtain ⟨r', hm, rfl⟩ := reply_eq h
    obtain ⟨rfl, hs⟩ := setAcknowledgementWithheld_cases hm
    exact .withheldSet hs
  | withRateAtFinalization =>
    obtain ⟨r', hm, rfl⟩ := reply_eq h
    cases hm
    exact .rateEnabled
  | abandonPendingReceipts =>
    obtain ⟨r', hm, rfl⟩ := reply_eq h
    rcases abandonPendingReceipts_cases hm with ⟨hs, rfl⟩ | ⟨hs, rfl⟩
    · exact .ofRead (.inl hs) fun _ => rfl
    · rw [hs]
      exact .abandoned

/-! ## Runs -/

/-- A call with its reply. -/
abbrev StoreEvent := StoreCall × V2StoreResult StoreReply

/-- One step of a run. -/
def Performs (P : Primitives) (anchor : StoreAnchor ω) (s : Anchored ω) (i : StoreEvent)
    (t : Anchored ω) : Prop :=
  i.1.perform P anchor s = (i.2, t)

/-- A run of the store. -/
abbrev StoreRun (P : Primitives) (anchor : StoreAnchor ω) (s : Anchored ω)
    (events : List StoreEvent) (t : Anchored ω) : Prop :=
  Run (Performs P anchor) s events t

/-- A call leads to one state. -/
theorem performs_unique (s : Anchored ω) (i : StoreEvent) (t u : Anchored ω)
    (ht : Performs P anchor s i t) (hu : Performs P anchor s i u) : t = u :=
  (Prod.mk.inj (ht.symm.trans hu)).2

/-! ## New stores -/

/-- A store as it is created is empty. -/
theorem StoreState.new_eq_ok {now leaseSeconds : Int} {logId : String}
    {verifierKey : HybridPublicKey} {s : StoreState}
    (h : StoreState.new P now leaseSeconds logId verifierKey = .ok s) :
    ∃ verifierId, keyIdV2 P verifierKey = .ok verifierId ∧ 0 < leaseSeconds
      ∧ (utf8 logId).length = 32
      ∧ s = { now, highWater := now, leaseSeconds, claims := .empty, streams := .empty,
              verifierKey, verifierId, logId, outbox := [], ackWithheld := false,
              logFrozen := false, checkpointFrozen := false, signerFailure := false,
              rateAtFinalization := false, rateCommits := .empty } := by
  simp only [StoreState.new] at h
  cases hid : keyIdV2 P verifierKey with
  | error e =>
    rw [hid] at h
    cases h
  | ok verifierId =>
    rw [hid] at h
    simp only [ok_bind] at h
    split at h
    · simp at h
    · rename_i hvalid
      rw [not_or, not_le, not_not] at hvalid
      cases h
      exact ⟨verifierId, rfl, hvalid.1, hvalid.2, rfl⟩

/-- A store at time 100 with a lease of a minute. -/
def firstStore : StoreState where
  now := 100
  highWater := 100
  leaseSeconds := 60
  claims := .empty
  streams := .empty
  verifierKey := tabledKey 1
  verifierId := hexEncode (1 :: List.replicate 31 0)
  logId := "00000000000000000000000000000000"
  outbox := []
  ackWithheld := false
  logFrozen := false
  checkpointFrozen := false
  signerFailure := false
  rateAtFinalization := false
  rateCommits := .empty

theorem Accepting.new_firstStore (h : Accepting P) :
    StoreState.new P 100 60 "00000000000000000000000000000000" (tabledKey 1) = .ok firstStore := by
  have hlength : (utf8 "00000000000000000000000000000000").length = 32 := by decide
  simp only [StoreState.new, h.keyIdV2, ok_bind, hlength]
  rfl

theorem new_firstStore (objects : List StatusObject) :
    StoreState.new (tabled objects) 100 60 "00000000000000000000000000000000" (tabledKey 1)
      = .ok firstStore :=
  accepting_tabled.new_firstStore

end RatifyProtocol.V2
