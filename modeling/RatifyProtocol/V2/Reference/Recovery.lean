import RatifyProtocol.V2.Reference.ClaimSafety
set_option autoImplicit false

/-!
# Reference store: recovery of interrupted claims

`recover_interrupted_claim_v2` of `v2/evaluation_progress.rs` on the reference
store, and the progress that it can and cannot recover.
-/

namespace RatifyProtocol.V2

open Foundation

variable {ω : Type} {P : Primitives} {anchor : StoreAnchor ω}

/-! ## Lease-expiry recovery -/

/-- A store operation whose unclassified failures get a class. -/
def classified {α : Type} (cls : V2ErrorClass) (m : StoreM ω α) :
    Operation (Anchored ω) V2Error α :=
  .mapError (·.classifiedOr cls) m

/-- `recover_interrupted_claim_v2`. -/
def recoverInterruptedClaimV2 (anchor : StoreAnchor ω) (claimId : String) :
    Operation (Anchored ω) V2Error CommittedV2Outcome :=
  if claimId = "" then
    .fail (V2Error.new .configurationInvalid
      "v2 recovery requires a context, claim store and claim ID")
  else do
    let interrupted ← classified .claimStoreUnavailable (loadV2InterruptedClaim claimId)
    if interrupted.claim.claimId ≠ claimId then
      .fail (V2Error.new .claimStoreUnavailable
        "v2 claim store returned a different claim for recovery")
    else do
      let result ← .lift (v2EvaluationInterruptedResult interrupted.claim interrupted.claimedAt
        interrupted.progress)
      let _ ← classified .claimStoreUnavailable
        (recoverInterruptedV2Claim anchor claimId result.1 result.2)
      pure (.new interrupted.claim result.2 0)

/-- Recovery commits a terminal receipt. -/
def RecoveryCommits (anchor : StoreAnchor ω) (claimId : String) (s : Anchored ω) : Prop :=
  ∃ outcome t, recoverInterruptedClaimV2 anchor claimId s = (.ok outcome, t)
    ∧ IsTerminal t.store claimId

/-- After the lease of a claim, recovery commits exactly when the interrupted
result of the claim and its progress exists and passes. -/
theorem recoveryCommits_iff (haccepts : AnchorAccepts anchor) {claimId : String}
    {record : ClaimRecord} {s : Anchored ω} (h : LeasePassed claimId record s.store)
    (hname : claimId ≠ "") (hown : record.claim.claimId = claimId) :
    RecoveryCommits anchor claimId s
      ↔ InterruptedResultPasses record.claim record.claimedAt record.progress := by
  have hload : classified .claimStoreUnavailable (loadV2InterruptedClaim claimId) s = _ :=
    Operation.mapError_apply_ok.mpr h.loadV2InterruptedClaim
  constructor
  · rintro ⟨outcome, t, hok, hterminal⟩
    rw [recoverInterruptedClaimV2, if_neg hname, Operation.bind_apply_ok hload,
      if_neg (not_not.mpr hown)] at hok
    obtain ⟨⟨terminal, body⟩, u, hlift, hok⟩ := Operation.bind_eq_ok_iff.mp hok
    have hresult : v2EvaluationInterruptedResult record.claim record.claimedAt record.progress
        = .ok (terminal, body) := congrArg Prod.fst hlift
    obtain rfl : s.tick = u := congrArg Prod.snd hlift
    obtain ⟨fresh, v, hcommit, hok⟩ := Operation.bind_eq_ok_iff.mp hok
    cases hok
    rcases recoverInterruptedV2Claim_cases (Operation.mapError_apply_ok.mp hcommit) with
      ⟨hquiet, -⟩ | ⟨record', receipt, hnew, -⟩
    · -- A claim that was found and not committed is still evaluating.
      obtain ⟨r, hr, hstate⟩ := hterminal
      rw [hquiet.claims] at hr
      cases hr.symm.trans h.found
      rw [h.evaluating] at hstate
      cases hstate
    · obtain rfl : record' = record := Option.some.inj (hnew.found.symm.trans h.found)
      exact ⟨terminal, body, hresult, hnew.payload⟩
  · rintro ⟨terminal, body, hresult, hpayload⟩
    have hpassed : LeasePassed claimId record s.tick.store :=
      { ready := ⟨le_refl _, h.ready.nonneg, h.ready.bounded⟩
        found := h.found, evaluating := h.evaluating, leaseExpired := h.leaseExpired }
    obtain ⟨receipt, hdecoded, hdecision, hreason⟩ := interruptedResult_decoded hresult
    obtain ⟨t, hcommit, ht⟩ := recoverInterruptedV2Claim_commits haccepts hpassed hpayload hdecoded
      hdecision hreason
    have hcommit' : classified .claimStoreUnavailable
        (recoverInterruptedV2Claim anchor claimId terminal body) s.tick = (.ok true, t) :=
      Operation.mapError_apply_ok.mpr hcommit
    refine ⟨.new record.claim body 0, t, ?_, ?_⟩
    · rw [recoverInterruptedClaimV2, if_neg hname, Operation.bind_apply_ok hload,
        if_neg (not_not.mpr hown),
        Operation.bind_apply_ok (a := (terminal, body)) (t := s.tick)
          (by rw [Operation.lift_apply, hresult])]
      exact Operation.bind_apply_ok hcommit'
    · refine ⟨record.commit terminal body 0 s.tick.store.now s.tick.store.outbox.length, ?_, rfl⟩
      rw [ht]
      exact OrderedMap.get?_insert_self _ _ _

/-- A claim that waits with valid progress for its recovery: its interrupted result
exists, passes and is committed exactly when claim and progress are recoverable. -/
theorem progress_recoverable_iff {claim : V2ChallengeClaim} {verifiedAt : Int}
    {p : V2EvaluationProgress} (haccepts : AnchorAccepts anchor)
    (hvalid : validateV2EvaluationProgressInner p = .ok ())
    (htime : validV2Timestamp verifiedAt = true) :
    (InterruptedResultPasses claim verifiedAt p ↔ Recoverable claim verifiedAt p)
      ∧ ∀ (s : Anchored ω) (record : ClaimRecord), LeasePassed claim.claimId record s.store →
        claim.claimId ≠ "" → record.claim = claim → record.claimedAt = verifiedAt →
        record.progress = p →
        (RecoveryCommits anchor claim.claimId s ↔ Recoverable claim verifiedAt p) := by
  have hpasses := @interruptedResultPasses_iff claim _ _
    (validateV2EvaluationProgressInner_eq_ok_iff.mp hvalid) htime
  refine ⟨hpasses, ?_⟩
  rintro s record hpassed hname rfl rfl rfl
  rw [recoveryCommits_iff haccepts hpassed hname rfl]
  exact hpasses

/-- The first claim is recovered when its evaluation never started. -/
theorem progress_recoverable_first :
    InterruptedResultPasses firstClaim 100 initialV2EvaluationProgress
      ∧ RecoveryCommits (none : StoreAnchor Unit) firstClaim.claimId
          { store := claimedStore 160 initialV2EvaluationProgress, device := () } := by
  have h := @progress_recoverable_iff Unit none firstClaim 100
    initialV2EvaluationProgress AnchorAccepts.none initialV2EvaluationProgress_valid rfl
  refine ⟨h.1.mpr firstClaim_plain.recoverable, (h.2 _ (firstRecord initialV2EvaluationProgress)
    (leasePassed_claimedStore _) firstClaim_named rfl rfl rfl).mpr firstClaim_plain.recoverable⟩

/-! ## Progress that cannot be recovered -/

/-- Progress that states a current status without evidence. -/
def bareProgress : V2EvaluationProgress :=
  { trustAssessment := "trusted", statusAssessment := "current",
    contextAssessment := "not_evaluated", contextPolicyDigest := none, statusEvidence := [] }

theorem bareProgress_valid : validateV2EvaluationProgressInner bareProgress = .ok () :=
  validateV2EvaluationProgressInner_eq_ok_iff.mpr
    { trust := by simp [bareProgress]
      status := by simp [bareProgress]
      context := by simp [bareProgress]
      digest := by simp [bareProgress]
      digestValid := by simp [bareProgress]
      trusted := by simp [bareProgress]
      evidence := by simp [bareProgress] }

theorem performs_bareProgress :
    Performs (tabled []) (none : StoreAnchor Unit)
      { store := claimedStore 100 initialV2EvaluationProgress, device := () }
      (.recordProgress firstClaim.claimId firstToken bareProgress, .ok .progressRecorded)
      { store := claimedStore 100 bareProgress, device := () } := by
  have hlive : OwnerLive (tabled []) firstClaim.claimId firstToken
      (firstRecord initialV2EvaluationProgress) (claimedStore 100 initialV2EvaluationProgress) :=
    { ready := ready_claimedStore (le_refl _) (by simp [v2MaxTimestampSeconds]) _
      found := found_claimedStore 100 _, owner := rfl, evaluating := rfl
      afterClaim := le_refl _
      leaseLive := by
        change (100 : Int) < 160
        omega }
  obtain ⟨t, hrecord, ht⟩ := @recordV2EvaluationProgress_records Unit (tabled []) none
    AnchorAccepts.none _ _ bareProgress _
    { store := claimedStore 100 initialV2EvaluationProgress, device := () } hlive
    bareProgress_valid
  obtain rfl : t = { store := claimedStore 100 bareProgress, device := () } := by
    obtain ⟨store, device⟩ := t
    cases ht
    rfl
  exact performs_of_apply (f := fun _ => .progressRecorded) rfl hrecord

/-- A store accepts progress of the first claim that it can never recover. -/
theorem bareProgress_unrecoverable :
    validateV2EvaluationProgressInner bareProgress = .ok ()
      ∧ SealedWellFormed firstClaim
      ∧ StoreRun (tabled []) (none : StoreAnchor Unit) { store := firstStore, device := () }
          [(.claim firstClaim (.ok firstToken), .ok (.claimed
              { disposition := .created, claimedAt := 100, ownerToken := firstToken })),
            (.recordProgress firstClaim.claimId firstToken bareProgress, .ok .progressRecorded),
            (.setTime 160, .ok .configured)]
          { store := claimedStore 160 bareProgress, device := () }
      ∧ ¬ InterruptedResultPasses firstClaim 100 bareProgress
      ∧ ¬ RecoveryCommits (none : StoreAnchor Unit) firstClaim.claimId
          { store := claimedStore 160 bareProgress, device := () } := by
  have hprogress := validateV2EvaluationProgressInner_eq_ok_iff.mp bareProgress_valid
  have hset : Performs (tabled []) (none : StoreAnchor Unit)
      { store := claimedStore 100 bareProgress, device := () } (.setTime 160, .ok .configured)
      { store := claimedStore 160 bareProgress, device := () } := rfl
  have hbare : ¬ InterruptedResultPasses firstClaim 100 bareProgress := by
    intro h
    have hrecoverable := (interruptedResultPasses_iff hprogress rfl).mp h
    exact hrecoverable.statable.evaluated List.mem_cons_self rfl
  refine ⟨bareProgress_valid, firstClaim_wellFormed,
    ((Run.single performs_firstClaim).snoc performs_bareProgress).snoc hset, hbare, ?_⟩
  rw [recoveryCommits_iff .none (leasePassed_claimedStore _) firstClaim_named rfl]
  exact hbare

end RatifyProtocol.V2
